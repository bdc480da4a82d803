import Mathlib.Algebra.Ring.Nat
import Mathlib.Algebra.GroupWithZero.Nat
import Mathlib.Tactic.Common
import Mathlib.Tactic.Ring

/-!
# Scalars in memory

A library that moves values through untyped memory sees a value as `sizeof` many
bytes. `Scalar` gives this for a type: the bytes of a value, least significant
byte first, and the value read back from bytes.
-/
namespace CpperoMQ

/-- The lowest `n` bytes of a number. -/
def bytesOf : ℕ → ℕ → List UInt8
  | 0, _ => []
  | n + 1, x => UInt8.ofNat x :: bytesOf n (x / 256)

/-- The number that some bytes spell. -/
def numberOf : List UInt8 → ℕ
  | [] => 0
  | b :: bytes => b.toNat + 256 * numberOf bytes

@[simp] theorem length_bytesOf (n x : ℕ) : (bytesOf n x).length = n := by
  induction n generalizing x with
  | zero => rfl
  | succ n ih => rw [bytesOf, List.length_cons, ih]

/-- Bytes above the `n`-th are lost. -/
theorem numberOf_bytesOf (n x : ℕ) : numberOf (bytesOf n x) = x % 256 ^ n := by
  induction n generalizing x with
  | zero => rw [bytesOf, numberOf, pow_zero, Nat.mod_one]
  | succ n ih =>
    have hlow : (UInt8.ofNat x).toNat = x % 256 := by simp
    rw [bytesOf, numberOf, ih, hlow, pow_succ', Nat.mod_mul]

class Scalar (T : Type) where
  size : ℕ
  write : T → List UInt8
  load : List UInt8 → T
  length_write : ∀ v, (write v).length = size
  load_write : ∀ v, load (write v) = v

instance : Scalar Int32 where
  size := 4
  write v := bytesOf 4 v.toBitVec.toNat
  load bytes := .ofBitVec (.ofNat 32 (numberOf bytes))
  length_write v := length_bytesOf 4 _
  load_write v := by
    have hlt : v.toBitVec.toNat < 256 ^ 4 := v.toBitVec.isLt
    rw [numberOf_bytesOf, Nat.mod_eq_of_lt hlt, BitVec.ofNat_toNat, BitVec.setWidth_eq,
      Int32.ofBitVec_toBitVec]

instance : Scalar UInt64 where
  size := 8
  write v := bytesOf 8 v.toNat
  load bytes := .ofNat (numberOf bytes)
  length_write v := length_bytesOf 8 _
  load_write v := by
    have hlt : v.toNat < 256 ^ 8 := v.toBitVec.isLt
    rw [numberOf_bytesOf, Nat.mod_eq_of_lt hlt, UInt64.ofNat_toNat]

instance : Scalar Bool where
  size := 1
  write v := [if v then 1 else 0]
  load bytes := numberOf bytes ≠ 0
  length_write v := rfl
  load_write v := by cases v <;> decide

end CpperoMQ
