import Mathlib.Tactic.Common

/-!
# Imperative computations with exceptions and assertions

A computation reads and writes a state and ends in one of three ways: it
returns a value, it throws, or a failed assertion stops the program. A state
change made before a throw is kept, as in the languages modelled. Objects with
scoped lifetime are entered and left through `withLocal`, which runs the leaving
part on every exit path. `andThen` chains steps that report success as a boolean.
-/
namespace CpperoMQ.Effects

/-- How a computation ends. -/
inductive Outcome (ε α : Type*) where
  | returned (a : α)
  | threw (e : ε)
  | aborted
  deriving Repr, DecidableEq

/-- A computation on states `σ` that may throw an `ε`. -/
def Exec (σ ε α : Type*) := σ → Outcome ε α × σ

namespace Exec
universe u v w
variable {σ : Type u} {ε : Type v} {α β γ ι : Type w}

def bind (x : Exec σ ε α) (f : α → Exec σ ε β) : Exec σ ε β := fun s =>
  match x s with
  | (.returned a, t) => f a t
  | (.threw e, t) => (.threw e, t)
  | (.aborted, t) => (.aborted, t)

instance : Monad (Exec σ ε) where
  pure a := fun s => (.returned a, s)
  bind := bind

/-- Leave by an exception. -/
def throw (e : ε) : Exec σ ε α := fun s => (.threw e, s)

/-- A debug assertion: the program stops where the condition is false. -/
def assert (p : Bool) : Exec σ ε Unit := fun s =>
  if p then (.returned (), s) else (.aborted, s)

/-- Read something off the state. -/
def read (f : σ → α) : Exec σ ε α := fun s => (.returned (f s), s)

/-- Replace the state. -/
def modify (f : σ → σ) : Exec σ ε Unit := fun s => (.returned (), f s)

/-- Run a computation for what it does. -/
def discard (x : Exec σ ε α) : Exec σ ε PUnit := x.bind fun _ => pure ⟨⟩

/-- An object that lives for the extent of `body`. Where `enter` throws there is
no object to leave. A `leave` that does not return normally stops the program. -/
def withLocal (enter : Exec σ ε ι) (leave : ι → Exec σ ε PUnit) (body : ι → Exec σ ε α) :
    Exec σ ε α := fun s =>
  match enter s with
  | (.returned i, t) =>
    match body i t with
    | (.aborted, u) => (.aborted, u)
    | (r, u) =>
      match leave i u with
      | (.returned _, v) => (r, v)
      | (_, v) => (.aborted, v)
  | (.threw e, t) => (.threw e, t)
  | (.aborted, t) => (.aborted, t)

@[simp] theorem pure_apply (a : α) (s : σ) :
    (pure a : Exec σ ε α) s = (.returned a, s) := rfl

@[simp] theorem throw_apply (e : ε) (s : σ) :
    (throw e : Exec σ ε α) s = (.threw e, s) := rfl

@[simp] theorem read_apply (f : σ → α) (s : σ) :
    (read f : Exec σ ε α) s = (.returned (f s), s) := rfl

@[simp] theorem modify_apply (f : σ → σ) (s : σ) :
    (modify f : Exec σ ε Unit) s = (.returned (), f s) := rfl

@[simp] theorem assert_true (s : σ) :
    (assert true : Exec σ ε Unit) s = (.returned (), s) := rfl

@[simp] theorem assert_false (s : σ) :
    (assert false : Exec σ ε Unit) s = (.aborted, s) := rfl

@[simp] theorem bind_eq (x : Exec σ ε α) (f : α → Exec σ ε β) : x >>= f = x.bind f := rfl

theorem bind_of_returned {x : Exec σ ε α} {s t : σ} {a : α} (h : x s = (.returned a, t))
    (f : α → Exec σ ε β) : x.bind f s = f a t := by
  simp [bind, h]

theorem bind_of_threw {x : Exec σ ε α} {s t : σ} {e : ε} (h : x s = (.threw e, t))
    (f : α → Exec σ ε β) : x.bind f s = (.threw e, t) := by
  simp [bind, h]

theorem bind_of_aborted {x : Exec σ ε α} {s t : σ} (h : x s = (.aborted, t))
    (f : α → Exec σ ε β) : x.bind f s = (.aborted, t) := by
  simp [bind, h]

theorem bind_assoc (x : Exec σ ε α) (f : α → Exec σ ε β) (g : β → Exec σ ε γ) :
    (x.bind f).bind g = x.bind fun a => (f a).bind g := by
  funext s
  rcases h : x s with ⟨r, t⟩
  cases r <;> simp [bind, h]

theorem bind_pure (x : Exec σ ε α) : x.bind pure = x := by
  funext s
  rcases h : x s with ⟨r, t⟩
  cases r <;> simp [bind, h]

theorem discard_of_returned {x : Exec σ ε α} {s t : σ} {a : α} (h : x s = (.returned a, t)) :
    x.discard s = (.returned ⟨⟩, t) := bind_of_returned h _

theorem discard_of_threw {x : Exec σ ε α} {s t : σ} {e : ε} (h : x s = (.threw e, t)) :
    x.discard s = (.threw e, t) := bind_of_threw h _

theorem discard_of_aborted {x : Exec σ ε α} {s t : σ} (h : x s = (.aborted, t)) :
    x.discard s = (.aborted, t) := bind_of_aborted h _

/-- The object is left however the body ends, short of stopping the program. -/
theorem withLocal_of_leave {enter : Exec σ ε ι} {leave : ι → Exec σ ε PUnit}
    {body : ι → Exec σ ε α} {s t u v : σ} {i : ι} {r : Outcome ε α}
    (henter : enter s = (.returned i, t)) (hbody : body i t = (r, u)) (hr : r ≠ .aborted)
    (hleave : leave i u = (.returned ⟨⟩, v)) : withLocal enter leave body s = (r, v) := by
  cases r with
  | returned a => simp [withLocal, henter, hbody, hleave]
  | threw e => simp [withLocal, henter, hbody, hleave]
  | aborted => exact absurd rfl hr

/-- There is nothing to leave where entering threw. -/
theorem withLocal_of_threw {enter : Exec σ ε ι} {s t : σ} {e : ε} (henter : enter s = (.threw e, t))
    (leave : ι → Exec σ ε PUnit) (body : ι → Exec σ ε α) :
    withLocal enter leave body s = (.threw e, t) := by simp [withLocal, henter]

theorem withLocal_of_aborted {enter : Exec σ ε ι} {s t : σ} (henter : enter s = (.aborted, t))
    (leave : ι → Exec σ ε PUnit) (body : ι → Exec σ ε α) :
    withLocal enter leave body s = (.aborted, t) := by simp [withLocal, henter]

/-! ### Steps that report success -/

/-- `if (!x) return false; return y;` -/
def andThen (x y : Exec σ ε Bool) : Exec σ ε Bool :=
  x.bind fun ok => if ok then y else pure false

theorem andThen_of_true {x y : Exec σ ε Bool} {s t : σ} (h : x s = (.returned true, t)) :
    x.andThen y s = y t := by rw [andThen, bind_of_returned h, if_pos rfl]

/-- Nothing follows a step that did not return true. -/
theorem andThen_of_not_true {x : Exec σ ε Bool} {s t : σ} {r : Outcome ε Bool}
    (h : x s = (r, t)) (hr : r ≠ .returned true) (y : Exec σ ε Bool) :
    x.andThen y s = (r, t) := by
  cases r with
  | returned ok =>
    cases ok with
    | true => exact absurd rfl hr
    | false => rw [andThen, bind_of_returned h]; rfl
  | threw e => exact bind_of_threw h _
  | aborted => exact bind_of_aborted h _

@[simp] theorem true_andThen (y : Exec σ ε Bool) : (pure true : Exec σ ε Bool).andThen y = y := rfl

@[simp] theorem false_andThen (y : Exec σ ε Bool) :
    (pure false : Exec σ ε Bool).andThen y = pure false := rfl

@[simp] theorem andThen_true (x : Exec σ ε Bool) : x.andThen (pure true) = x := by
  have hh : (fun ok : Bool => if ok then (pure true : Exec σ ε Bool) else pure false) = pure := by
    funext ok
    cases ok <;> rfl
  rw [andThen, hh, bind_pure]

theorem andThen_assoc (x y z : Exec σ ε Bool) :
    (x.andThen y).andThen z = x.andThen (y.andThen z) := by
  unfold andThen
  rw [bind_assoc]
  congr 1
  funext ok
  cases ok <;> rfl

end Exec
end CpperoMQ.Effects
