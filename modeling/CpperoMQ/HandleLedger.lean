import CpperoMQ.ObjectPool

/-!
# Handles with one owner

Every object of a pool owns at most one handle, as `held` says. Handles are
acquired from outside and released again; how often is counted for each handle,
since one that was released may be given out again. A ledger is balanced when
acquired handles are either released or owned, each by a single object. The
operations below are the ways objects come by handles and lose them, and each
of them keeps the balance.
-/
namespace CpperoMQ

structure HandleLedger {α H : Type*} (held : α → Option H) where
  pool : ObjectPool α
  acquired : H → ℕ
  released : H → ℕ

namespace HandleLedger
variable {α H : Type*} [DecidableEq H] {held : α → Option H} (L : HandleLedger held)

/-- One more for this handle. -/
def bump (f : H → ℕ) (h : H) : H → ℕ := fun g => f g + if g = h then 1 else 0

/-- The object owns the handle. -/
def Owns (i : ℕ) (h : H) : Prop := ∃ a, L.pool.get i = some a ∧ held a = some h

/-- Acquired and not yet released. -/
def Outstanding (h : H) : Prop := L.released h < L.acquired h

/-- Number of objects of a pool that own the handle. -/
def owners (held : α → Option H) (p : ObjectPool α) (h : H) : ℕ :=
  p.count fun a => decide (held a = some h)

structure Balanced : Prop where
  counts : ∀ h, L.acquired h = owners held L.pool h + L.released h
  single : ∀ h, owners held L.pool h ≤ 1

/-- Every outstanding handle has the property. -/
def Backed (P : H → Prop) : Prop := ∀ h, L.Outstanding h → P h

/-- What ownership is for: an outstanding handle has exactly one owner, what is
owned is outstanding, a handle is released once each time it was acquired, and
without objects nothing is outstanding. -/
structure Accounted : Prop where
  owned : ∀ h, L.Outstanding h → ∃! i, L.Owns i h
  outstanding : ∀ i h, L.Owns i h → L.Outstanding h
  exclusive : ∀ i j h, L.Owns i h → L.Owns j h → i = j
  once : ∀ h, L.released h ≤ L.acquired h ∧ L.acquired h ≤ L.released h + 1
  ended : (∀ i, L.pool.get i = none) → ∀ h, L.released h = L.acquired h

/-! ### Operations -/

/-- A new object that owns a new handle. -/
def acquire (a : α) (h : H) : HandleLedger held := ⟨L.pool.alloc a, bump L.acquired h, L.released⟩

/-- A new object takes over what an existing one owns. -/
def transfer (i : ℕ) (a b : α) : HandleLedger held :=
  ⟨(L.pool.put i (some a)).alloc b, L.acquired, L.released⟩

/-- Two objects exchange what they own. -/
def exchange (i j : ℕ) (a b : α) : HandleLedger held :=
  ⟨(L.pool.put i (some a)).put j (some b), L.acquired, L.released⟩

/-- The end of an object that owns nothing. -/
def retire (i : ℕ) : HandleLedger held := ⟨L.pool.put i none, L.acquired, L.released⟩

/-- The end of an object that releases its handle. -/
def release (i : ℕ) (h : H) : HandleLedger held :=
  ⟨L.pool.put i none, L.acquired, bump L.released h⟩

/-- The end of an object, which releases what it owns. -/
def discharge (i : ℕ) : Option H → HandleLedger held
  | some h => L.release i h
  | none => L.retire i

/-- An acquired handle that no object got. -/
def lose (h : H) : HandleLedger held := ⟨L.pool, bump L.acquired h, L.released⟩

section Counting
variable {L} {p : ObjectPool α} {i : ℕ} {a : α} {h : H}

theorem owners_pos_iff : 0 < owners held L.pool h ↔ ∃ i, L.Owns i h := by
  constructor
  · intro hpos
    obtain ⟨i, a, ha, hh⟩ := ObjectPool.exists_of_count_pos hpos
    exact ⟨i, a, ha, of_decide_eq_true hh⟩
  · rintro ⟨i, a, ha, hh⟩
    exact ObjectPool.count_pos ha (decide_eq_true hh)

variable (held)

theorem weight_held (h : H) (a : α) :
    ObjectPool.weight (fun a => decide (held a = some h)) (some a) =
      if held a = some h then 1 else 0 := by simp

theorem owners_remove (hi : p.get i = some a) (h : H) :
    owners held (p.put i none) h + (if held a = some h then 1 else 0) = owners held p h := by
  have hc := ObjectPool.count_put (ObjectPool.lt_next_of_get hi)
    (fun a => decide (held a = some h)) none
  rw [hi, weight_held held] at hc
  exact hc

/-- Replacing an object moves the number of owners by what the two own. -/
theorem owners_put (hi : p.get i = some a) (a' : α) (h : H) :
    owners held (p.put i (some a')) h + (if held a = some h then 1 else 0) =
      owners held p h + if held a' = some h then 1 else 0 := by
  have hc := ObjectPool.count_put (ObjectPool.lt_next_of_get hi)
    (fun a => decide (held a = some h)) (some a')
  rw [hi, weight_held held, weight_held held] at hc
  exact hc

theorem owners_alloc (p : ObjectPool α) (a : α) (h : H) :
    owners held (p.alloc a) h = owners held p h + if held a = some h then 1 else 0 := by
  have hc := ObjectPool.count_alloc p (fun a => decide (held a = some h)) a
  rw [weight_held held] at hc
  exact hc

end Counting

/-! ### Every operation keeps the balance -/

namespace Balanced
variable {L} {i j : ℕ} {a b a' b' : α} {h : H}

/-- In a balanced ledger only outstanding handles have owners. -/
theorem owners_eq_zero (hL : L.Balanced) (hfree : ¬L.Outstanding h) :
    owners held L.pool h = 0 := by
  have hc := hL.counts h
  unfold Outstanding at hfree
  omega

theorem empty : (⟨.empty, fun _ => 0, fun _ => 0⟩ : HandleLedger held).Balanced :=
  ⟨fun _ => rfl, fun _ => Nat.zero_le 1⟩

theorem acquire (hL : L.Balanced) (hfree : ¬L.Outstanding h) (ha : held a = some h) :
    (L.acquire a h).Balanced := by
  have hown : ∀ g, owners held (L.pool.alloc a) g =
      owners held L.pool g + if g = h then 1 else 0 := by
    intro g
    rw [owners_alloc, ha]
    simp only [Option.some.injEq, eq_comm]
  constructor
  case counts =>
    intro g
    have hc := hL.counts g
    have hg := hown g
    change L.acquired g + (if g = h then 1 else 0) =
      owners held (L.pool.alloc a) g + L.released g
    omega
  case single =>
    intro g
    have hg := hown g
    change owners held (L.pool.alloc a) g ≤ 1
    by_cases hgh : g = h
    · have hz := hL.owners_eq_zero hfree
      rw [if_pos hgh, hgh] at hg
      rw [hgh]
      omega
    · rw [if_neg hgh] at hg
      have hs := hL.single g
      omega

/-- Another pool with the same owners is as balanced. -/
theorem of_owners_eq {p : ObjectPool α} (hL : L.Balanced)
    (hown : ∀ h, owners held p h = owners held L.pool h) :
    (⟨p, L.acquired, L.released⟩ : HandleLedger held).Balanced := by
  constructor
  case counts =>
    intro h
    change L.acquired h = owners held p h + L.released h
    rw [hown]
    exact hL.counts h
  case single =>
    intro h
    change owners held p h ≤ 1
    rw [hown]
    exact hL.single h

theorem transfer (hL : L.Balanced) (hi : L.pool.get i = some a) (ha' : held a' = none)
    (hb : held b = held a) : (L.transfer i a' b).Balanced := by
  apply hL.of_owners_eq
  intro h
  have hput := owners_put held hi a' h
  have halloc := owners_alloc held (L.pool.put i (some a')) b h
  rw [ha', if_neg (Option.some_ne_none h).symm] at hput
  rw [hb] at halloc
  omega

/-- The two objects may be the same one. -/
theorem exchange (hL : L.Balanced) (hi : L.pool.get i = some a) (hj : L.pool.get j = some b)
    (ha' : held a' = held b) (hb' : held b' = held a) : (L.exchange i j a' b').Balanced := by
  have hget : (L.pool.put i (some a')).get j = some (if j = i then a' else b) := by
    rw [ObjectPool.get_put (ObjectPool.lt_next_of_get hi), hj]
    split_ifs with hji <;> rfl
  have hheld : held (if j = i then a' else b) = held b := by
    split_ifs with hji
    · exact ha'
    · rfl
  apply hL.of_owners_eq
  intro h
  have hput := owners_put held hi a' h
  have hput' := owners_put held hget b' h
  rw [ha'] at hput
  rw [hheld, hb'] at hput'
  omega

theorem retire (hL : L.Balanced) (hi : L.pool.get i = some a) (ha : held a = none) :
    (L.retire i).Balanced := by
  apply hL.of_owners_eq
  intro h
  have hremove := owners_remove held hi h
  rw [ha, if_neg (Option.some_ne_none h).symm] at hremove
  exact hremove

theorem release (hL : L.Balanced) (hi : L.pool.get i = some a) (ha : held a = some h) :
    (L.release i h).Balanced := by
  have hown : ∀ g, owners held (L.pool.put i none) g + (if g = h then 1 else 0) =
      owners held L.pool g := by
    intro g
    have hremove := owners_remove held hi g
    rw [ha] at hremove
    simp only [Option.some.injEq, eq_comm (a := h)] at hremove
    exact hremove
  constructor
  case counts =>
    intro g
    have hc := hL.counts g
    have hg := hown g
    change L.acquired g =
      owners held (L.pool.put i none) g + (L.released g + if g = h then 1 else 0)
    omega
  case single =>
    intro g
    have hs := hL.single g
    have hg := hown g
    change owners held (L.pool.put i none) g ≤ 1
    omega

theorem discharge (hL : L.Balanced) (hi : L.pool.get i = some a) :
    (L.discharge i (held a)).Balanced := by
  cases ha : held a with
  | none => exact hL.retire hi ha
  | some h => exact hL.release hi ha

/-! ### What balance means -/

theorem outstanding (hL : L.Balanced) (ho : L.Owns i h) : L.Outstanding h := by
  have hpos := owners_pos_iff.mpr ⟨i, ho⟩
  have hc := hL.counts h
  unfold Outstanding
  omega

theorem exclusive (hL : L.Balanced) (hi : L.Owns i h) (hj : L.Owns j h) : i = j := by
  by_contra hij
  obtain ⟨a, ha, hah⟩ := hi
  obtain ⟨b, hb, hbh⟩ := hj
  have htwo : 2 ≤ owners held L.pool h :=
    ObjectPool.two_le_count hij ha hb (decide_eq_true hah) (decide_eq_true hbh)
  have hs := hL.single h
  omega

theorem accounted (hL : L.Balanced) : L.Accounted := by
  constructor
  case owned =>
    intro h hout
    have hc := hL.counts h
    unfold Outstanding at hout
    obtain ⟨i, hi⟩ := owners_pos_iff.mp (show 0 < owners held L.pool h by omega)
    exact ⟨i, hi, fun j hj => hL.exclusive hj hi⟩
  case outstanding => exact fun i h => hL.outstanding
  case exclusive => exact fun i j h => hL.exclusive
  case once =>
    intro h
    have hc := hL.counts h
    have hs := hL.single h
    omega
  case ended =>
    intro hnone h
    have hzero : owners held L.pool h = 0 := by
      apply ObjectPool.count_eq_zero
      intro i a ha
      rw [hnone i] at ha
      cases ha
    have hc := hL.counts h
    omega

theorem outstanding_of_acquire {g : H} (hg : (L.acquire a h).Outstanding g) :
    L.Outstanding g ∨ g = h := by
  by_cases hgh : g = h
  · exact .inr hgh
  · change L.released g < L.acquired g + (if g = h then 1 else 0) at hg
    rw [if_neg hgh] at hg
    exact .inl hg

/-- A released handle is not outstanding any more. -/
theorem outstanding_of_release (hL : L.Balanced) {g : H}
    (hg : (L.release i h).Outstanding g) : L.Outstanding g ∧ g ≠ h := by
  change L.released g + (if g = h then 1 else 0) < L.acquired g at hg
  have hc := hL.counts g
  have hs := hL.single g
  unfold Outstanding
  split_ifs at hg with hgh
  · omega
  · exact ⟨hg, hgh⟩

/-- A lost handle is never accounted for. -/
theorem not_accounted_of_lose (hL : L.Balanced) (hfree : ¬L.Outstanding h) :
    ¬(L.lose h).Accounted := by
  intro hacc
  have hc := hL.counts h
  have hout : (L.lose h).Outstanding h := by
    change L.released h < L.acquired h + if h = h then 1 else 0
    rw [if_pos rfl]
    omega
  obtain ⟨i, hi, _⟩ := hacc.owned h hout
  exact hfree (hL.outstanding hi)

end Balanced

namespace Backed
variable {L} {P Q : H → Prop} {i : ℕ} {a : α} {h : H}

omit [DecidableEq H] in
theorem congr (hP : L.Backed P) (hQ : ∀ g, Q g ↔ P g) : L.Backed Q :=
  fun g hout => (hQ g).mpr (hP g hout)

theorem acquire (hP : L.Backed P) (hQ : ∀ g, Q g ↔ P g ∨ g = h) :
    (L.acquire a h).Backed Q := by
  intro g hout
  apply (hQ g).mpr
  obtain hout | hgh := Balanced.outstanding_of_acquire hout
  · exact .inl (hP g hout)
  · exact .inr hgh

theorem discharge (hL : L.Balanced) (hP : L.Backed P) {m : Option H}
    (hQ : ∀ g, Q g ↔ P g ∧ m ≠ some g) : (L.discharge i m).Backed Q := by
  intro g hout
  apply (hQ g).mpr
  cases m with
  | none => exact ⟨hP g hout, by simp⟩
  | some h =>
    obtain ⟨hout, hgh⟩ := hL.outstanding_of_release hout
    exact ⟨hP g hout, by simpa [eq_comm] using hgh⟩

end Backed

/-! ### Handing out numbers -/

/-- A number that is not taken, possibly one that was taken before. -/
def unused (taken : List ℕ) : ℕ := taken.foldr max 0 + 1

theorem lt_unused {taken : List ℕ} {n : ℕ} (hn : n ∈ taken) : n < unused taken := by
  unfold unused
  induction taken with
  | nil => cases hn
  | cons m taken ih =>
    rw [List.foldr_cons]
    rcases List.mem_cons.mp hn with rfl | hn
    · omega
    · have hlt := ih hn
      omega

theorem unused_not_mem (taken : List ℕ) : unused taken ∉ taken := fun hmem =>
  Nat.lt_irrefl _ (lt_unused hmem)

end HandleLedger
end CpperoMQ
