import Mathlib.Tactic.Common

/-!
# Pools of objects with a lifetime

A pool gives every object an identifier when it is created. The identifier
stays with the object until it is destroyed and is never given out again. The
pool is finite, so the live objects with a property can be counted; how each
operation changes such a count is what ownership arguments need.
-/
namespace CpperoMQ

/-- The slot of an identifier is `none` once its object has been destroyed. -/
structure ObjectPool (α : Type*) where
  slots : List (Option α)
  deriving Repr, DecidableEq

namespace ObjectPool
variable {α β : Type*}

def empty : ObjectPool α := ⟨[]⟩

/-- The identifier the next object will get. -/
def next (p : ObjectPool α) : ℕ := p.slots.length

/-- The live object with this identifier. -/
def get (p : ObjectPool α) (i : ℕ) : Option α := p.slots[i]?.join

def alloc (p : ObjectPool α) (a : α) : ObjectPool α := ⟨p.slots ++ [some a]⟩

/-- Overwrite the slot of an identifier; `none` ends the object's life. -/
def put (p : ObjectPool α) (i : ℕ) (o : Option α) : ObjectPool α := ⟨p.slots.set i o⟩

/-- Number of live objects with the property `q`. -/
def count (p : ObjectPool α) (q : α → Bool) : ℕ := p.slots.countP (fun o => o.any q)

/-- The same objects seen through a function. -/
def map (f : α → β) (p : ObjectPool α) : ObjectPool β := ⟨p.slots.map (Option.map f)⟩

/-- What one slot contributes to a count. -/
def weight (q : α → Bool) (o : Option α) : ℕ := if o.any q then 1 else 0

@[simp] theorem weight_none (q : α → Bool) : weight q none = 0 := rfl

@[simp] theorem weight_some (q : α → Bool) (a : α) :
    weight q (some a) = if q a then 1 else 0 := rfl

@[simp] theorem get_empty (i : ℕ) : (empty : ObjectPool α).get i = none := rfl

/-- A pool whose objects are all gone. -/
theorem get_replicate_none (n i : ℕ) : (⟨List.replicate n none⟩ : ObjectPool α).get i = none := by
  rw [get, List.getElem?_replicate]
  split_ifs <;> rfl

@[simp] theorem count_empty (q : α → Bool) : (empty : ObjectPool α).count q = 0 := rfl

theorem lt_next_of_get {p : ObjectPool α} {i : ℕ} {a : α} (h : p.get i = some a) :
    i < p.next := by
  by_contra hn
  have hnone : p.slots[i]? = none := List.getElem?_eq_none (Nat.le_of_not_lt hn)
  simp [get, hnone] at h

@[simp] theorem get_next (p : ObjectPool α) : p.get p.next = none := by
  simp [get, next]

@[simp] theorem next_alloc (p : ObjectPool α) (a : α) : (p.alloc a).next = p.next + 1 := by
  simp [next, alloc]

@[simp] theorem next_put (p : ObjectPool α) (i : ℕ) (o : Option α) :
    (p.put i o).next = p.next := by simp [next, put]

@[simp] theorem get_alloc_self (p : ObjectPool α) (a : α) :
    (p.alloc a).get p.next = some a := by simp [get, alloc, next]

theorem get_alloc_of_ne (p : ObjectPool α) (a : α) {i : ℕ} (h : i ≠ p.next) :
    (p.alloc a).get i = p.get i := by
  rcases Nat.lt_or_gt_of_ne h with hlt | hgt
  · simp only [get, alloc, List.getElem?_append_left hlt]
  · have hlong : (p.slots ++ [some a]).length ≤ i := by
      rw [List.length_append, List.length_singleton]
      exact hgt
    have hlong' : p.slots.length ≤ i := Nat.le_of_lt hgt
    simp only [get, alloc, List.getElem?_eq_none hlong, List.getElem?_eq_none hlong']

theorem get_put_self {p : ObjectPool α} {i : ℕ} (h : i < p.next) (o : Option α) :
    (p.put i o).get i = o := by
  simp [get, put, List.getElem?_set_self h]

theorem get_put_of_ne (p : ObjectPool α) {i j : ℕ} (h : j ≠ i) (o : Option α) :
    (p.put i o).get j = p.get j := by
  simp [get, put, List.getElem?_set_ne h.symm]

/-- Reading a slot after an update, for an identifier that has been given out. -/
theorem get_put {p : ObjectPool α} {i : ℕ} (h : i < p.next) (j : ℕ) (o : Option α) :
    (p.put i o).get j = if j = i then o else p.get j := by
  split_ifs with hj
  · rw [hj, get_put_self h]
  · exact get_put_of_ne p hj o

theorem get_alloc_cases {p : ObjectPool α} {i : ℕ} {a b : α} (h : (p.alloc a).get i = some b) :
    p.get i = some b ∨ i = p.next ∧ a = b := by
  by_cases hi : i = p.next
  · rw [hi, get_alloc_self] at h
    exact .inr ⟨hi, Option.some.inj h⟩
  · rw [get_alloc_of_ne p a hi] at h
    exact .inl h

theorem get_put_cases {p : ObjectPool α} {i j : ℕ} {a b : α} {o : Option α}
    (hi : p.get i = some a) (h : (p.put i o).get j = some b) :
    j ≠ i ∧ p.get j = some b ∨ j = i ∧ o = some b := by
  rw [get_put (lt_next_of_get hi)] at h
  split_ifs at h with hj
  · exact .inr ⟨hj, h⟩
  · exact .inl ⟨hj, h⟩

theorem mem_slots_iff {p : ObjectPool α} {a : α} : some a ∈ p.slots ↔ ∃ i, p.get i = some a := by
  rw [List.mem_iff_getElem?]
  constructor
  · rintro ⟨i, hi⟩
    exact ⟨i, by simp [get, hi]⟩
  · rintro ⟨i, hi⟩
    exact ⟨i, Option.join_eq_some_iff.mp hi⟩

/-- Pools that have given out as many identifiers and agree on each of them. -/
theorem ext_get {p q : ObjectPool α} (hnext : p.next = q.next) (hget : ∀ i, p.get i = q.get i) :
    p = q := by
  obtain ⟨xs⟩ := p
  obtain ⟨ys⟩ := q
  congr 1
  apply List.ext_getElem hnext
  intro i hx hy
  have hi := hget i
  simpa [get, List.getElem?_eq_getElem hx, List.getElem?_eq_getElem hy] using hi

theorem rel_mono {R S : α → β → Prop} {o : Option α} {o' : Option β} (h : Option.Rel R o o')
    (hRS : ∀ a b, R a b → S a b) : Option.Rel S o o' := by
  cases h with
  | some hab => exact .some (hRS _ _ hab)
  | none => exact .none

/-- Pools that have given out as many identifiers, with related objects for each. -/
def Related (R : α → β → Prop) (p : ObjectPool α) (q : ObjectPool β) : Prop :=
  p.next = q.next ∧ ∀ i, Option.Rel R (p.get i) (q.get i)

namespace Related
variable {R S : α → β → Prop} {p : ObjectPool α} {q : ObjectPool β} {i : ℕ} {a : α} {b : β}

theorem empty : Related R (.empty : ObjectPool α) (.empty : ObjectPool β) :=
  ⟨rfl, fun _ => .none⟩

theorem mono (h : Related R p q) (hRS : ∀ a b, R a b → S a b) : Related S p q :=
  ⟨h.1, fun i => rel_mono (h.2 i) hRS⟩

theorem of_get (h : Related R p q) (hi : p.get i = some a) : ∃ b, q.get i = some b ∧ R a b := by
  have hrel := h.2 i
  rw [hi] at hrel
  cases hq : q.get i with
  | none =>
    rw [hq] at hrel
    cases hrel
  | some b =>
    rw [hq] at hrel
    cases hrel with
    | some hab => exact ⟨b, rfl, hab⟩

theorem alloc (h : Related R p q) (hab : R a b) : Related R (p.alloc a) (q.alloc b) := by
  refine ⟨by rw [next_alloc, next_alloc, h.1], fun i => ?_⟩
  by_cases hi : i = p.next
  · rw [hi, get_alloc_self, h.1, get_alloc_self]
    exact .some hab
  · rw [get_alloc_of_ne p a hi, get_alloc_of_ne q b (h.1 ▸ hi)]
    exact h.2 i

theorem put (h : Related R p q) (hi : i < p.next) {o : Option α} {o' : Option β}
    (ho : Option.Rel R o o') : Related R (p.put i o) (q.put i o') := by
  refine ⟨by rw [next_put, next_put, h.1], fun j => ?_⟩
  rw [get_put hi, get_put (h.1 ▸ hi)]
  split_ifs
  · exact ho
  · exact h.2 j

end Related

@[simp] theorem put_put (p : ObjectPool α) (i : ℕ) (o o' : Option α) :
    (p.put i o).put i o' = p.put i o' := by simp [put]

@[simp] theorem next_map (f : α → β) (p : ObjectPool α) : (p.map f).next = p.next := by
  simp [map, next]

@[simp] theorem map_empty (f : α → β) : (empty : ObjectPool α).map f = empty := rfl

@[simp] theorem map_alloc (f : α → β) (p : ObjectPool α) (a : α) :
    (p.alloc a).map f = (p.map f).alloc (f a) := by simp [map, alloc]

@[simp] theorem map_put (f : α → β) (p : ObjectPool α) (i : ℕ) (o : Option α) :
    (p.put i o).map f = (p.map f).put i (o.map f) := by simp [map, put, List.map_set]

@[simp] theorem get_map (f : α → β) (p : ObjectPool α) (i : ℕ) :
    (p.map f).get i = (p.get i).map f := by
  unfold get map
  rw [List.getElem?_map]
  cases p.slots[i]? <;> rfl

@[simp] theorem count_alloc (p : ObjectPool α) (q : α → Bool) (a : α) :
    (p.alloc a).count q = p.count q + weight q (some a) := by
  simp [count, alloc, weight]

/-- An update moves a count by the difference of the two slots. -/
theorem count_put {p : ObjectPool α} {i : ℕ} (h : i < p.next) (q : α → Bool) (o : Option α) :
    (p.put i o).count q + weight q (p.get i) = p.count q + weight q o := by
  have hlt : i < p.slots.length := h
  have hget : p.get i = p.slots[i] := by simp [get, List.getElem?_eq_getElem hlt]
  have hle : weight q p.slots[i] ≤ p.count q := by
    by_cases hq : p.slots[i].any q = true
    · have hpos : 0 < p.count q :=
        List.countP_pos_iff.mpr ⟨p.slots[i], List.getElem_mem hlt, hq⟩
      simp only [weight, hq, if_true]
      omega
    · simp [weight, hq]
  have hset := List.countP_set (p := fun o : Option α => o.any q) (a := o) hlt
  simp only [count, put, hget, weight] at *
  omega

theorem count_pos {p : ObjectPool α} {i : ℕ} {a : α} (h : p.get i = some a)
    {q : α → Bool} (hq : q a = true) : 0 < p.count q := by
  have hlt := lt_next_of_get h
  have hc := count_put hlt q none
  rw [h, weight_some, if_pos hq] at hc
  simp only [weight_none] at hc
  omega

/-- A positive count has a live object behind it. -/
theorem exists_of_count_pos {p : ObjectPool α} {q : α → Bool} (h : 0 < p.count q) :
    ∃ i a, p.get i = some a ∧ q a = true := by
  obtain ⟨o, ho, hq⟩ := List.countP_pos_iff.mp h
  obtain ⟨i, hi⟩ := List.mem_iff_getElem?.mp ho
  cases o with
  | none => simp at hq
  | some a => exact ⟨i, a, by simp [get, hi], by simpa using hq⟩

theorem count_eq_zero {p : ObjectPool α} {q : α → Bool}
    (h : ∀ i a, p.get i = some a → q a = false) : p.count q = 0 := by
  by_contra hne
  obtain ⟨i, a, hget, hq⟩ := exists_of_count_pos (Nat.pos_of_ne_zero hne)
  simp [h i a hget] at hq

/-- Two different objects with a property make its count at least two. -/
theorem two_le_count {p : ObjectPool α} {i j : ℕ} {a b : α} (hij : i ≠ j)
    (hi : p.get i = some a) (hj : p.get j = some b) {q : α → Bool}
    (ha : q a = true) (hb : q b = true) : 2 ≤ p.count q := by
  have hc := count_put (lt_next_of_get hi) q none
  have hj' : (p.put i none).get j = some b := by rw [get_put_of_ne p hij.symm, hj]
  have hpos := count_pos hj' hb
  rw [hi, weight_some, if_pos ha] at hc
  simp only [weight_none] at hc
  omega

end ObjectPool
end CpperoMQ
