import CpperoMQ.Runs
import Mathlib.Data.Multiset.AddSub
import Mathlib.Data.Multiset.Count

/-!
# Bags under insertions and removals

A bag changes by insertions of one element and by removals of one occurrence; a
removal of what is not there does nothing. An occurrence that was inserted is
either in the bag or was removed, so an element is in the bag as long as it was
inserted more often than removals of it had an effect.
-/
namespace CpperoMQ

inductive BagChange (α : Type*) where
  | insert (a : α)
  | remove (a : α)
  deriving Repr, DecidableEq

namespace BagChange
variable {α : Type*} [DecidableEq α]

def apply (bag : Multiset α) : BagChange α → Multiset α
  | insert a => a ::ₘ bag
  | remove a => bag.erase a

def machine : Machine (Multiset α) (BagChange α) where
  step := apply
  Allowed _ _ := True

/-- How often the element is inserted. -/
def inserted (a : α) (changes : List (BagChange α)) : ℕ := changes.count (insert a)

/-- How often the element is removed while it is in the bag. -/
def removed (a : α) : Multiset α → List (BagChange α) → ℕ
  | _, [] => 0
  | bag, c :: changes =>
    (if c = remove a ∧ a ∈ bag then 1 else 0) + removed a (c.apply bag) changes

@[simp] theorem inserted_nil (a : α) : inserted a [] = 0 := rfl

theorem inserted_cons (a : α) (c : BagChange α) (changes : List (BagChange α)) :
    inserted a (c :: changes) = inserted a changes + if c = insert a then 1 else 0 := by
  simp [inserted, List.count_cons]

/-- One change moves the count of an element up or down by what it does to it. -/
theorem count_apply (a : α) (bag : Multiset α) (c : BagChange α) :
    (c.apply bag).count a + (if c = remove a ∧ a ∈ bag then 1 else 0) =
      bag.count a + if c = insert a then 1 else 0 := by
  cases c with
  | insert b =>
    by_cases hb : b = a
    · subst hb
      simp [apply]
    · simp [apply, hb, Ne.symm hb]
  | remove b =>
    by_cases hb : b = a
    · subst hb
      by_cases hmem : b ∈ bag
      · have hpos : 0 < bag.count b := Multiset.count_pos.mpr hmem
        simp [apply, hmem]
        omega
      · simp [apply, hmem, Multiset.erase_of_notMem]
    · simp [apply, hb, Multiset.count_erase_of_ne (Ne.symm hb)]

theorem count_run (a : α) (bag : Multiset α) (changes : List (BagChange α)) :
    (machine.run bag changes).count a + removed a bag changes =
      bag.count a + inserted a changes := by
  induction changes generalizing bag with
  | nil => rfl
  | cons c changes ih =>
    have hstep := count_apply a bag c
    have hrun := ih (c.apply bag)
    rw [Machine.run_cons, inserted_cons, removed]
    change (machine.run (c.apply bag) changes).count a + _ = _
    omega

/-- Starting from nothing, an element is in the bag if it was inserted more often
than it was removed. -/
theorem mem_run_iff (a : α) (changes : List (BagChange α)) :
    a ∈ machine.run 0 changes ↔ removed a 0 changes < inserted a changes := by
  have hcount := count_run a 0 changes
  rw [Multiset.count_zero] at hcount
  rw [← Multiset.count_pos]
  omega

end BagChange
end CpperoMQ
