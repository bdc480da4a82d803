import Mathlib.Tactic.Common

/-!
# Composite objects as ordered trees

A composite is a leaf or a node over a nonempty sequence of composites, so a
composite without leaves cannot be built. Forests are lists of composites.
Properties of trees and forests are proved together, since a node holds a
forest.
-/
namespace CpperoMQ

/-- An ordered tree with labels `ν` on the nodes and `α` on the leaves. -/
inductive PartTree (ν α : Type) where
  | leaf (a : α)
  | node (v : ν) (first : PartTree ν α) (rest : List (PartTree ν α))

namespace PartTree
variable {ν α : Type}

mutual

/-- The leaves from left to right. -/
def leaves : PartTree ν α → List α
  | .leaf a => [a]
  | .node _ first rest => leaves first ++ forestLeaves rest

def forestLeaves : List (PartTree ν α) → List α
  | [] => []
  | t :: ts => leaves t ++ forestLeaves ts

end

mutual

/-- Every node label of the tree satisfies `p`. -/
def AllLabels (p : ν → Prop) : PartTree ν α → Prop
  | .leaf _ => True
  | .node v first rest => p v ∧ AllLabels p first ∧ ForestAllLabels p rest

def ForestAllLabels (p : ν → Prop) : List (PartTree ν α) → Prop
  | [] => True
  | t :: ts => AllLabels p t ∧ ForestAllLabels p ts

end

@[simp] theorem forestLeaves_nil : forestLeaves ([] : List (PartTree ν α)) = [] := rfl

@[simp] theorem forestLeaves_cons (t : PartTree ν α) (ts : List (PartTree ν α)) :
    forestLeaves (t :: ts) = t.leaves ++ forestLeaves ts := rfl

/-- Composites are never empty. -/
theorem leaves_ne_nil : ∀ t : PartTree ν α, t.leaves ≠ []
  | .leaf a => by simp [leaves]
  | .node _ first _ => by simp [leaves, leaves_ne_nil first]

theorem forestLeaves_eq_nil {ts : List (PartTree ν α)} : forestLeaves ts = [] ↔ ts = [] := by
  cases ts with
  | nil => simp
  | cons t ts => simp [leaves_ne_nil t]

theorem forestLeaves_append (ts us : List (PartTree ν α)) :
    forestLeaves (ts ++ us) = forestLeaves ts ++ forestLeaves us := by
  induction ts with
  | nil => rfl
  | cons t ts ih => rw [List.cons_append, forestLeaves_cons, forestLeaves_cons, ih,
      List.append_assoc]

theorem forestAllLabels_append {p : ν → Prop} {ts us : List (PartTree ν α)} :
    ForestAllLabels p (ts ++ us) ↔ ForestAllLabels p ts ∧ ForestAllLabels p us := by
  induction ts with
  | nil => simp [ForestAllLabels]
  | cons t ts ih => simp [ForestAllLabels, ih, and_assoc]

/-- Induction on trees and forests at once. -/
theorem induction_both {P : PartTree ν α → Prop} {Q : List (PartTree ν α) → Prop}
    (leaf : ∀ a, P (.leaf a))
    (node : ∀ v first rest, P first → Q rest → P (.node v first rest))
    (nil : Q []) (cons : ∀ t ts, P t → Q ts → Q (t :: ts)) :
    (∀ t, P t) ∧ (∀ ts, Q ts) :=
  ⟨fun t => PartTree.rec leaf node nil cons t, fun ts => PartTree.rec_1 leaf node nil cons ts⟩

end PartTree
end CpperoMQ
