import Mathlib.Tactic.Common

/-!
# Runs of operations

A machine takes operations one after the other. What a caller has to ensure
before an operation, such as the objects named being alive, is `Allowed`; a
sequence is admissible if every operation is allowed where it is made. The
rules below turn a fact about one step into a fact about every run.
-/
namespace CpperoMQ

structure Machine (σ ι : Type*) where
  step : σ → ι → σ
  Allowed : σ → ι → Prop

namespace Machine
variable {σ τ ι κ : Type*} (M : Machine σ ι)

def run (s : σ) (ops : List ι) : σ := ops.foldl M.step s

/-- Every operation is allowed in the state it is made in. -/
def Admissible : σ → List ι → Prop
  | _, [] => True
  | s, op :: ops => M.Allowed s op ∧ Admissible (M.step s op) ops

/-- The same machine where every operation also has to meet a condition. -/
def restrict (C : σ → ι → Prop) : Machine σ ι := ⟨M.step, fun s op => M.Allowed s op ∧ C s op⟩

/-- The steps of a run are explained one by one, each in the state it starts in. -/
def Explained (E : σ → ι → κ → Prop) : σ → List ι → List κ → Prop
  | _, [], [] => True
  | s, op :: ops, e :: es => E s op e ∧ Explained E (M.step s op) ops es
  | _, _, _ => False

/-- What the operations of a run yield, one after the other. -/
def collect (f : σ → ι → List κ) : σ → List ι → List κ
  | _, [] => []
  | s, op :: ops => f s op ++ collect f (M.step s op) ops

/-- The same machine, taking some operations at a time. -/
def batch : Machine σ (List ι) := ⟨M.run, M.Admissible⟩

@[simp] theorem run_nil (s : σ) : M.run s [] = s := rfl

@[simp] theorem run_cons (s : σ) (op : ι) (ops : List ι) :
    M.run s (op :: ops) = M.run (M.step s op) ops := rfl

theorem run_append (s : σ) (ops ops' : List ι) :
    M.run s (ops ++ ops') = M.run (M.run s ops) ops' := List.foldl_append

theorem admissible_append {s : σ} {ops ops' : List ι} :
    M.Admissible s (ops ++ ops') ↔ M.Admissible s ops ∧ M.Admissible (M.run s ops) ops' := by
  induction ops generalizing s with
  | nil => simp [Admissible]
  | cons op ops ih => simp [Admissible, ih, and_assoc]

variable {M}

/-- What every allowed operation of a kind `P` preserves, every run of such
operations preserves. -/
theorem run_preserves {I : σ → Prop} {P : ι → Prop}
    (hstep : ∀ s op, I s → M.Allowed s op → P op → I (M.step s op)) {s : σ} {ops : List ι}
    (hs : I s) (hops : M.Admissible s ops) (hP : ∀ op ∈ ops, P op) : I (M.run s ops) := by
  induction ops generalizing s with
  | nil => exact hs
  | cons op ops ih =>
    exact ih (hstep s op hs hops.1 (hP op (by simp))) hops.2 fun x hx => hP x (by simp [hx])

theorem run_invariant {I : σ → Prop}
    (hstep : ∀ s op, I s → M.Allowed s op → I (M.step s op)) {s : σ} {ops : List ι}
    (hs : I s) (hops : M.Admissible s ops) : I (M.run s ops) :=
  run_preserves (P := fun _ => True) (fun s op hs hop _ => hstep s op hs hop) hs hops
    fun _ _ => trivial

/-- Where the steps that break `P` are exactly those that miss a condition, a run
has `P` all along if and only if all its steps meet the condition. -/
theorem always_iff_restrict {I P : σ → Prop} {C : σ → ι → Prop} (hP : ∀ s, I s → P s)
    (hstep : ∀ s op, I s → M.Allowed s op → C s op → I (M.step s op))
    (hbreak : ∀ s op, I s → M.Allowed s op → ¬C s op → ¬P (M.step s op))
    {s : σ} {ops : List ι} (hs : I s) (hops : M.Admissible s ops) :
    (∀ pre, pre <+: ops → P (M.run s pre)) ↔ (M.restrict C).Admissible s ops := by
  induction ops generalizing s with
  | nil =>
    constructor
    · exact fun _ => trivial
    · intro _ pre hpre
      rw [List.prefix_nil.mp hpre]
      exact hP s hs
  | cons op ops ih =>
    constructor
    · intro hall
      have hC : C s op := by
        by_contra hC
        exact hbreak s op hs hops.1 hC (hall [op] ⟨ops, rfl⟩)
      refine ⟨⟨hops.1, hC⟩, (ih (hstep s op hs hops.1 hC) hops.2).mp ?_⟩
      intro pre hpre
      exact hall (op :: pre) (List.cons_prefix_cons.mpr ⟨rfl, hpre⟩)
    · intro hmeets pre hpre
      cases pre with
      | nil => exact hP s hs
      | cons op' pre =>
        obtain ⟨rfl, hpre'⟩ := List.cons_prefix_cons.mp hpre
        exact (ih (hstep s _ hs hops.1 hmeets.1.2) hops.2).mpr hmeets.2 pre hpre'

/-- Two conditions that come to the same where an invariant holds, restrict runs alike. -/
theorem restrict_congr {I : σ → Prop} {C D : σ → ι → Prop}
    (hCD : ∀ s op, I s → M.Allowed s op → (C s op ↔ D s op))
    (hstep : ∀ s op, I s → M.Allowed s op → D s op → I (M.step s op))
    {s : σ} (hs : I s) (ops : List ι) :
    (M.restrict C).Admissible s ops ↔ (M.restrict D).Admissible s ops := by
  induction ops generalizing s with
  | nil => exact Iff.rfl
  | cons op ops ih =>
    constructor
    · rintro ⟨⟨hop, hC⟩, hops⟩
      have hD := (hCD s op hs hop).mp hC
      exact ⟨⟨hop, hD⟩, (ih (hstep s op hs hop hD)).mp hops⟩
    · rintro ⟨⟨hop, hD⟩, hops⟩
      exact ⟨⟨hop, (hCD s op hs hop).mpr hD⟩, (ih (hstep s op hs hop hD)).mpr hops⟩

/-- Two machines that stay related step by step stay related over runs. -/
theorem run_simulates {N : Machine τ ι} {R : σ → τ → Prop}
    (hstep : ∀ s t op, R s t → M.Allowed s op → R (M.step s op) (N.step t op))
    {s : σ} {t : τ} {ops : List ι} (hs : R s t) (hops : M.Admissible s ops) :
    R (M.run s ops) (N.run t ops) := by
  induction ops generalizing s t with
  | nil => exact hs
  | cons op ops ih => exact ih (hstep s t op hs hops.1) hops.2

/-- Where every allowed step is explained by an allowed step of another machine,
every run is explained by a run of that machine. -/
theorem run_explained {N : Machine τ κ} {R : σ → τ → Prop} {E : σ → ι → κ → Prop}
    (hstep : ∀ s t op, R s t → M.Allowed s op →
      ∃ e, E s op e ∧ N.Allowed t e ∧ R (M.step s op) (N.step t e))
    {s : σ} {t : τ} {ops : List ι} (hs : R s t) (hops : M.Admissible s ops) :
    ∃ es, M.Explained E s ops es ∧ N.Admissible t es ∧ R (M.run s ops) (N.run t es) := by
  induction ops generalizing s t with
  | nil => exact ⟨[], trivial, trivial, hs⟩
  | cons op ops ih =>
    obtain ⟨e, he, hallowed, hR⟩ := hstep s t op hs hops.1
    obtain ⟨es, hes, hadm, hrun⟩ := ih hR hops.2
    exact ⟨e :: es, ⟨he, hes⟩, ⟨hallowed, hadm⟩, hrun⟩

end Machine
end CpperoMQ
