import CpperoMQ.Message
import CpperoMQ.PartTree

/-!
# Sendable objects and the frames they hand over

A `Sendable` is an `OutgoingMessage` or an object that sends its members one
after the other, passing `moreToSend = true` to all but the last. The arguments
of one `SendingSocket::send` are chained in the same way. What such a call is to
do is a plan: a flat sequence of flagged frames. The code carries out its plan.
-/
namespace CpperoMQ
open Effects Effects.Exec

/-- A composite whose node carries `some k` refuses on its own account after its
first `k` members: its `send` returns false there. -/
abbrev Sendable := PartTree (Option ℕ) ObjId

section Source
variable {Z : Libzmq}

mutual

/-- `Sendable::send` -/
def Sendable.send (socket : Socket) (moreToSend : Bool) : Sendable → Action Z Bool
  | .leaf message => OutgoingMessage.send message socket moreToSend
  | .node refuse first rest =>
    if refuse = some 0 then pure false
    else (Sendable.send socket (!rest.isEmpty || moreToSend) first).andThen
      (Sendable.sendRest socket moreToSend (refuse.map (· - 1)) rest)

/-- The members that are left, with the number of them sent before a refusal. -/
def Sendable.sendRest (socket : Socket) (moreToSend : Bool) :
    Option ℕ → List Sendable → Action Z Bool
  | refuse, [] => if refuse = some 0 then pure false else pure true
  | refuse, member :: rest =>
    if refuse = some 0 then pure false
    else (Sendable.send socket (!rest.isEmpty || moreToSend) member).andThen
      (Sendable.sendRest socket moreToSend (refuse.map (· - 1)) rest)

end

/-- `SendingSocket::send`: `moreToSend` is true while parameters are left. -/
def SendingSocket.send (socket : Socket) : List Sendable → Action Z Bool
  | [] => pure true
  | sendable :: sendables =>
    (Sendable.send socket (decide (sendables.length > 0)) sendable).andThen
      (SendingSocket.send socket sendables)

end Source

/-- Frames to hand over in order, and whether all is sent once they are taken. -/
structure Plan where
  frames : List (Frame ObjId)
  completes : Bool
  deriving Repr, DecidableEq

namespace Plan
variable {Z : Libzmq}

/-- What has been handed over so far is left as it is. -/
def stop : Plan := ⟨[], false⟩

def done : Plan := ⟨[], true⟩

def append (p q : Plan) : Plan :=
  if p.completes then ⟨p.frames ++ q.frames, q.completes⟩ else p

/-- Hand over frames until one is not taken. -/
def sendFrames (socket : Socket) : List (Frame ObjId) → Action Z Bool
  | [] => pure true
  | f :: fs => (OutgoingMessage.send f.part socket f.more).andThen (sendFrames socket fs)

def run (socket : Socket) (p : Plan) : Action Z Bool :=
  (sendFrames socket p.frames).andThen (pure p.completes)

theorem sendFrames_append (socket : Socket) (xs ys : List (Frame ObjId)) :
    (sendFrames socket (xs ++ ys) : Action Z Bool) =
      (sendFrames socket xs).andThen (sendFrames socket ys) := by
  induction xs with
  | nil => rfl
  | cons x xs ih => rw [List.cons_append, sendFrames, sendFrames, ih, andThen_assoc]

/-- Running two plans in a row is running their concatenation. -/
theorem run_append (socket : Socket) (p q : Plan) :
    (run socket (p.append q) : Action Z Bool) = (run socket p).andThen (run socket q) := by
  obtain ⟨fs, completes⟩ := p
  cases completes with
  | true =>
    show (sendFrames socket (fs ++ q.frames)).andThen (pure q.completes) =
      ((sendFrames socket fs).andThen (pure true)).andThen (run socket q)
    rw [sendFrames_append, andThen_true, andThen_assoc]
    rfl
  | false =>
    show (sendFrames socket fs).andThen (pure false) =
      ((sendFrames socket fs).andThen (pure false)).andThen (run socket q)
    rw [andThen_assoc, false_andThen]

theorem completes_append {p q : Plan} (h : (p.append q).completes = true) :
    p.completes = true ∧ q.completes = true ∧ (p.append q).frames = p.frames ++ q.frames := by
  unfold append at h ⊢
  split_ifs at h ⊢ with hp
  · exact ⟨hp, h, rfl⟩
  · exact absurd h hp

theorem append_completes {p q : Plan} (hp : p.completes = true) (hq : q.completes = true) :
    (p.append q).completes = true := by
  unfold append
  rw [if_pos hp]
  exact hq

theorem mem_append {p q : Plan} {f : Frame ObjId} (h : f ∈ (p.append q).frames) :
    f ∈ p.frames ∨ f ∈ q.frames := by
  unfold append at h
  split_ifs at h with hp
  · exact List.mem_append.mp h
  · exact Or.inl h

end Plan

mutual

/-- The plan of a tree under a more-flag. -/
def Sendable.plan (moreToSend : Bool) : Sendable → Plan
  | .leaf message => ⟨[⟨message, moreToSend⟩], true⟩
  | .node refuse first rest =>
    if refuse = some 0 then .stop
    else (Sendable.plan (!rest.isEmpty || moreToSend) first).append
      (Sendable.planRest moreToSend (refuse.map (· - 1)) rest)

def Sendable.planRest (moreToSend : Bool) : Option ℕ → List Sendable → Plan
  | refuse, [] => if refuse = some 0 then .stop else .done
  | refuse, member :: rest =>
    if refuse = some 0 then .stop
    else (Sendable.plan (!rest.isEmpty || moreToSend) member).append
      (Sendable.planRest moreToSend (refuse.map (· - 1)) rest)

end

/-- The plan of one call with its arguments. -/
def SendingSocket.plan (sendables : List Sendable) : Plan :=
  Sendable.planRest false none sendables

section Plans
variable {Z : Libzmq}

theorem Sendable.send_eq_run (socket : Socket) :
    (∀ (t : Sendable) (more : Bool),
      (Sendable.send socket more t : Action Z Bool) = (Sendable.plan more t).run socket) ∧
    ∀ (ts : List Sendable) (more : Bool) (refuse : Option ℕ),
      (Sendable.sendRest socket more refuse ts : Action Z Bool) =
        (Sendable.planRest more refuse ts).run socket := by
  apply PartTree.induction_both
  case leaf =>
    intro message more
    show OutgoingMessage.send message socket more =
      ((OutgoingMessage.send message socket more).andThen (pure true)).andThen (pure true)
    rw [andThen_true, andThen_true]
  case node =>
    intro refuse first rest ihFirst ihRest more
    unfold Sendable.send Sendable.plan
    split_ifs with h
    · rfl
    · rw [ihFirst, ihRest, Plan.run_append]
  case nil =>
    intro more refuse
    unfold Sendable.sendRest Sendable.planRest
    split_ifs with h <;> rfl
  case cons =>
    intro member rest ihMember ihRest more refuse
    unfold Sendable.sendRest Sendable.planRest
    split_ifs with h
    · rfl
    · rw [ihMember, ihRest, Plan.run_append]

theorem SendingSocket.send_eq_rest (socket : Socket) (sendables : List Sendable) :
    (SendingSocket.send socket sendables : Action Z Bool) =
      Sendable.sendRest socket false none sendables := by
  induction sendables with
  | nil => rfl
  | cons t ts ih =>
    have hmore : decide (ts.length > 0) = (!ts.isEmpty || false) := by cases ts <;> rfl
    rw [SendingSocket.send, ih, hmore]
    rfl

/-- A call carries out its plan: nesting and argument count do not matter. -/
theorem SendingSocket.send_eq_run (socket : Socket) (sendables : List Sendable) :
    (SendingSocket.send socket sendables : Action Z Bool) =
      (SendingSocket.plan sendables).run socket := by
  rw [SendingSocket.send_eq_rest]
  exact (Sendable.send_eq_run socket).2 sendables false none

end Plans

/-- The frames of a tree and of the trees after it join up. -/
theorem frames_join (more : Bool) (xs : List ObjId) (rest : List Sendable) :
    Framing.frames (!rest.isEmpty || more) xs ++
        Framing.frames more (PartTree.forestLeaves rest) =
      Framing.frames more (xs ++ PartTree.forestLeaves rest) := by
  cases rest with
  | nil => simp
  | cons t ts =>
    have hne : PartTree.forestLeaves (t :: ts) ≠ [] := by
      rw [Ne, PartTree.forestLeaves_eq_nil]
      exact List.cons_ne_nil t ts
    rw [Framing.frames_append more xs hne]
    rfl

/-- A plan that completes hands over all leaves, flagged as one group of parts. -/
theorem Sendable.plan_frames :
    (∀ (t : Sendable) (more : Bool), (Sendable.plan more t).completes = true →
      (Sendable.plan more t).frames = Framing.frames more t.leaves) ∧
    ∀ (ts : List Sendable) (more : Bool) (refuse : Option ℕ),
      (Sendable.planRest more refuse ts).completes = true →
        (Sendable.planRest more refuse ts).frames =
          Framing.frames more (PartTree.forestLeaves ts) := by
  apply PartTree.induction_both
  case leaf =>
    intro message more _
    rfl
  case node =>
    intro refuse first rest ihFirst ihRest more h
    unfold Sendable.plan at h ⊢
    split_ifs at h ⊢ with hr
    · cases h
    · obtain ⟨hfirst, hrest, hframes⟩ := Plan.completes_append h
      rw [hframes, ihFirst _ hfirst, ihRest _ _ hrest, frames_join, PartTree.leaves]
  case nil =>
    intro more refuse h
    unfold Sendable.planRest at h ⊢
    split_ifs at h ⊢ with hr
    · cases h
    · rfl
  case cons =>
    intro member rest ihMember ihRest more refuse h
    unfold Sendable.planRest at h ⊢
    split_ifs at h ⊢ with hr
    · cases h
    · obtain ⟨hmember, hrest, hframes⟩ := Plan.completes_append h
      rw [hframes, ihMember _ hmember, ihRest _ _ hrest, frames_join, PartTree.forestLeaves_cons]

theorem Sendable.plan_parts :
    (∀ (t : Sendable) (more : Bool), ∀ f ∈ (Sendable.plan more t).frames, f.part ∈ t.leaves) ∧
    ∀ (ts : List Sendable) (more : Bool) (refuse : Option ℕ),
      ∀ f ∈ (Sendable.planRest more refuse ts).frames, f.part ∈ PartTree.forestLeaves ts := by
  apply PartTree.induction_both
  case leaf =>
    intro message more f hf
    rw [List.mem_singleton.mp hf]
    exact List.mem_singleton.mpr rfl
  case node =>
    intro refuse first rest ihFirst ihRest more f hf
    unfold Sendable.plan at hf
    split_ifs at hf with hr
    · cases hf
    · rw [PartTree.leaves, List.mem_append]
      exact (Plan.mem_append hf).imp (ihFirst _ f) (ihRest _ _ f)
  case nil =>
    intro more refuse f hf
    unfold Sendable.planRest at hf
    split_ifs at hf <;> cases hf
  case cons =>
    intro member rest ihMember ihRest more refuse f hf
    unfold Sendable.planRest at hf
    split_ifs at hf with hr
    · cases hf
    · rw [PartTree.forestLeaves_cons, List.mem_append]
      exact (Plan.mem_append hf).imp (ihMember _ f) (ihRest _ _ f)

/-- Without a refusal the plan completes. -/
theorem Sendable.plan_completes :
    (∀ t : Sendable, t.AllLabels (· = none) →
      ∀ more : Bool, (Sendable.plan more t).completes = true) ∧
    ∀ ts : List Sendable, PartTree.ForestAllLabels (· = none) ts →
      ∀ more : Bool, (Sendable.planRest more none ts).completes = true := by
  apply PartTree.induction_both
  case leaf =>
    intro message _ more
    rfl
  case node =>
    intro refuse first rest ihFirst ihRest h more
    obtain ⟨rfl, hfirst, hrest⟩ := h
    exact Plan.append_completes (ihFirst hfirst _) (ihRest hrest _)
  case nil =>
    intro _ more
    rfl
  case cons =>
    intro member rest ihMember ihRest h more
    exact Plan.append_completes (ihMember h.1 _) (ihRest h.2 _)

end CpperoMQ
