import CpperoMQ.SendTrace

/-!
# Classes that implement `Sendable`

`Sendable` is an interface too. What the `send` of a class hands over may differ with
`moreToSend`, and so may the flags it passes on. Its objects can be put among the
arguments of any call exactly if it announces more with every frame but, where nothing
is to follow, the last: then every call that returns true sends one whole message.
-/
namespace CpperoMQ
open Effects Effects.Exec Libzmq.View World

/-- What the `send` of a class does, given `moreToSend`. It returns false where a
message of its own is not taken. -/
abbrev Sender := Bool → Plan

namespace Sender

/-- What composing asks of a class, where its `send` can return true. -/
structure Follows (s : Sender) : Prop where
  announces : (s true).completes = true → ∀ f ∈ (s true).frames, f.more = true
  ends : (s false).completes = true →
    ∃ parts, parts ≠ [] ∧ (s false).frames = Framing.message parts

/-- What a call does with its arguments. -/
def planAll : List Sender → Plan
  | [] => .done
  | s :: ss => (s (decide (ss.length > 0))).append (planAll ss)

/-- Among arguments that follow the contract, what a call hands over if it returns true
is one whole message. -/
def Composes (s : Sender) : Prop :=
  ∀ before after : List Sender, (∀ t ∈ before ++ after, t.Follows) →
    (planAll (before ++ s :: after)).completes = true →
    ∃ parts, parts ≠ [] ∧ (planAll (before ++ s :: after)).frames = Framing.message parts

/-- An `OutgoingMessage`. -/
def message (i : ObjId) : Sender := fun more => ⟨[⟨i, more⟩], true⟩

theorem message_follows (i : ObjId) : (message i).Follows := by
  constructor
  case announces =>
    intro _ f hf
    rw [List.mem_singleton.mp hf]
  case ends => exact fun _ => ⟨[i], List.cons_ne_nil _ _, rfl⟩

/-- Frames that all announce more and a whole message after them are a whole message. -/
theorem message_of_announced {fs : List (Frame ObjId)} (hfs : ∀ f ∈ fs, f.more = true)
    {parts : List ObjId} (hparts : parts ≠ []) :
    fs ++ Framing.message parts = Framing.message (fs.map Frame.part ++ parts) := by
  induction fs with
  | nil => rfl
  | cons f fs ih =>
    have hne : fs.map Frame.part ++ parts ≠ [] := by simp [hparts]
    have hf : f = ⟨f.part, true⟩ := by rw [← hfs f (List.mem_cons_self ..)]
    rw [List.cons_append, ih fun g hg => hfs g (List.mem_cons_of_mem _ hg), List.map_cons,
      List.cons_append, Framing.message, Framing.message, Framing.frames_cons false f.part hne,
      ← hf]

/-- All frames of a message but the last announce more. -/
theorem announced_of_message {fs : List (Frame ObjId)} {g : Frame ObjId} {parts : List ObjId}
    (hmessage : fs ++ [g] = Framing.message parts) : ∀ f ∈ fs, f.more = true := by
  intro f hf
  obtain ⟨before, after, rfl⟩ := List.append_of_mem hf
  have hsplit : Framing.message parts = before ++ f :: (after ++ [g]) := by
    rw [← hmessage, List.append_assoc, List.cons_append]
  obtain ⟨_, _, _, hmore⟩ := Framing.message_split hsplit
  have hlength := congrArg List.length hsplit
  simp only [Framing.message_length, List.length_append, List.length_cons, List.length_nil]
    at hlength
  rw [hmore, decide_eq_true_iff]
  omega

/-- Arguments that follow the contract hand over one whole message if all of it is to
be sent. -/
theorem planAll_message {ss : List Sender} (hss : ss ≠ []) (hfollow : ∀ s ∈ ss, s.Follows)
    (hc : (planAll ss).completes = true) :
    ∃ parts, parts ≠ [] ∧ (planAll ss).frames = Framing.message parts := by
  induction ss with
  | nil => exact absurd rfl hss
  | cons s ss ih =>
    obtain ⟨hs, hrest, hframes⟩ := Plan.completes_append hc
    have hfirst := hfollow s (List.mem_cons_self ..)
    rw [planAll, hframes]
    cases ss with
    | nil =>
      obtain ⟨parts, hparts, hends⟩ := hfirst.ends hs
      refine ⟨parts, hparts, ?_⟩
      change (s false).frames ++ [] = _
      rw [List.append_nil, hends]
    | cons s' ss =>
      obtain ⟨parts, hparts, hmessage⟩ := ih (List.cons_ne_nil _ _)
        (fun t ht => hfollow t (List.mem_cons_of_mem _ ht)) hrest
      rw [hmessage]
      refine ⟨_, ?_, message_of_announced (hfirst.announces hs) hparts⟩
      simp [hparts]

/-- The objects of a class can be put among any arguments that follow the contract if
and only if they follow it too. -/
theorem follows_iff_composes (s : Sender) : s.Follows ↔ s.Composes := by
  constructor
  · intro hs before after hothers hc
    refine planAll_message (by simp) ?_ hc
    rw [List.forall_mem_append] at hothers
    rw [List.forall_mem_append, List.forall_mem_cons]
    exact ⟨hothers.1, hs, hothers.2⟩
  · intro hall
    constructor
    case announces =>
      intro hc
      have hplan : planAll [s, message 0] = ⟨(s true).frames ++ [⟨0, false⟩], true⟩ := by
        simp [planAll, Plan.append, hc, message, Plan.done]
      have hothers : ∀ t ∈ ([] : List Sender) ++ [message 0], t.Follows := by
        intro t ht
        rw [List.mem_singleton.mp ht]
        exact message_follows 0
      obtain ⟨parts, _, hmessage⟩ := hall [] [message 0] hothers (by rw [List.nil_append, hplan])
      rw [List.nil_append, hplan] at hmessage
      exact announced_of_message hmessage
    case ends =>
      intro hc
      have hplan : planAll [s] = ⟨(s false).frames, true⟩ := by
        simp [planAll, Plan.append, hc, Plan.done]
      obtain ⟨parts, hparts, hmessage⟩ := hall [] [] (by simp) (by rw [List.nil_append, hplan])
      rw [List.nil_append, hplan] at hmessage
      exact ⟨parts, hparts, hmessage⟩

/-- The `send` of a tree. -/
def ofTree (t : Sendable) : Sender := fun more => Sendable.plan more t

/-- The pattern meets the contract. -/
theorem follows_ofTree (t : Sendable) : (ofTree t).Follows := by
  constructor
  case announces =>
    intro hc f hf
    rw [ofTree, Sendable.plan_frames.1 t true hc, Framing.frames_true] at hf
    obtain ⟨_, _, rfl⟩ := List.mem_map.mp hf
    rfl
  case ends => exact fun hc => ⟨t.leaves, t.leaves_ne_nil, Sendable.plan_frames.1 t false hc⟩

end Sender

/-! ### In the code -/

section Calls
variable {Z : Libzmq} {V : Z.View} {w : World Z} {h : Handle} {socket : Socket}

/-- The `send` of the class. -/
def Sender.send (socket : Socket) (moreToSend : Bool) (s : Sender) : Action Z Bool :=
  (s moreToSend).run socket

/-- `SendingSocket::send`: `moreToSend` is true while parameters are left. -/
def SendingSocket.sendEach (socket : Socket) : List Sender → Action Z Bool
  | [] => pure true
  | sendable :: sendables =>
    (Sender.send socket (decide (sendables.length > 0)) sendable).andThen
      (SendingSocket.sendEach socket sendables)

theorem SendingSocket.sendEach_eq_run (socket : Socket) (ss : List Sender) :
    (SendingSocket.sendEach socket ss : Action Z Bool) = (Sender.planAll ss).run socket := by
  induction ss with
  | nil => rfl
  | cons s ss ih => rw [sendEach, ih, Sender.send, Sender.planAll, Plan.run_append]

/-- A tree is sent as it is as a class. -/
theorem SendingSocket.sendEach_ofTree (socket : Socket) (ts : List Sendable) :
    (SendingSocket.sendEach socket (ts.map Sender.ofTree) : Action Z Bool) =
      SendingSocket.send socket ts := by
  induction ts with
  | nil => rfl
  | cons t ts ih =>
    rw [List.map_cons, sendEach, send, ih, List.length_map, (Sendable.send_eq_run socket).1]
    rfl

/-- Objects of a class compose if and only if the class announces more with all its
frames but, where nothing is to follow it, its last, as trees do. A call of the code
with any arguments that returns true has handed over just what they come to together. -/
theorem sendables_compose_iff (hZ : V.Laws) (hs : socket.mSocket = some h) (s : Sender) :
    (s.Follows ↔ s.Composes) ∧
    (∀ ts : List Sendable, (∀ t ∈ ts, (Sender.ofTree t).Follows) ∧
      (SendingSocket.sendEach socket (ts.map Sender.ofTree) : Action Z Bool) =
        SendingSocket.send socket ts) ∧
    ∀ (ss : List Sender) (w : World Z), Settled V w →
      (∀ f ∈ (Sender.planAll ss).frames, w.kind f.part = some .outgoing) →
      (∃ w', SendingSocket.sendEach socket ss w =
          (.returned (Sender.planAll ss).completes, w') ∧
        Handed V h (w.framesOf (Sender.planAll ss).frames) w w') ∨
      ∃ w' before f after e, w.framesOf (Sender.planAll ss).frames = before ++ f :: after ∧
        SendingSocket.sendEach socket ss w =
          (if e = EAGAIN then .returned false else .threw ⟨e⟩, w') ∧ Handed V h before w w' := by
  refine ⟨Sender.follows_iff_composes s, fun ts => ?_, fun ss w hw hlive => ?_⟩
  · exact ⟨fun t _ => Sender.follows_ofTree t, SendingSocket.sendEach_ofTree socket ts⟩
  · rw [SendingSocket.sendEach_eq_run]
    rcases Plan.sendFrames_spec hZ hs _ hw hlive with
      ⟨w', hx, hh, _⟩ | ⟨w', before, f, after, e, hsplit, hx, hh, _⟩
    · refine .inl ⟨w', ?_, hh⟩
      rw [Plan.run, andThen_of_true hx, pure_apply]
    · refine .inr ⟨w', before, f, after, e, hsplit, ?_, hh⟩
      exact andThen_of_not_true hx (failure_ne_true e) _

end Calls

namespace Sender

/-- Two messages, the second of which always ends the message. -/
def ending : Sender := fun _ => ⟨[⟨0, true⟩, ⟨1, false⟩], true⟩

theorem ending_not_follows : ¬ending.Follows := by
  intro hh
  have hmore := hh.announces rfl ⟨1, false⟩ (by simp [ending])
  cases hmore

end Sender

/-- An object of two messages composes and is sent as one message; one that ends the
message itself does not compose. -/
theorem sendables_compose_iff_ending :
    (Sender.ofTree (.node none (.leaf 0) [.leaf 1])).Composes ∧ ¬Sender.ending.Composes ∧
      ∃ w', SendingSocket.sendEach ⟨some 0⟩ [Sender.ofTree (.node none (.leaf 0) [.leaf 1])]
          (Loopback.outgoingPair [0, 0]) = (.returned true, w') ∧
        (Loopback.view true).accepted w'.zmq 0 = [⟨[1], true⟩, ⟨[2], false⟩] := by
  have hs : (⟨some 0⟩ : Socket).mSocket = some 0 := rfl
  have hw : Settled (Loopback.view true) (Loopback.outgoingPair [0, 0]) :=
    settled_run Loopback.laws (settled_initial (Loopback.initial [0, 0]))
      ⟨trivial, trivial, trivial⟩
  have htaken : (SendingSocket.sendEach ⟨some 0⟩
      [Sender.ofTree (.node none (.leaf 0) [.leaf 1])] (Loopback.outgoingPair [0, 0])).1 =
      .returned true := by
    decide +kernel
  refine ⟨?_, fun hh => ?_, ?_⟩
  · exact (sendables_compose_iff (V := Loopback.view true) Loopback.laws hs _).1.mp
      (Sender.follows_ofTree _)
  · apply Sender.ending_not_follows
    exact (sendables_compose_iff (V := Loopback.view true) Loopback.laws hs _).1.mpr hh
  · rcases (sendables_compose_iff Loopback.laws hs Sender.ending).2.2
        [Sender.ofTree (.node none (.leaf 0) [.leaf 1])] (Loopback.outgoingPair [0, 0]) hw
        (by decide +kernel) with
      ⟨w', hx, hh⟩ | ⟨w', before, f, after, e, _, hx, _⟩
    · exact ⟨w', hx, by rw [hh.accepted, Function.update_self]; decide +kernel⟩
    · rw [hx] at htaken
      exact absurd htaken (failure_ne_true e)

end CpperoMQ
