import CpperoMQ.MessageRuns
import CpperoMQ.Sendables

/-!
# Runs of send calls on one socket

A call of `SendingSocket::send` hands its frames to libzmq one by one and stops
at the first that is not taken. What was taken stays in the socket. So the
messages that become complete are those of the successful calls as long as no
call is cut short after its first frame; otherwise the frames left behind become
part of a later message.
-/
namespace CpperoMQ
open Effects Effects.Exec Libzmq.View World

section Calls
variable {Z : Libzmq} {V : Z.View} {w w' w'' : World Z} {h : Handle}

/-- Whole messages added to what is due to the peer. -/
def deliverAll (V : Z.View) (h : Handle) (incoming : Handle → List (Frame Bytes))
    (messages : List (List Bytes)) : Handle → List (Frame Bytes) :=
  messages.foldl (fun incoming parts => V.deliver incoming h parts) incoming

/-- From `w` to `w'`, libzmq accepted exactly these frames on the socket, and
every object reads as before. -/
structure Handed (V : Z.View) (h : Handle) (fs : List (Frame Bytes)) (w w' : World Z) :
    Prop where
  settled : Settled V w'
  keeps : Keeps (fun _ => False) w w'
  accepted : V.accepted w'.zmq =
    Function.update (V.accepted w.zmq) h (V.accepted w.zmq h ++ fs)
  incoming : V.incoming w'.zmq = deliverAll V h (V.incoming w.zmq)
    (Framing.assemble (Framing.openParts (V.accepted w.zmq h)) fs).1
  midMessage : V.midMessage w'.zmq = V.midMessage w.zmq

theorem Handed.nil (hw : Settled V w) (hw' : Consistent V w') (hk : Keeps (fun _ => False) w w')
    (hf : SameFrames V w w') : Handed V h [] w w' := by
  refine ⟨hw.of_keeps hk hw' fun j hj => hj.elim, hk, ?_, hf.incoming, hf.midMessage⟩
  rw [hf.accepted, List.append_nil, Function.update_eq_self]

theorem Handed.refl (hw : Settled V w) : Handed V h [] w w :=
  Handed.nil hw hw.consistent ⟨fun _ _ => rfl, fun _ _ => rfl⟩ (SameFrames.refl w)

theorem Handed.trans {fs gs : List (Frame Bytes)} (h₁ : Handed V h fs w w')
    (h₂ : Handed V h gs w' w'') : Handed V h (fs ++ gs) w w'' := by
  refine ⟨h₂.settled, h₁.keeps.trans h₂.keeps, ?_, ?_, h₂.midMessage.trans h₁.midMessage⟩
  · rw [h₂.accepted, h₁.accepted, Function.update_self, Function.update_idem, List.append_assoc]
  · rw [h₂.incoming, h₁.incoming, h₁.accepted, Function.update_self, Framing.openParts_append,
      Framing.assemble_append]
    unfold deliverAll
    rw [List.foldl_append]

theorem handed_of_sent (hw : Settled V w) {bytes : Bytes} {more : Bool} (hw' : Consistent V w')
    (hk : Keeps (fun _ => False) w w') (hs : Sent V h bytes more w w') :
    Handed V h [⟨bytes, more⟩] w w' := by
  refine ⟨hw.of_keeps hk hw' fun j hj => hj.elim, hk, hs.accepted, ?_, hs.midMessage⟩
  rw [hs.incoming]
  cases more <;> rfl

theorem failure_ne_true (e : ℤ) : failure false e ≠ .returned true := by
  unfold failure
  split_ifs <;> simp

/-- The bytes the objects named by some frames show. -/
def World.framesOf (w : World Z) (fs : List (Frame ObjId)) : List (Frame Bytes) :=
  fs.map fun f => ⟨(w.payload f.part).getD [], f.more⟩

/-- The libzmq calls of frames that were all accepted. -/
def sentCalls (h : Handle) (fs : List (Frame Bytes)) : List Call :=
  fs.flatMap fun f => sendCalls h f.part f.more .ok

theorem framesOf_congr (hk : Keeps (fun _ => False) w w') (fs : List (Frame ObjId)) :
    w'.framesOf fs = w.framesOf fs := by
  unfold World.framesOf
  apply List.map_congr_left
  intro f _
  rw [hk.payloads f.part id]

/-- One message of a call. -/
theorem OutgoingMessage.send_handed (hZ : V.Laws) (hw : Settled V w) {i : ObjId}
    (hi : w.kind i = some .outgoing) {socket : Socket} (hs : socket.mSocket = some h)
    (more : Bool) :
    ∃ bytes, w.payload i = some bytes ∧
      ((∃ w', OutgoingMessage.send i socket more w = (.returned true, w') ∧
        Handed V h [⟨bytes, more⟩] w w' ∧ 0 ≤ OutgoingMessage.sendCode i socket more w ∧
        w'.calls = w.calls ++ sendCalls h bytes more .ok) ∨
      ∃ w' e, OutgoingMessage.send i socket more w = (failure false e, w') ∧
        Handed V h [] w w' ∧ ¬0 ≤ OutgoingMessage.sendCode i socket more w ∧
        w'.calls = w.calls ++ sendCalls h bytes more (.failed e)) := by
  obtain ⟨bytes, hp⟩ := hw.payload (i := i) (by rw [hi]; rfl)
  refine ⟨bytes, hp, ?_⟩
  rcases OutgoingMessage.send_spec hZ hw.consistent hp hs more with
    ⟨w', hsend, hw', hk, hsent, hcode, hc⟩ | ⟨w', e, hsend, hw', hk, hf, hcode, hc⟩
  · exact Or.inl ⟨w', hsend, handed_of_sent hw hw' hk hsent, hcode, hc⟩
  · exact Or.inr ⟨w', e, hsend, Handed.nil hw hw' hk hf, hcode, hc⟩

/-- Whether `zmq_msg_send` takes the frames when they are offered one after the other,
up to the first that it does not take. -/
def Plan.answers (socket : Socket) : List (Frame ObjId) → World Z → List Bool
  | [], _ => []
  | f :: fs, w =>
    if 0 ≤ OutgoingMessage.sendCode f.part socket f.more w then
      true :: Plan.answers socket fs (OutgoingMessage.send f.part socket f.more w).2
    else [false]

theorem Plan.answers_of_taken {socket : Socket} {f : Frame ObjId} {r : Outcome Error Bool}
    (hsend : OutgoingMessage.send f.part socket f.more w = (r, w'))
    (hcode : 0 ≤ OutgoingMessage.sendCode f.part socket f.more w) (fs : List (Frame ObjId)) :
    Plan.answers socket (f :: fs) w = true :: Plan.answers socket fs w' := by
  rw [Plan.answers, if_pos hcode, hsend]

theorem Plan.answers_of_refused {socket : Socket} {f : Frame ObjId}
    (hcode : ¬0 ≤ OutgoingMessage.sendCode f.part socket f.more w) (fs : List (Frame ObjId)) :
    Plan.answers socket (f :: fs) w = [false] := by
  rw [Plan.answers, if_neg hcode]

/-- All frames are accepted, or those before the first that is not. -/
theorem Plan.sendFrames_spec (hZ : V.Laws) {socket : Socket} (hs : socket.mSocket = some h)
    (fs : List (Frame ObjId)) (hw : Settled V w)
    (hlive : ∀ f ∈ fs, w.kind f.part = some .outgoing) :
    (∃ w', Plan.sendFrames socket fs w = (.returned true, w') ∧
      Handed V h (w.framesOf fs) w w' ∧
      w'.calls = w.calls ++ sentCalls h (w.framesOf fs)) ∨
    ∃ w' before f after e, w.framesOf fs = before ++ f :: after ∧
      Plan.sendFrames socket fs w = (failure false e, w') ∧ Handed V h before w w' ∧
      false ∈ Plan.answers socket fs w ∧
      w'.calls = w.calls ++ (sentCalls h before ++ sendCalls h f.part f.more (.failed e)) := by
  induction fs generalizing w with
  | nil => exact Or.inl ⟨w, rfl, Handed.refl hw, by simp [sentCalls, World.framesOf]⟩
  | cons f fs ih =>
    obtain ⟨bytes, hp, hcases⟩ := OutgoingMessage.send_handed hZ hw (hlive f (by simp)) hs f.more
    have hframes : w.framesOf (f :: fs) = ⟨bytes, f.more⟩ :: w.framesOf fs := by
      rw [World.framesOf, List.map_cons, hp]
      rfl
    rcases hcases with ⟨w₁, hsend, hh₁, hcode, hc₁⟩ | ⟨w₁, e, hsend, hh₁, hcode, hc₁⟩
    · have hlive₁ : ∀ g ∈ fs, w₁.kind g.part = some .outgoing := by
        intro g hg
        rw [hh₁.keeps.kinds g.part id]
        exact hlive g (by simp [hg])
      have hrest : Plan.sendFrames socket (f :: fs) w = Plan.sendFrames socket fs w₁ := by
        rw [Plan.sendFrames, andThen_of_true hsend]
      have hfs := framesOf_congr hh₁.keeps fs
      rcases ih hh₁.settled hlive₁ with
        ⟨w₂, hx, hh₂, hc₂⟩ | ⟨w₂, before, g, after, e, hsplit, hx, hh₂, hrefused, hc₂⟩
      · rw [hfs] at hh₂ hc₂
        refine Or.inl ⟨w₂, hrest.trans hx, ?_, ?_⟩
        · rw [hframes]
          exact hh₁.trans hh₂
        · rw [hframes, hc₂, hc₁, List.append_assoc]
          rfl
      · rw [hfs] at hsplit
        refine Or.inr ⟨w₂, ⟨bytes, f.more⟩ :: before, g, after, e, ?_, hrest.trans hx,
          hh₁.trans hh₂, ?_, ?_⟩
        · rw [hframes, hsplit]
          rfl
        · rw [Plan.answers_of_taken hsend hcode]
          exact List.mem_cons_of_mem true hrefused
        · rw [hc₂, hc₁, List.append_assoc]
          simp [sentCalls]
    · refine Or.inr ⟨w₁, [], ⟨bytes, f.more⟩, w.framesOf fs, e, hframes, ?_, hh₁, ?_, ?_⟩
      · exact andThen_of_not_true hsend (failure_ne_true e) _
      · rw [Plan.answers_of_refused hcode]
        exact List.mem_singleton.mpr rfl
      · simpa [sentCalls] using hc₁

theorem framesOf_plan {sendables : List Sendable}
    (hc : (SendingSocket.plan sendables).completes = true) :
    w.framesOf (SendingSocket.plan sendables).frames =
      Framing.message (w.payloads (PartTree.forestLeaves sendables)) := by
  rw [SendingSocket.plan, Sendable.plan_frames.2 _ _ _ hc, Framing.message, World.payloads,
    Framing.frames_map]
  rfl

/-- A call with its arguments, from any state between operations. -/
theorem SendingSocket.send_spec (hZ : V.Laws) {socket : Socket} (hs : socket.mSocket = some h)
    (sendables : List Sendable) (hw : Settled V w)
    (hlive : ∀ i ∈ PartTree.forestLeaves sendables, w.kind i = some .outgoing) :
    (∃ w', SendingSocket.send socket sendables w =
        (.returned (SendingSocket.plan sendables).completes, w') ∧
      Handed V h (w.framesOf (SendingSocket.plan sendables).frames) w w' ∧
      w'.calls = w.calls ++ sentCalls h (w.framesOf (SendingSocket.plan sendables).frames)) ∨
    ∃ w' before f after e,
      w.framesOf (SendingSocket.plan sendables).frames = before ++ f :: after ∧
      SendingSocket.send socket sendables w = (failure false e, w') ∧ Handed V h before w w' ∧
      false ∈ Plan.answers socket (SendingSocket.plan sendables).frames w ∧
      w'.calls = w.calls ++ (sentCalls h before ++ sendCalls h f.part f.more (.failed e)) := by
  have hparts : ∀ f ∈ (SendingSocket.plan sendables).frames, w.kind f.part = some .outgoing :=
    fun f hf => hlive f.part (Sendable.plan_parts.2 sendables false none f hf)
  rw [SendingSocket.send_eq_run]
  rcases Plan.sendFrames_spec hZ hs _ hw hparts with
    ⟨w', hx, hh, hc⟩ | ⟨w', before, f, after, e, hsplit, hx, hh, hrefused, hc⟩
  · refine Or.inl ⟨w', ?_, hh, hc⟩
    rw [Plan.run, andThen_of_true hx, pure_apply]
  · refine Or.inr ⟨w', before, f, after, e, hsplit, ?_, hh, hrefused, hc⟩
    exact andThen_of_not_true hx (failure_ne_true e) _

end Calls

/-! ### Calls that are not cut short -/

section Atomicity
variable {Z : Libzmq} {V : Z.View} {w w' : World Z} {h : Handle} {socket : Socket}

/-- Offered to `zmq_msg_send` one after the other, either the first frame of the call is
not taken, or all of them are and no argument refuses on its own account. -/
def AllOrNothing (socket : Socket) (sendables : List Sendable) (w : World Z) : Prop :=
  true ∈ Plan.answers socket (SendingSocket.plan sendables).frames w →
    false ∉ Plan.answers socket (SendingSocket.plan sendables).frames w ∧
      (SendingSocket.plan sendables).completes = true

/-- A call whose frames are all taken hands over one whole message. -/
theorem send_of_taken (hZ : V.Laws) (hs : socket.mSocket = some h) {sendables : List Sendable}
    (hw : Settled V w) (hlive : ∀ i ∈ PartTree.forestLeaves sendables, w.kind i = some .outgoing)
    (hcomp : (SendingSocket.plan sendables).completes = true)
    (hnone : false ∉ Plan.answers socket (SendingSocket.plan sendables).frames w) :
    ∃ w', SendingSocket.send socket sendables w = (.returned true, w') ∧
      Handed V h (Framing.message (w.payloads (PartTree.forestLeaves sendables))) w w' := by
  rcases SendingSocket.send_spec hZ hs sendables hw hlive with
    ⟨w', hx, hh, _⟩ | ⟨_, _, _, _, _, _, _, _, hrefused, _⟩
  · rw [framesOf_plan hcomp] at hh
    rw [hcomp] at hx
    exact ⟨w', hx, hh⟩
  · exact absurd hrefused hnone

/-- A call whose first frame is not taken leaves the socket as it was. -/
theorem send_of_refused (hZ : V.Laws) (hs : socket.mSocket = some h)
    {sendables : List Sendable} (hw : Settled V w)
    (hlive : ∀ i ∈ PartTree.forestLeaves sendables, w.kind i = some .outgoing)
    (hnone : true ∉ Plan.answers socket (SendingSocket.plan sendables).frames w) :
    (∃ w', SendingSocket.send socket sendables w =
        (.returned (SendingSocket.plan sendables).completes, w') ∧
      (SendingSocket.plan sendables).frames = [] ∧ Handed V h [] w w') ∨
    ∃ w' r, SendingSocket.send socket sendables w = (r, w') ∧ r ≠ .returned true ∧
      Handed V h [] w w' := by
  have hparts : ∀ f ∈ (SendingSocket.plan sendables).frames, w.kind f.part = some .outgoing :=
    fun f hf => hlive f.part (Sendable.plan_parts.2 sendables false none f hf)
  rw [SendingSocket.send_eq_run, Plan.run]
  cases hframes : (SendingSocket.plan sendables).frames with
  | nil => exact Or.inl ⟨w, rfl, rfl, Handed.refl hw⟩
  | cons f fs =>
    rw [hframes] at hnone hparts
    obtain ⟨bytes, _, ⟨w', hsend, _, hcode, _⟩ | ⟨w', e, hsend, hh, _⟩⟩ :=
      OutgoingMessage.send_handed hZ hw (hparts f (by simp)) hs f.more
    · rw [Plan.answers_of_taken hsend hcode] at hnone
      exact absurd (List.mem_cons_self ..) hnone
    · refine Or.inr ⟨w', _, ?_, failure_ne_true e, hh⟩
      rw [Plan.sendFrames, andThen_assoc, andThen_of_not_true hsend (failure_ne_true e)]

theorem send_all_or_nothing (hZ : V.Laws) (hs : socket.mSocket = some h)
    {sendables : List Sendable} (hw : Settled V w)
    (hlive : ∀ i ∈ PartTree.forestLeaves sendables, w.kind i = some .outgoing)
    (hall : AllOrNothing socket sendables w) :
    (∃ w', SendingSocket.send socket sendables w = (.returned true, w') ∧
      Handed V h (Framing.message (w.payloads (PartTree.forestLeaves sendables))) w w') ∨
    ∃ w' r, SendingSocket.send socket sendables w = (r, w') ∧ r ≠ .returned true ∧
      Handed V h [] w w' := by
  by_cases htaken : true ∈ Plan.answers socket (SendingSocket.plan sendables).frames w
  · obtain ⟨hnone, hcomp⟩ := hall htaken
    exact Or.inl (send_of_taken hZ hs hw hlive hcomp hnone)
  · rcases send_of_refused hZ hs hw hlive htaken with
      ⟨w', hx, hframes, hh⟩ | hrefused
    · by_cases hcomp : (SendingSocket.plan sendables).completes = true
      · have hmessage := framesOf_plan (w := w) hcomp
        rw [hframes] at hmessage
        rw [hcomp] at hx
        refine Or.inl ⟨w', hx, ?_⟩
        rw [← hmessage]
        exact hh
      · refine Or.inr ⟨w', _, hx, fun hret => ?_, hh⟩
        injection hret with hret
        exact hcomp hret
    · exact Or.inr hrefused

/-- A run of calls on one socket, with other operations on messages in between. -/
inductive SendStep where
  | call (sendables : List Sendable)
  | other (op : MessageOp)

/-- The socket a single message is sent on. -/
def MessageOp.sendsOn : MessageOp → Option Handle
  | .send _ socket _ => socket.mSocket
  | _ => none

/-- The state of such a run, with the payloads of the calls that returned true. -/
structure SendRun (Z : Libzmq) where
  world : World Z
  delivered : List (List Bytes)

def SendRun.step (socket : Socket) (s : SendRun Z) : SendStep → SendRun Z
  | .call sendables =>
    match SendingSocket.send socket sendables s.world with
    | (.returned true, w) =>
      ⟨w, s.delivered ++ [s.world.payloads (PartTree.forestLeaves sendables)]⟩
    | (_, w) => ⟨w, s.delivered⟩
  | .other op => ⟨(op.perform s.world).2, s.delivered⟩

def SendRun.Allowed (socket : Socket) (s : SendRun Z) : SendStep → Prop
  | .call sendables => sendables ≠ [] ∧
    ∀ i ∈ PartTree.forestLeaves sendables, s.world.kind i = some .outgoing
  | .other op => op.Allowed s.world ∧ ∀ g, op.sendsOn = some g → socket.mSocket ≠ some g

def sendMachine (Z : Libzmq) (socket : Socket) : Machine (SendRun Z) SendStep where
  step := SendRun.step socket
  Allowed := SendRun.Allowed socket

/-- No call of the run is cut short after its first frame. -/
def NotCutShort (socket : Socket) (s : SendRun Z) : SendStep → Prop
  | .call sendables => AllOrNothing socket sendables s.world
  | .other _ => True

/-- Operations that do not send on a socket leave what it has accepted. -/
theorem accepted_of_other (hZ : V.Laws) (hw : Settled V w) {op : MessageOp} (hop : op.Allowed w)
    (hh : ∀ g, op.sendsOn = some g → g ≠ h) :
    V.accepted (op.perform w).2.zmq h = V.accepted w.zmq h := by
  have hf := (step_spec hZ hw hop).frames
  cases op with
  | send this sock more =>
    rcases hf with ⟨_, hsame⟩ | ⟨g, bytes, hg, _, ⟨hsent, _⟩ | ⟨e, hsame, _⟩⟩
    · rw [hsame]
    · rw [hsent.accepted, Function.update_of_ne (hh g hg).symm]
    · rw [hsame.accepted]
  | receive this sock =>
    rcases hf with hsame | ⟨g, frame, _, hrcv, _⟩
    · rw [hsame.accepted]
    · rw [hrcv.accepted]
  | transport n => rw [hf.2.1]
  | _ => rw [World.SameFrames.accepted hf]

/-- What the socket has accepted is exactly the messages of the successful calls. -/
structure SendRun.Clean (V : Z.View) (h : Handle) (s : SendRun Z) : Prop where
  settled : Settled V s.world
  nonempty : ∀ m ∈ s.delivered, m ≠ []
  accepted : V.accepted s.world.zmq h = Framing.stream s.delivered

theorem clean_step (hZ : V.Laws) (hs : socket.mSocket = some h) (s : SendRun Z) (step : SendStep)
    (hclean : s.Clean V h) (hstep : SendRun.Allowed socket s step)
    (hcut : NotCutShort socket s step) : (SendRun.step socket s step).Clean V h := by
  cases step with
  | call sendables =>
    rcases send_all_or_nothing hZ hs hclean.settled hstep.2 hcut with
      ⟨w', hx, hh⟩ | ⟨w', r, hx, hr, hh⟩
    · have hrun : SendRun.step socket s (.call sendables) =
          ⟨w', s.delivered ++ [s.world.payloads (PartTree.forestLeaves sendables)]⟩ := by
        simp only [SendRun.step, hx]
      rw [hrun]
      refine ⟨hh.settled, fun m hm => ?_, ?_⟩
      · rcases List.mem_append.mp hm with hm | hm
        · exact hclean.nonempty m hm
        · rw [List.mem_singleton.mp hm]
          intro hnil
          exact hstep.1 (PartTree.forestLeaves_eq_nil.mp (List.map_eq_nil_iff.mp hnil))
      · show V.accepted w'.zmq h = _
        rw [hh.accepted, Function.update_self, hclean.accepted, Framing.stream_append,
          Framing.stream_cons, Framing.stream_nil, List.append_nil]
    · have hrun : SendRun.step socket s (.call sendables) = ⟨w', s.delivered⟩ := by
        cases r with
        | returned ok =>
          cases ok with
          | true => exact absurd rfl hr
          | false => simp only [SendRun.step, hx]
        | threw e => simp only [SendRun.step, hx]
        | aborted => simp only [SendRun.step, hx]
      rw [hrun]
      refine ⟨hh.settled, hclean.nonempty, ?_⟩
      show V.accepted w'.zmq h = _
      rw [hh.accepted, Function.update_self, List.append_nil, hclean.accepted]
  | other op =>
    refine ⟨(step_spec hZ hclean.settled hstep.1).settled, hclean.nonempty, ?_⟩
    show V.accepted (op.perform s.world).2.zmq h = _
    rw [accepted_of_other hZ hclean.settled hstep.1, hclean.accepted]
    · rfl
    · intro g hg hgh
      exact hstep.2 g hg (hgh ▸ hs)

/-- On a fresh socket, as long as no call is cut short after its first frame, the
complete messages accepted are those of the calls that returned true. -/
theorem sends_are_atomic (hZ : V.Laws) (hs : socket.mSocket = some h) (hw : Settled V w)
    (hfresh : V.accepted w.zmq h = []) {steps : List SendStep}
    (hsteps : ((sendMachine Z socket).restrict (NotCutShort socket)).Admissible ⟨w, []⟩ steps) :
    Framing.completed (V.accepted ((sendMachine Z socket).run ⟨w, []⟩ steps).world.zmq h) =
      ((sendMachine Z socket).run ⟨w, []⟩ steps).delivered := by
  have hclean : ((sendMachine Z socket).run ⟨w, []⟩ steps).Clean V h := by
    apply Machine.run_invariant (M := (sendMachine Z socket).restrict (NotCutShort socket))
      (I := fun s => SendRun.Clean V h s) ?_ ⟨hw, by simp, hfresh⟩ hsteps
    intro s step hclean hstep
    exact clean_step hZ hs s step hclean hstep.1 hstep.2
  rw [hclean.accepted, Framing.completed, Framing.assemble_stream hclean.nonempty]

end Atomicity

namespace Loopback

/-- Two parts are built and sent in one call, which is then repeated. -/
def retry : List SendStep :=
  [.other (.newData [1]), .other (.newData [2]), .call [.leaf 0, .leaf 1],
    .call [.leaf 0, .leaf 1]]

/-- The run of `retry` on a fresh socket, with these outcomes of the transfers. -/
def retryEnd (script : List ℤ) : SendRun (loopback true) :=
  (sendMachine (loopback true) ⟨some 0⟩).run ⟨World.initial (State.start script), []⟩ retry

theorem outgoing_pair {w : World (loopback true)} (h₀ : w.kind 0 = some .outgoing)
    (h₁ : w.kind 1 = some .outgoing) :
    ∀ i ∈ PartTree.forestLeaves ([.leaf 0, .leaf 1] : List Sendable),
      w.kind i = some .outgoing := by
  intro i hi
  have hi' : i ∈ [0, 1] := hi
  rcases List.mem_pair.mp hi' with rfl | rfl
  · exact h₀
  · exact h₁

end Loopback

/-- Refused at once, then accepted: one copy is delivered. -/
theorem sends_are_atomic_retry :
    Framing.completed
        ((Loopback.view true).accepted (Loopback.retryEnd [EAGAIN, 0, 0]).world.zmq 0) =
      (Loopback.retryEnd [EAGAIN, 0, 0]).delivered := by
  have hs : (⟨some 0⟩ : Socket).mSocket = some 0 := rfl
  apply sends_are_atomic Loopback.laws hs
    (settled_initial (Loopback.initial [EAGAIN, 0, 0])) rfl
  refine ⟨⟨⟨trivial, fun g hg => by cases hg⟩, trivial⟩,
    ⟨⟨trivial, fun g hg => by cases hg⟩, trivial⟩,
    ⟨⟨by simp, Loopback.outgoing_pair rfl rfl⟩, ?_⟩,
    ⟨⟨by simp, Loopback.outgoing_pair rfl rfl⟩, ?_⟩, trivial⟩
  · intro hok
    exact absurd hok (by decide +kernel)
  · intro _
    exact ⟨by decide +kernel, rfl⟩

/-- A call cut short after its first part, then repeated: the copy left in the
socket becomes the first part of the message that the second call completes. -/
theorem sends_not_atomic :
    (sendMachine (Loopback.loopback true) ⟨some 0⟩).Admissible
        ⟨World.initial (Loopback.State.start [0, EAGAIN]), []⟩ Loopback.retry ∧
      (Loopback.retryEnd [0, EAGAIN]).delivered = [[[1], [2]]] ∧
      Framing.completed
          ((Loopback.view true).accepted (Loopback.retryEnd [0, EAGAIN]).world.zmq 0) =
        [[[1], [1], [2]]] := by
  refine ⟨⟨⟨trivial, fun g hg => by cases hg⟩, ⟨trivial, fun g hg => by cases hg⟩,
    ⟨by simp, Loopback.outgoing_pair rfl rfl⟩, ⟨by simp, Loopback.outgoing_pair rfl rfl⟩,
    trivial⟩, ?_, ?_⟩
  · decide +kernel
  · decide +kernel

end CpperoMQ
