import CpperoMQ.SendingSocket

/-!
# The trace of one send call

Which calls of `zmq_msg_send` a call of `SendingSocket::send` makes, with which
bytes and flags, and how it ends. Only the leaves of the arguments matter for
this: each is offered once, from left to right, up to the first that libzmq does
not take, and all but the last leaf of the whole call announce more.
-/
namespace CpperoMQ
open Effects Effects.Exec Libzmq.View World

/-- The calls of `zmq_msg_send` among all calls. -/
def Call.isSend : Call → Bool
  | .send _ _ _ _ _ => true
  | _ => false

/-- The `zmq_msg_send` for the part at an index of a message. -/
def attempt (h : Handle) (parts : List Bytes) (x : ℕ) (verdict : Verdict) : Call :=
  .send true h (parts.getD x []) (if x + 1 < parts.length then ZMQ_SNDMORE else 0) verdict

/-! ### Reading the trace off the frames -/

section Traces
variable {h : Handle} {parts : List Bytes}

theorem sends_sendCalls (h : Handle) (bytes : Bytes) (more : Bool) (verdict : Verdict) :
    (sendCalls h bytes more verdict).filter Call.isSend =
      [.send true h bytes (sendFlags more) verdict] := rfl

theorem sends_sentCalls (h : Handle) (fs : List (Frame Bytes)) :
    (sentCalls h fs).filter Call.isSend =
      fs.map fun f => .send true h f.part (sendFlags f.more) .ok := by
  induction fs with
  | nil => rfl
  | cons f fs ih =>
    have hcons : sentCalls h (f :: fs) = sendCalls h f.part f.more .ok ++ sentCalls h fs := rfl
    rw [hcons, List.filter_append, ih, sends_sendCalls, List.map_cons, List.singleton_append]

/-- The attempt at an index is the frame there, offered to libzmq. -/
theorem attempt_eq {x : ℕ} {bytes : Bytes} (hx : parts[x]? = some bytes) (verdict : Verdict) :
    attempt h parts x verdict =
      .send true h bytes (sendFlags (decide (x + 1 < parts.length))) verdict := by
  rw [attempt, List.getD_eq_getElem?_getD, hx, Option.getD_some, sendFlags]
  simp only [decide_eq_true_eq]

/-- The frames before an index, offered to libzmq. -/
theorem attempts_eq {n : ℕ} (hn : n ≤ parts.length) :
    ((Framing.message parts).take n).map
        (fun f => Call.send true h f.part (sendFlags f.more) .ok) =
      (List.range n).map (attempt h parts · .ok) := by
  apply List.ext_getElem?
  intro x
  by_cases hx : x < n
  · have hget : parts[x]? = some parts[x] := List.getElem?_eq_getElem (Nat.lt_of_lt_of_le hx hn)
    rw [List.getElem?_map, List.getElem?_take_of_lt hx, Framing.message_getElem?, hget,
      List.getElem?_map, List.getElem?_range hx]
    simp only [Option.map_some, attempt_eq hget]
  · rw [List.getElem?_eq_none, List.getElem?_eq_none] <;> simp <;> omega

end Traces

/-! ### Calls whose arguments follow the pattern -/

section Calls
variable {Z : Libzmq} {V : Z.View} {w : World Z} {h : Handle} {socket : Socket}
  {sendables : List Sendable}

/-- The plan of a call whose arguments never refuse is given by their leaves. -/
theorem SendingSocket.plan_eq (hpattern : PartTree.ForestAllLabels (· = none) sendables) :
    SendingSocket.plan sendables =
      ⟨Framing.frames false (PartTree.forestLeaves sendables), true⟩ := by
  have hcompletes := Sendable.plan_completes.2 sendables hpattern false
  have hframes := Sendable.plan_frames.2 sendables false none hcompletes
  rw [← hcompletes, ← hframes]
  rfl

/-- How the leaves are grouped into arguments and objects makes no difference. -/
theorem SendingSocket.send_eq_of_leaves {others : List Sendable}
    (hpattern : PartTree.ForestAllLabels (· = none) sendables)
    (hothers : PartTree.ForestAllLabels (· = none) others)
    (hleaves : PartTree.forestLeaves others = PartTree.forestLeaves sendables) :
    (SendingSocket.send socket others : Action Z Bool) =
      SendingSocket.send socket sendables := by
  rw [SendingSocket.send_eq_run, SendingSocket.send_eq_run, SendingSocket.plan_eq hothers,
    SendingSocket.plan_eq hpattern, hleaves]

/-- Between operations, every live message shows bytes. -/
theorem payloads_some (hw : Settled V w) {is : List ObjId}
    (hlive : ∀ i ∈ is, w.kind i = some .outgoing) :
    is.map w.payload = (w.payloads is).map some := by
  rw [World.payloads, List.map_map]
  apply List.map_congr_left
  intro i hi
  obtain ⟨p, hp⟩ := hw.payload (i := i) (by rw [hlive i hi]; rfl)
  simp [hp]

/-- One call with the leaves `parts`. It offers them to libzmq once each, from left
to right and with `ZMQ_SNDMORE` on all but the last, up to the first that is not
taken; if there is none the call returns true, and otherwise false on `EAGAIN` and
with an exception on any other error. A node among the arguments may as well be
replaced by its members. -/
theorem send_exact (hZ : V.Laws) (hs : socket.mSocket = some h) (hw : Settled V w)
    (hpattern : PartTree.ForestAllLabels (· = none) sendables)
    (hlive : ∀ i ∈ PartTree.forestLeaves sendables, w.kind i = some .outgoing) :
    (∃ w' parts made, (PartTree.forestLeaves sendables).map w.payload = parts.map some ∧
      w'.calls = w.calls ++ made ∧
      ((SendingSocket.send socket sendables w = (.returned true, w') ∧
          made.filter Call.isSend = (List.range parts.length).map (attempt h parts · .ok)) ∨
        ∃ j e, j < parts.length ∧
          SendingSocket.send socket sendables w =
            (if e = EAGAIN then .returned false else .threw ⟨e⟩, w') ∧
          made.filter Call.isSend =
            (List.range j).map (attempt h parts · .ok) ++ [attempt h parts j (.failed e)])) ∧
    ∀ before first rest after, sendables = before ++ .node none first rest :: after →
      (SendingSocket.send socket (before ++ first :: (rest ++ after)) : Action Z Bool) =
        SendingSocket.send socket sendables := by
  have hplan : w.framesOf (SendingSocket.plan sendables).frames =
      Framing.message (w.payloads (PartTree.forestLeaves sendables)) :=
    framesOf_plan (Sendable.plan_completes.2 sendables hpattern false)
  have hcompletes : (SendingSocket.plan sendables).completes = true := by
    rw [SendingSocket.plan_eq hpattern]
  constructor
  · rcases SendingSocket.send_spec hZ hs sendables hw hlive with
      ⟨w', hx, _, hc⟩ | ⟨w', before, f, after, e, hsplit, hx, _, _, hc⟩
    · refine ⟨w', _, _, payloads_some hw hlive, hc, .inl ⟨?_, ?_⟩⟩
      · rw [hx, hcompletes]
      · rw [sends_sentCalls, hplan, ← attempts_eq (Nat.le_refl _), List.take_of_length_le]
        rw [Framing.message_length]
    · rw [hplan] at hsplit
      obtain ⟨hlt, hbefore, hpart, hmore⟩ := Framing.message_split hsplit
      refine ⟨w', _, _, payloads_some hw hlive, hc, .inr ⟨before.length, e, hlt, hx, ?_⟩⟩
      rw [List.filter_append, sends_sentCalls, sends_sendCalls, attempt_eq hpart, hmore,
        ← attempts_eq (Nat.le_of_lt hlt), ← hbefore]
  · rintro before first rest after rfl
    obtain ⟨hbefore, ⟨_, hfirst, hrest⟩, hafter⟩ := PartTree.forestAllLabels_append.mp hpattern
    apply SendingSocket.send_eq_of_leaves hpattern
    · exact PartTree.forestAllLabels_append.mpr
        ⟨hbefore, hfirst, PartTree.forestAllLabels_append.mpr ⟨hrest, hafter⟩⟩
    · simp [PartTree.forestLeaves_append, PartTree.leaves]

end Calls

namespace Loopback

/-- Two objects to send. -/
def outgoingPair (script : List ℤ) : World (loopback true) :=
  (messageMachine (loopback true)).run (World.initial (State.start script))
    [.newData [1], .newData [2]]

end Loopback

/-- The second part is refused with `EAGAIN`: both were offered, and the call returns
false. -/
theorem send_exact_refused :
    ∃ w' made, SendingSocket.send ⟨some 0⟩ [.node none (.leaf 0) [.leaf 1]]
        (Loopback.outgoingPair [0, EAGAIN]) = (.returned false, w') ∧
      w'.calls = (Loopback.outgoingPair [0, EAGAIN]).calls ++ made ∧
      made.filter Call.isSend = [attempt 0 [[1], [2]] 0 .ok,
        attempt 0 [[1], [2]] 1 (.failed EAGAIN)] := by
  have hs : (⟨some 0⟩ : Socket).mSocket = some 0 := rfl
  have hw : Settled (Loopback.view true) (Loopback.outgoingPair [0, EAGAIN]) :=
    settled_run Loopback.laws (settled_initial (Loopback.initial [0, EAGAIN]))
      ⟨trivial, trivial, trivial⟩
  have hrefused : (SendingSocket.send ⟨some 0⟩ [.node none (.leaf 0) [.leaf 1]]
      (Loopback.outgoingPair [0, EAGAIN])).1 = .returned false := by
    decide +kernel
  have hsends : ((SendingSocket.send ⟨some 0⟩ [.node none (.leaf 0) [.leaf 1]]
      (Loopback.outgoingPair [0, EAGAIN])).2.calls.filter Call.isSend).length = 2 := by
    decide +kernel
  have hpattern : PartTree.ForestAllLabels (· = none)
      ([.node none (.leaf 0) [.leaf 1]] : List Sendable) :=
    ⟨⟨rfl, trivial, trivial, trivial⟩, trivial⟩
  obtain ⟨⟨w', parts, made, hparts, hc, ⟨hx, _⟩ | ⟨j, e, _, hx, hmade⟩⟩, _⟩ :=
    send_exact Loopback.laws hs hw hpattern (Loopback.outgoing_pair rfl rfl)
  · rw [hx] at hrefused
    cases hrefused
  · obtain rfl : [[1], [2]] = parts :=
      List.map_injective_iff.mpr (Option.some_injective Bytes) hparts
    obtain rfl : e = EAGAIN := by
      rw [hx] at hrefused
      by_contra he
      rw [if_neg he] at hrefused
      cases hrefused
    obtain rfl : j = 1 := by
      have hbefore : (Loopback.outgoingPair [0, EAGAIN]).calls.filter Call.isSend = [] := by
        decide +kernel
      rw [hx, hc, List.filter_append, hbefore, hmade] at hsends
      simpa using hsends
    exact ⟨w', made, hx, hc, hmade⟩

end CpperoMQ
