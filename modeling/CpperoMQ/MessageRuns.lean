import CpperoMQ.MessageObjects
import CpperoMQ.Runs
import CpperoMQ.Loopback

/-!
# Runs over a pool of messages

Any number of outgoing and incoming messages are created, moved, swapped, sent,
received into and destroyed in any order, with every outcome libzmq may give.
Two facts hold along all such runs: references are accounted for, and an object
reads differently only through an operation on that object.
-/
namespace CpperoMQ
open Effects Effects.Exec Libzmq.View World

/-- One operation on the pool. A moved object passes its class on to the new one. -/
inductive MessageOp where
  | newOutgoing
  | newData (sourceData : Bytes)
  | newCString (sourceData : Bytes)
  | newIncoming
  | newMove (other : ObjId)
  | assignMove (this other : ObjId)
  | swap (lhs rhs : ObjId)
  | send (this : ObjId) (socket : Socket) (moreToSend : Bool)
  | receive (this : ObjId) (socket : Socket)
  | destroy (this : ObjId)
  | transport (n : ℕ)
  deriving Repr, DecidableEq

namespace MessageOp
variable {Z : Libzmq}

def perform (w : World Z) : MessageOp → Outcome Error Unit × World Z
  | .newOutgoing => Exec.discard OutgoingMessage.new w
  | .newData sourceData => Exec.discard (OutgoingMessage.newData sourceData) w
  | .newCString sourceData => Exec.discard (OutgoingMessage.newCString sourceData) w
  | .newIncoming => Exec.discard IncomingMessage.new w
  | .newMove other =>
    match w.kind other with
    | some .outgoing => Exec.discard (OutgoingMessage.newMove other) w
    | some .incoming => Exec.discard (IncomingMessage.newMove other) w
    | none => (.returned (), w)
  | .assignMove this other => Message.assignMove this other w
  | .swap lhs rhs => Message.swap lhs rhs w
  | .send this socket moreToSend => Exec.discard (OutgoingMessage.send this socket moreToSend) w
  | .receive this socket => Exec.discard (IncomingMessage.receive this socket) w
  | .destroy this => Message.destroy this w
  | .transport n => (.returned (), { w with zmq := Z.transport n w.zmq })

/-- The objects named are alive and of the class that has the operation. -/
def Allowed (w : World Z) : MessageOp → Prop
  | .newMove other => (w.kind other).isSome = true
  | .assignMove this other => (w.kind this).isSome = true ∧ (w.kind other).isSome = true
  | .swap lhs rhs => (w.kind lhs).isSome = true ∧ (w.kind rhs).isSome = true
  | .send this _ _ => w.kind this = some .outgoing
  | .receive this _ => w.kind this = some .incoming
  | .destroy this => (w.kind this).isSome = true
  | _ => True

/-- The objects an operation moves, assigns, swaps, receives into or destroys. -/
def touched : MessageOp → List ObjId
  | .newMove other => [other]
  | .assignMove this other => [this, other]
  | .swap lhs rhs => [lhs, rhs]
  | .receive this _ => [this]
  | .destroy this => [this]
  | _ => []

/-- The bytes a newly built object is to show. -/
def constructs : MessageOp → Option Bytes
  | .newOutgoing => some []
  | .newData sourceData => some sourceData
  | .newCString sourceData => some (OutgoingMessage.cString sourceData)
  | .newIncoming => some []
  | _ => none

/-- Objects that may be different after the operation, a new one included. -/
def Changes (w : World Z) (op : MessageOp) (j : ObjId) : Prop :=
  j ∈ op.touched ∨ ((op.constructs.isSome = true ∨ ∃ other, op = .newMove other) ∧
    j = w.messages.next)

/-- A transfer through a socket object that owns no handle. -/
def onNullSocket : MessageOp → Bool
  | .send _ socket _ => socket.mSocket.isNone
  | .receive _ socket => socket.mSocket.isNone
  | _ => false

end MessageOp

/-- The pool of messages as a machine; a constructor that throws leaves the run going. -/
def messageMachine (Z : Libzmq) : Machine (World Z) MessageOp where
  step w op := (op.perform w).2
  Allowed w op := op.Allowed w

section Steps
variable {Z : Libzmq} {V : Z.View} {w w' : World Z} {i j : ObjId}

/-- Between operations every live object holds an initialised message. -/
structure Settled (V : Z.View) (w : World Z) : Prop where
  consistent : Consistent V w
  ready : ∀ i, (w.kind i).isSome = true → (w.payload i).isSome = true

/-- What an operation does to the frames in flight, and the calls that hand a
frame to libzmq. -/
def FrameEffect (V : Z.View) (w w' : World Z) : MessageOp → Prop
  | .send this socket more =>
    (socket.mSocket = none ∧ w' = w) ∨
    ∃ h bytes, socket.mSocket = some h ∧ w.payload this = some bytes ∧
      ((Sent V h bytes more w w' ∧ w'.calls = w.calls ++ sendCalls h bytes more .ok) ∨
        ∃ e, SameFrames V w w' ∧ w'.calls = w.calls ++ sendCalls h bytes more (.failed e))
  | .receive this socket =>
    SameFrames V w w' ∨
    ∃ h frame, socket.mSocket = some h ∧ Received V h frame w w' ∧
      w'.payload this = some frame.part
  | .transport _ =>
    (shown V w' = shown V w ∨ (∃ p, shown V w = p ::ₘ shown V w') ∨
      ∃ p, shown V w' = p ::ₘ shown V w) ∧
    V.accepted w'.zmq = V.accepted w.zmq ∧ V.midMessage w'.zmq = V.midMessage w.zmq ∧
    ∀ g, ∃ messages : List (List Bytes), (∀ m ∈ messages, m ≠ []) ∧
      V.incoming w'.zmq g = V.incoming w.zmq g ++ Framing.stream messages
  | _ => SameFrames V w w'

/-- What one operation does. -/
structure StepSpec (V : Z.View) (w : World Z) (op : MessageOp) : Prop where
  settled : Settled V (op.perform w).2
  keeps : Keeps (op.Changes w) w (op.perform w).2
  built : ∀ p, op.constructs = some p → (op.perform w).1 = .returned () →
    (op.perform w).2.payload w.messages.next = some p
  frames : FrameEffect V w (op.perform w).2 op
  aborts : (op.perform w).1 = .aborted ↔ op.onNullSocket = true

/-- Objects that were not touched are still ready; the others must be shown to be. -/
theorem Settled.of_keeps (hw : Settled V w) {S : ObjId → Prop} (hk : Keeps S w w')
    (hw' : Consistent V w')
    (hS : ∀ j, S j → (w'.kind j).isSome = true → (w'.payload j).isSome = true) :
    Settled V w' := by
  refine ⟨hw', fun j hj => ?_⟩
  by_cases h : S j
  · exact hS j h hj
  · rw [hk.payloads j h]
    rw [hk.kinds j h] at hj
    exact hw.ready j hj

theorem Settled.payload (hw : Settled V w) (h : (w.kind i).isSome = true) :
    ∃ p, w.payload i = some p := Option.isSome_iff_exists.mp (hw.ready i h)

theorem MessageOp.discard_of_failure {α : Type} {x : Action Z α} {a : α} {e : ℤ}
    (h : x w = (failure a e, w')) : ∃ r, Exec.discard x w = (r, w') ∧ r ≠ .aborted := by
  unfold failure at h
  split_ifs at h with he
  · exact ⟨_, discard_of_returned h, by simp⟩
  · exact ⟨_, discard_of_threw h, by simp⟩

/-- A completed construction. -/
theorem stepSpec_new (hw : Settled V w) {op : MessageOp} {p : Bytes}
    (hx : op.perform w = (.returned (), w')) (hT : Touches V w.messages.next w w')
    (hp : w'.payload w.messages.next = some p) (hc : op.constructs = some p)
    (hframes : FrameEffect V w w' op ↔ SameFrames V w w') (hnull : op.onNullSocket = false) :
    StepSpec V w op := by
  refine ⟨?_, ?_, ?_, ?_, ?_⟩ <;> rw [hx]
  · refine hw.of_keeps hT.keeps hT.consistent fun j hj _ => ?_
    rw [hj, hp]
    rfl
  · exact hT.keeps.mono fun j hj => Or.inr ⟨Or.inl (by rw [hc]; rfl), hj⟩
  · intro q hq _
    rw [hp, ← hc, hq]
  · exact hframes.mpr hT.frames
  · rw [hnull]
    simp

/-- A construction that threw. -/
theorem stepSpec_threw (hw : Settled V w) {op : MessageOp} {e : Error}
    (hx : op.perform w = (.threw e, w')) (hT : Touches V w.messages.next w w')
    (hk : w'.kind w.messages.next = none) (hc : op.constructs.isSome = true)
    (hframes : FrameEffect V w w' op ↔ SameFrames V w w') (hnull : op.onNullSocket = false) :
    StepSpec V w op := by
  refine ⟨?_, ?_, ?_, ?_, ?_⟩ <;> rw [hx]
  · refine hw.of_keeps hT.keeps hT.consistent fun j hj hj' => ?_
    rw [hj, hk] at hj'
    cases hj'
  · exact hT.keeps.mono fun j hj => Or.inr ⟨Or.inl hc, hj⟩
  · intro q _ hq
    cases hq
  · exact hframes.mpr hT.frames
  · rw [hnull]
    simp

theorem stepSpec_empty (hZ : V.Laws) (hw : Settled V w) {op : MessageOp} {k : MessageKind}
    (hx : op.perform w = Exec.discard (Message.create k Message.init) w)
    (hc : op.constructs = some [])
    (hframes : ∀ w', FrameEffect V w w' op ↔ SameFrames V w w')
    (hnull : op.onNullSocket = false) : StepSpec V w op := by
  obtain ⟨hT, hraw, _⟩ := alloc_spec (V := V) hw.consistent k
  obtain ⟨w', hinit, hL, hp, _⟩ := Message.init_spec hZ hT.consistent hraw
  obtain ⟨hnew, hT', _, hp'⟩ := Message.create_of_returned hw.consistent hinit hL hp
  exact stepSpec_new hw (hx.trans (Exec.discard_of_returned hnew)) hT' hp' hc (hframes w')
    hnull

theorem stepSpec_data (hZ : V.Laws) (hw : Settled V w) {op : MessageOp} (sourceData : Bytes)
    (hx : op.perform w = Exec.discard (OutgoingMessage.newData sourceData) w)
    (hc : op.constructs = some sourceData)
    (hframes : ∀ w', FrameEffect V w w' op ↔ SameFrames V w w')
    (hnull : op.onNullSocket = false) : StepSpec V w op := by
  obtain ⟨hT, hraw, _⟩ := alloc_spec (V := V) hw.consistent .outgoing
  rcases Message.initData_spec hZ hT.consistent sourceData hraw with
    ⟨w', hinit, hL, hp, _⟩ | ⟨w', e, rc, hinit, hL, hs, _⟩
  · obtain ⟨hnew, hT', _, hp'⟩ := Message.create_of_returned hw.consistent hinit hL hp
    exact stepSpec_new hw (hx.trans (Exec.discard_of_returned hnew)) hT' hp' hc (hframes w')
      hnull
  · obtain ⟨hnew, hT', hk⟩ := Message.create_of_threw hw.consistent hinit hL hs
    exact stepSpec_threw hw (hx.trans (Exec.discard_of_threw hnew)) hT' hk
      (by rw [hc]; rfl) (hframes _) hnull

/-- The new object takes over what the other one shows. -/
theorem stepSpec_move (hZ : V.Laws) (hw : Settled V w) {other : ObjId} {k : MessageKind}
    (ho : w.kind other = some k)
    (hx : (MessageOp.newMove other).perform w =
      Exec.discard (Message.create k (Message.initMove other)) w) :
    StepSpec V w (.newMove other) := by
  obtain ⟨p, hp⟩ := hw.payload (i := other) (by rw [ho]; rfl)
  have hne : other ≠ w.messages.next := Nat.ne_of_lt (lt_next_of_payload hp)
  obtain ⟨hT, hraw, _⟩ := alloc_spec (V := V) hw.consistent k
  have hp₁ : (w.alloc k).payload other = some p := (hT.keeps.payloads other hne).trans hp
  obtain ⟨w', hmove, hw', hf, hkind, hpn, hpo, hothers, _⟩ :=
    Message.initMove_spec hZ hT.consistent hne hraw hp₁
  have hnew := Exec.discard_of_returned (Message.create_apply hmove)
  have hk : Keeps (fun j => j ∈ [other] ∨ j = w.messages.next) w w' := by
    constructor
    · intro j hj
      rw [hkind j]
      exact hT.keeps.kinds j fun h => hj (Or.inr h)
    · intro j hj
      have hjo : j ≠ other := fun h => hj (Or.inl (by simp [h]))
      have hjn : j ≠ w.messages.next := fun h => hj (Or.inr h)
      rw [hothers j hjn hjo]
      exact hT.keeps.payloads j hjn
  refine ⟨?_, ?_, fun q hq => ?_, ?_, ?_⟩ <;> rw [hx, hnew]
  · apply hw.of_keeps hk hw'
    intro j hj _
    rcases hj with h | h
    · rw [List.mem_singleton.mp h, hpo]
      rfl
    · rw [h, hpn]
      rfl
  · apply hk.mono
    rintro j (hj | hj)
    · exact Or.inl hj
    · exact Or.inr ⟨Or.inr ⟨other, rfl⟩, hj⟩
  · cases hq
  · exact hT.frames.trans hf
  · simp [MessageOp.onNullSocket]

theorem stepSpec_swap (hw : Settled V w) {op : MessageOp} {lhs rhs : ObjId}
    (hx : op.perform w = Message.swap lhs rhs w) (hc : op.constructs = none)
    (hl : (w.kind lhs).isSome = true) (hr : (w.kind rhs).isSome = true)
    (htouched : op.touched = [lhs, rhs])
    (hframes : ∀ w', FrameEffect V w w' op ↔ SameFrames V w w')
    (hnull : op.onNullSocket = false) : StepSpec V w op := by
  obtain ⟨p, hp⟩ := hw.payload hl
  obtain ⟨q, hq⟩ := hw.payload hr
  obtain ⟨w', hswap, hw', hf, hkind, hpl, hpr, hothers, _⟩ := Message.swap_spec hw.consistent hp hq
  have hk : Keeps (· ∈ op.touched) w w' := by
    refine ⟨fun j _ => hkind j, fun j hj => ?_⟩
    rw [htouched] at hj
    exact hothers j (fun h => hj (by simp [h])) fun h => hj (by simp [h])
  refine ⟨?_, ?_, fun q hq => ?_, ?_, ?_⟩ <;> rw [hx, hswap]
  · refine hw.of_keeps hk hw' fun j hj _ => ?_
    rw [htouched] at hj
    rcases List.mem_pair.mp hj with h | h
    · rw [h, hpl]
      rfl
    · rw [h, hpr]
      rfl
  · exact hk.mono fun j hj => Or.inl hj
  · rw [hc] at hq
    cases hq
  · exact (hframes w').mpr hf
  · rw [hnull]
    simp

theorem stepSpec_send (hZ : V.Laws) (hw : Settled V w) {this : ObjId} (socket : Socket)
    (more : Bool) (h : w.kind this = some .outgoing) :
    StepSpec V w (.send this socket more) := by
  obtain ⟨p, hp⟩ := hw.payload (i := this) (by rw [h]; rfl)
  cases hs : socket.mSocket with
  | none =>
    have hx : (MessageOp.send this socket more).perform w = (.aborted, w) := by
      simp only [MessageOp.perform, Exec.discard]
      apply bind_of_aborted
      simp only [OutgoingMessage.send, hs]
    refine ⟨?_, ?_, fun q hq => ?_, ?_, ?_⟩ <;> rw [hx]
    · exact hw
    · exact ⟨fun _ _ => rfl, fun _ _ => rfl⟩
    · cases hq
    · exact Or.inl ⟨hs, rfl⟩
    · simp [MessageOp.onNullSocket, hs]
  | some handle =>
    rcases OutgoingMessage.send_spec hZ hw.consistent hp hs more with
      ⟨w', hsend, hw', hk, hsent, _, hc⟩ | ⟨w', e, hsend, hw', hk, hf, _, hc⟩
    · have hx : (MessageOp.send this socket more).perform w = (.returned (), w') :=
        Exec.discard_of_returned hsend
      refine ⟨?_, ?_, fun q hq => ?_, ?_, ?_⟩ <;> rw [hx]
      · exact hw.of_keeps hk hw' fun j hj => hj.elim
      · exact hk.mono fun j hj => hj.elim
      · cases hq
      · exact Or.inr ⟨handle, p, hs, hp, Or.inl ⟨hsent, hc⟩⟩
      · simp [MessageOp.onNullSocket, hs]
    · obtain ⟨r, hx, hr⟩ := MessageOp.discard_of_failure hsend
      have hx' : (MessageOp.send this socket more).perform w = (r, w') := hx
      refine ⟨?_, ?_, fun q hq => ?_, ?_, ?_⟩ <;> rw [hx']
      · exact hw.of_keeps hk hw' fun j hj => hj.elim
      · exact hk.mono fun j hj => hj.elim
      · cases hq
      · exact Or.inr ⟨handle, p, hs, hp, Or.inr ⟨e, hf, hc⟩⟩
      · simp [MessageOp.onNullSocket, hs, hr]

theorem stepSpec_receive (hZ : V.Laws) (hw : Settled V w) {this : ObjId} (socket : Socket)
    (h : w.kind this = some .incoming) : StepSpec V w (.receive this socket) := by
  obtain ⟨p, hp⟩ := hw.payload (i := this) (by rw [h]; rfl)
  have hmem : ∀ j, j = this → (MessageOp.receive this socket).Changes w j := by
    intro j hj
    rw [hj]
    exact Or.inl (List.mem_singleton.mpr rfl)
  cases hs : socket.mSocket with
  | none =>
    have hx : (MessageOp.receive this socket).perform w = (.aborted, w) := by
      simp only [MessageOp.perform, Exec.discard]
      apply bind_of_aborted
      simp only [IncomingMessage.receive, hs]
    refine ⟨?_, ?_, fun q hq => ?_, ?_, ?_⟩ <;> rw [hx]
    · exact hw
    · exact ⟨fun _ _ => rfl, fun _ _ => rfl⟩
    · cases hq
    · exact Or.inl (SameFrames.refl w)
    · simp [MessageOp.onNullSocket, hs]
  | some handle =>
    rcases IncomingMessage.receive_spec hZ hw.consistent hp hs with
      ⟨w', frame, hrecv, hw', hk, _, hp', hrcv, _⟩ | ⟨w', e, hrecv, hL, hp', _⟩
    · have hx : (MessageOp.receive this socket).perform w = (.returned (), w') :=
        Exec.discard_of_returned hrecv
      refine ⟨?_, ?_, fun q hq => ?_, ?_, ?_⟩ <;> rw [hx]
      · apply hw.of_keeps hk hw'
        intro j hj _
        rw [hj, hp']
        rfl
      · exact hk.mono hmem
      · cases hq
      · exact Or.inr ⟨handle, frame, hs, hrcv, hp'⟩
      · simp [MessageOp.onNullSocket, hs]
    · obtain ⟨r, hx, hr⟩ := MessageOp.discard_of_failure hrecv
      have hx' : (MessageOp.receive this socket).perform w = (r, w') := hx
      refine ⟨?_, ?_, fun q hq => ?_, ?_, ?_⟩ <;> rw [hx']
      · apply hw.of_keeps hL.keeps hL.consistent
        intro j hj _
        rw [hj, hp']
        rfl
      · exact hL.keeps.mono hmem
      · cases hq
      · exact Or.inl hL.frames
      · simp [MessageOp.onNullSocket, hs, hr]

theorem stepSpec_destroy (hZ : V.Laws) (hw : Settled V w) {this : ObjId}
    (h : (w.kind this).isSome = true) : StepSpec V w (.destroy this) := by
  obtain ⟨p, hp⟩ := hw.payload h
  obtain ⟨w', hdestroy, hT, hk, _, _⟩ := Message.destroy_spec hZ hw.consistent hp
  have hx : (MessageOp.destroy this).perform w = (.returned (), w') := hdestroy
  refine ⟨?_, ?_, fun q hq => ?_, ?_, ?_⟩ <;> rw [hx]
  · apply hw.of_keeps hT.keeps hT.consistent
    intro j hj hj'
    rw [hj, hk] at hj'
    cases hj'
  · apply hT.keeps.mono
    intro j hj
    rw [hj]
    exact Or.inl (List.mem_singleton.mpr rfl)
  · cases hq
  · exact hT.frames
  · simp [MessageOp.onNullSocket]

/-- libzmq's own threads change which frames are in flight, and nothing else. -/
theorem Consistent.transport (hw : Consistent V w) {σ : Z.State}
    (hframes : ∀ f ∈ V.held σ, V.initialised f)
    (hrefs : ∀ b, V.refs σ b + inFlight V w.zmq b = V.refs w.zmq b + inFlight V σ b) :
    Consistent V { w with zmq := σ } := by
  refine ⟨hw.slots, hframes, fun b => ?_, hw.sound⟩
  have hb := hw.counts b
  have hr := hrefs b
  show V.refs σ b = w.messages.count (Message.holds V b) + inFlight V σ b
  omega

theorem transport_spec (hZ : V.Laws) (hw : Consistent V w) (n : ℕ) :
    Consistent V { w with zmq := Z.transport n w.zmq } ∧
      FrameEffect V w { w with zmq := Z.transport n w.zmq } (.transport n) := by
  obtain ⟨hst, hacc, hmid, hin, ⟨hheld, hrefs⟩ | ⟨f, hheld, hrefs⟩ | ⟨f, hheld, hini, hrefs, _⟩⟩ :=
    hZ.transport n w.zmq
  · have hw' : Consistent V { w with zmq := Z.transport n w.zmq } := by
      apply Consistent.transport hw
      · rw [hheld]
        exact hw.frames
      · intro b
        rw [hrefs, inFlight, inFlight, hheld]
    exact ⟨hw', Or.inl (shown_stable hw hw' hst hheld), hacc, hmid, hin⟩
  · have hw' : Consistent V { w with zmq := Z.transport n w.zmq } := by
      apply Consistent.transport hw
      · intro x hx
        apply hw.frames x
        rw [hheld]
        exact Multiset.mem_cons_of_mem hx
      · intro b
        have hb := hrefs b
        have hf := inFlight_cons hheld b
        omega
    exact ⟨hw', Or.inr (Or.inl ⟨_, shown_left hw hw' hst hheld⟩), hacc, hmid, hin⟩
  · have hw' : Consistent V { w with zmq := Z.transport n w.zmq } := by
      apply Consistent.transport hw
      · intro x hx
        rw [hheld] at hx
        rcases Multiset.mem_cons.mp hx with rfl | hx
        · exact hini
        · exact hw.frames x hx
      · intro b
        have hb := hrefs b
        have hf := inFlight_cons hheld b
        omega
    exact ⟨hw', Or.inr (Or.inr ⟨_, shown_joined hw hw' hst hheld⟩), hacc, hmid, hin⟩

/-- What libzmq's threads do between two calls is seen by no object. -/
theorem stepSpec_transport (hZ : V.Laws) (hw : Settled V w) (n : ℕ) :
    StepSpec V w (.transport n) := by
  obtain ⟨hw', hf⟩ := transport_spec hZ hw.consistent n
  have hk : Keeps (fun _ => False) w { w with zmq := Z.transport n w.zmq } :=
    ⟨fun _ _ => rfl, fun j _ => payload_stable hw.consistent hw' (hZ.transport n w.zmq).stable rfl⟩
  have hx : (MessageOp.transport n).perform w =
      (.returned (), { w with zmq := Z.transport n w.zmq }) := rfl
  refine ⟨?_, ?_, fun q hq => ?_, ?_, ?_⟩ <;> rw [hx]
  · exact hw.of_keeps hk hw' fun j hj => hj.elim
  · exact hk.mono fun j hj => hj.elim
  · cases hq
  · exact hf
  · simp [MessageOp.onNullSocket]

/-- The effect of any operation, from any state between operations. -/
theorem step_spec (hZ : V.Laws) (hw : Settled V w) {op : MessageOp} (hop : op.Allowed w) :
    StepSpec V w op := by
  cases op with
  | newOutgoing => exact stepSpec_empty hZ hw (k := .outgoing) rfl rfl (fun _ => Iff.rfl) rfl
  | newData sourceData => exact stepSpec_data hZ hw sourceData rfl rfl (fun _ => Iff.rfl) rfl
  | newCString sourceData =>
    exact stepSpec_data hZ hw (OutgoingMessage.cString sourceData) rfl rfl (fun _ => Iff.rfl) rfl
  | newIncoming => exact stepSpec_empty hZ hw (k := .incoming) rfl rfl (fun _ => Iff.rfl) rfl
  | newMove other =>
    obtain ⟨k, hk⟩ := Option.isSome_iff_exists.mp hop
    refine stepSpec_move hZ hw hk ?_
    cases k <;> simp only [MessageOp.perform, hk] <;> rfl
  | assignMove this other =>
    exact stepSpec_swap hw rfl rfl hop.1 hop.2 rfl (fun _ => Iff.rfl) rfl
  | swap lhs rhs => exact stepSpec_swap hw rfl rfl hop.1 hop.2 rfl (fun _ => Iff.rfl) rfl
  | send this socket more => exact stepSpec_send hZ hw socket more hop
  | receive this socket => exact stepSpec_receive hZ hw socket hop
  | destroy this => exact stepSpec_destroy hZ hw hop
  | transport n => exact stepSpec_transport hZ hw n

end Steps

/-! ### Runs -/

section Runs
variable {Z : Libzmq} {V : Z.View} {w : World Z} {σ : Z.State} {ops : List MessageOp}

theorem settled_initial (hσ : V.Initial σ) : Settled V (World.initial σ) := by
  refine ⟨⟨fun i m hm => ?_, fun f hf => ?_, fun b => ?_, fun c hc => ?_⟩, fun i hi => ?_⟩
  · cases hm
  · exact absurd (hσ.held ▸ hf) (Multiset.notMem_zero f)
  · show V.refs σ b = 0 + inFlight V σ b
    rw [hσ.refs b, inFlight, hσ.held, Multiset.countP_zero]
  · cases hc
  · cases hi

theorem settled_run (hZ : V.Laws) (hw : Settled V w)
    (hops : (messageMachine Z).Admissible w ops) : Settled V ((messageMachine Z).run w ops) :=
  Machine.run_invariant (I := Settled V) (fun _ _ hs hop => (step_spec hZ hs hop).settled) hw hops

theorem payload_run (hZ : V.Laws) {i : ObjId} {p : Bytes} (hw : Settled V w)
    (hp : w.payload i = some p) (hops : (messageMachine Z).Admissible w ops)
    (hi : ∀ op ∈ ops, i ∉ op.touched) : ((messageMachine Z).run w ops).payload i = some p := by
  have hrun : Settled V ((messageMachine Z).run w ops) ∧
      ((messageMachine Z).run w ops).payload i = some p := by
    apply Machine.run_preserves (I := fun u => Settled V u ∧ u.payload i = some p) ?_
      ⟨hw, hp⟩ hops hi
    intro u op hu hop hop'
    have hspec := step_spec hZ hu.1 hop
    refine ⟨hspec.settled, (hspec.keeps.payloads i ?_).trans hu.2⟩
    rintro (h | ⟨_, h⟩)
    · exact hop' h
    · exact Nat.ne_of_lt (lt_next_of_payload hu.2) h
  exact hrun.2

/-- A live object's size is the length of what it shows. -/
theorem size_of_payload (hZ : V.Laws) (hw : Consistent V w) {i : ObjId} {p : Bytes}
    (hp : w.payload i = some p) : IncomingMessage.size w i = some p.length := by
  obtain ⟨m, hm, rfl⟩ := payload_eq_some.mp hp
  rw [IncomingMessage.size, hm]
  exact congrArg some (hZ.size_eq w.zmq m (hw.valid hm))

/-- After any run, only initialised messages have been passed to libzmq, no
assertion can fail unless a null socket is used, every content block has one
reference for each object and each frame in flight that refers to it, and a send
leaves no object behind. So nothing is left once all of them are gone. -/
theorem references_accounted_for (hZ : V.Laws) (hσ : V.Initial σ)
    (hops : (messageMachine Z).Admissible (World.initial σ) ops) :
    let w := (messageMachine Z).run (World.initial σ) ops
    (∀ c ∈ w.calls, c.Sound) ∧
      (∀ op : MessageOp, op.Allowed w →
        ((op.perform w).1 = .aborted ↔ op.onNullSocket = true)) ∧
      (∀ b, V.refs w.zmq b = w.messages.count (Message.holds V b) + inFlight V w.zmq b) ∧
      (∀ this socket more j, w.kind this = some .outgoing →
        ((MessageOp.send this socket more).perform w).2.kind j = w.kind j) ∧
      ((∀ i, w.kind i = none) → V.held w.zmq = 0 → ∀ b, V.refs w.zmq b = 0) := by
  intro w
  have hw : Settled V w := settled_run hZ (settled_initial hσ) hops
  refine ⟨hw.consistent.sound, fun op hop => (step_spec hZ hw hop).aborts,
    hw.consistent.counts, fun this socket more j h => ?_, fun hnone hheld b => ?_⟩
  · have hop : (MessageOp.send this socket more).Allowed w := h
    apply (step_spec hZ hw hop).keeps.kinds j
    rintro (h | ⟨h | ⟨other, h⟩, _⟩) <;> cases h
  · have hcount : w.messages.count (Message.holds V b) = 0 := by
      apply ObjectPool.count_eq_zero
      intro i o ho
      have hkind := hnone i
      simp [World.kind, ho] at hkind
    rw [hw.consistent.counts b, hcount, inFlight, hheld, Multiset.countP_zero]

namespace Loopback

/-- A message sent with every outcome, received, and everything destroyed. -/
def tour : List MessageOp :=
  [.newData [1, 2, 3], .newIncoming, .send 0 ⟨some 0⟩ false, .send 0 ⟨some 0⟩ false,
    .send 0 ⟨some 0⟩ false, .newMove 0, .swap 5 0, .receive 1 ⟨some 1⟩, .receive 1 ⟨some 1⟩,
    .assignMove 0 0, .destroy 0, .destroy 5, .destroy 1]

/-- Success, `EAGAIN` and another error for the sends, then success for a receive. -/
def tourScript : List ℤ := [0, EAGAIN, 5, 0]

/-- The state at the end of the tour. -/
def tourEnd : World (loopback true) :=
  (messageMachine (loopback true)).run (World.initial (State.start tourScript)) tour

theorem tour_admissible :
    (messageMachine (loopback true)).Admissible (World.initial (State.start tourScript)) tour :=
  ⟨trivial, trivial, rfl, rfl, rfl, rfl, ⟨rfl, rfl⟩, rfl, rfl, ⟨rfl, rfl⟩, rfl, rfl, rfl, trivial⟩

set_option maxRecDepth 4096 in
theorem tourEnd_messages : tourEnd.messages = ⟨List.replicate 6 none⟩ := rfl

set_option maxRecDepth 4096 in
theorem tourEnd_held : (view true).held tourEnd.zmq = 0 := rfl

end Loopback

set_option maxRecDepth 4096 in
theorem references_accounted_for_tour :
    (Loopback.view true).refs Loopback.tourEnd.zmq 0 = 0 := by
  have hend := references_accounted_for Loopback.laws (Loopback.initial Loopback.tourScript)
    Loopback.tour_admissible
  have hnone : ∀ i, Loopback.tourEnd.kind i = none := by
    intro i
    rw [World.kind, Loopback.tourEnd_messages, ObjectPool.get_replicate_none]
    rfl
  exact hend.2.2.2.2 hnone Loopback.tourEnd_held 0

/-- A send hands over exactly what its object shows. -/
theorem send_hands_over (hZ : V.Laws) (hw : Settled V w) {i : ObjId} {p : Bytes}
    {socket : Socket} {h : Handle} (hs : socket.mSocket = some h) (more : Bool)
    (hk : w.kind i = some .outgoing) (hp : w.payload i = some p) :
    ∃ v, ((MessageOp.send i socket more).perform w).2.calls = w.calls ++ sendCalls h p more v := by
  have hop : (MessageOp.send i socket more).Allowed w := hk
  rcases (step_spec hZ hw hop).frames with ⟨hnull, _⟩ | ⟨h', q, hs', hq, hcases⟩
  · rw [hs] at hnull
    cases hnull
  · obtain rfl : h' = h := Option.some.inj (hs'.symm.trans hs)
    obtain rfl : q = p := Option.some.inj (hq.symm.trans hp)
    rcases hcases with ⟨_, hc⟩ | ⟨e, _, hc⟩
    · exact ⟨.ok, hc⟩
    · exact ⟨.failed e, hc⟩

/-- What an object shows changes only through operations that touch it, and what
frames show does not change at all. So an object that nothing touches after its
construction shows the bytes it was built from, and hands them over in every send. -/
theorem contents_unaffected (hZ : V.Laws) (hσ : V.Initial σ)
    (hops : (messageMachine Z).Admissible (World.initial σ) ops) :
    let w := (messageMachine Z).run (World.initial σ) ops
    (∀ op : MessageOp, op.Allowed w →
      (∀ j, (w.kind j).isSome = true → j ∉ op.touched →
        (op.perform w).2.payload j = w.payload j ∧
          IncomingMessage.size (op.perform w).2 j = IncomingMessage.size w j) ∧
      FrameEffect V w (op.perform w).2 op) ∧
    ∀ before op after p, ops = before ++ op :: after → op.constructs = some p →
      let u := (messageMachine Z).run (World.initial σ) before
      (op.perform u).1 = .returned () → (∀ op' ∈ after, u.messages.next ∉ op'.touched) →
        w.payload u.messages.next = some p ∧
        IncomingMessage.size w u.messages.next = some p.length ∧
        ∀ socket h more, socket.mSocket = some h → w.kind u.messages.next = some .outgoing →
          ∃ v, ((MessageOp.send u.messages.next socket more).perform w).2.calls =
            w.calls ++ sendCalls h p more v := by
  intro w
  have hw : Settled V w := settled_run hZ (settled_initial hσ) hops
  constructor
  · intro op hop
    have hspec := step_spec hZ hw hop
    refine ⟨fun j hj hjt => ?_, hspec.frames⟩
    obtain ⟨p, hp⟩ := hw.payload hj
    have hkeep : (op.perform w).2.payload j = w.payload j := by
      apply hspec.keeps.payloads j
      rintro (h | ⟨_, h⟩)
      · exact hjt h
      · exact Nat.ne_of_lt (lt_next_of_payload hp) h
    refine ⟨hkeep, ?_⟩
    rw [size_of_payload hZ hspec.settled.consistent (hkeep.trans hp),
      size_of_payload hZ hw.consistent hp]
  · intro before op after p hsplit hc u hret hafter
    rw [hsplit, Machine.admissible_append] at hops
    obtain ⟨hbefore, hop, hrest⟩ := hops
    have hu : Settled V u := settled_run hZ (settled_initial hσ) hbefore
    have hspec := step_spec hZ hu hop
    have hrun : w = (messageMachine Z).run (op.perform u).2 after := by
      show (messageMachine Z).run (World.initial σ) ops = _
      rw [hsplit, Machine.run_append]
      rfl
    have hp : w.payload u.messages.next = some p := by
      rw [hrun]
      exact payload_run hZ hspec.settled (hspec.built p hc hret) hrest hafter
    exact ⟨hp, size_of_payload hZ hw.consistent hp,
      fun socket h more hs hk => send_hands_over hZ hw hs more hk hp⟩

/-- The message of the tour is still what it was built as after three sends. -/
theorem contents_unaffected_tour :
    ((messageMachine (Loopback.loopback true)).run (World.initial (Loopback.State.start
      Loopback.tourScript)) (Loopback.tour.take 5)).payload 0 = some [1, 2, 3] := by
  have hadm : (messageMachine (Loopback.loopback true)).Admissible (World.initial
      (Loopback.State.start Loopback.tourScript)) (Loopback.tour.take 5) :=
    ⟨trivial, trivial, rfl, rfl, rfl, trivial⟩
  have hrun := contents_unaffected Loopback.laws (Loopback.initial Loopback.tourScript) hadm
  exact (hrun.2 [] (.newData [1, 2, 3]) ((Loopback.tour.take 5).drop 1) [1, 2, 3] rfl rfl rfl
    (by decide)).1

end Runs
end CpperoMQ
