import CpperoMQ.MessageRuns

/-!
# Messages as values, sockets as queues

What the message classes are for: a message is a byte string of its own, moving
takes it out of one object and puts it into another, and a socket is a queue of
frames. Behind the objects libzmq shares content between messages and frames.
Every run over a pool of messages is explained, operation by operation, by a run
of the machine in which nothing is shared.
-/
namespace CpperoMQ
open Effects Effects.Exec Libzmq.View World

/-- Messages with their bytes, and the frames accepted from and due to each socket. -/
@[ext] structure MessageStore where
  contents : ObjId → Option (MessageKind × Bytes)
  accepted : Handle → List (Frame Bytes)
  incoming : Handle → List (Frame Bytes)

/-- What an operation came to. -/
inductive MessageEvent where
  | built (this : ObjId) (kind : MessageKind) (bytes : Bytes)
  | moved (this other : ObjId)
  | exchanged (lhs rhs : ObjId)
  | sent (this : ObjId) (socket : Handle) (more : Bool)
  | taken (this : ObjId) (socket : Handle)
  | emptied (this : ObjId)
  | destroyed (this : ObjId)
  | arrived (messages : Handle → List (List Bytes))
  | nothing

namespace MessageStore
variable (peer : Handle → Option Handle) (s : MessageStore)

/-- Overwrite the bytes of a live message. -/
def write (i : ObjId) (bytes : Bytes) : MessageStore :=
  match s.contents i with
  | some (kind, _) => { s with contents := Function.update s.contents i (some (kind, bytes)) }
  | none => s

/-- The bytes of a message, none for an object that is gone. -/
def bytes (i : ObjId) : Bytes := ((s.contents i).map Prod.snd).getD []

/-- Frames due to each socket once `parts` is a complete message sent on `h`. -/
def deliver (h : Handle) (parts : List Bytes) : Handle → List (Frame Bytes) := fun g =>
  if peer h = some g then s.incoming g ++ Framing.message parts else s.incoming g

def apply : MessageEvent → MessageStore
  | .built this kind bytes =>
    { s with contents := Function.update s.contents this (some (kind, bytes)) }
  | .moved this other =>
    { s.write other [] with
      contents := Function.update (s.write other []).contents this (s.contents other) }
  | .exchanged lhs rhs => (s.write lhs (s.bytes rhs)).write rhs (s.bytes lhs)
  | .sent this h more =>
    { s with
      accepted := Function.update s.accepted h (s.accepted h ++ [⟨s.bytes this, more⟩])
      incoming := if more then s.incoming else
        s.deliver peer h (Framing.openParts (s.accepted h) ++ [s.bytes this]) }
  | .taken this h =>
    match s.incoming h with
    | frame :: rest =>
      { s.write this frame.part with incoming := Function.update s.incoming h rest }
    | [] => s
  | .emptied this => s.write this []
  | .destroyed this => { s with contents := Function.update s.contents this none }
  | .arrived messages =>
    { s with incoming := fun g => s.incoming g ++ Framing.stream (messages g) }
  | .nothing => s

/-- Objects are alive, new ones are not yet, and a frame is there to be taken. -/
def Enabled : MessageEvent → Prop
  | .built this _ _ => s.contents this = none
  | .moved this other => s.contents this = none ∧ (s.contents other).isSome = true
  | .exchanged lhs rhs => (s.contents lhs).isSome = true ∧ (s.contents rhs).isSome = true
  | .sent this _ _ => (s.contents this).map Prod.fst = some .outgoing
  | .taken this h => (s.contents this).map Prod.fst = some .incoming ∧ s.incoming h ≠ []
  | .emptied this => (s.contents this).map Prod.fst = some .incoming
  | .destroyed this => (s.contents this).isSome = true
  | .arrived messages => ∀ g, ∀ m ∈ messages g, m ≠ []
  | .nothing => True

variable {s} {i j : ObjId} {kind : MessageKind} {bytes' : Bytes}

theorem write_of_get (hi : s.contents i = some (kind, bytes')) (bytes : Bytes) :
    s.write i bytes = { s with contents := Function.update s.contents i (some (kind, bytes)) } := by
  simp [write, hi]

theorem bytes_of_get (hi : s.contents i = some (kind, bytes')) : s.bytes i = bytes' := by
  simp [bytes, hi]

/-- Writing shows on the object written, and on no other. -/
theorem contents_write (s : MessageStore) (i : ObjId) (bytes : Bytes) (j : ObjId) :
    (s.write i bytes).contents j =
      if j = i then (s.contents i).map fun c => (c.1, bytes) else s.contents j := by
  unfold write
  cases hi : s.contents i with
  | none =>
    split_ifs with hj
    · rw [hj, hi]
      rfl
    · rfl
  | some c => simp [Function.update_apply]

@[simp] theorem accepted_write (s : MessageStore) (i : ObjId) (bytes : Bytes) :
    (s.write i bytes).accepted = s.accepted := by unfold write; split <;> rfl

@[simp] theorem incoming_write (s : MessageStore) (i : ObjId) (bytes : Bytes) :
    (s.write i bytes).incoming = s.incoming := by unfold write; split <;> rfl

theorem apply_taken {h : Handle} {frame : Frame Bytes} {rest : List (Frame Bytes)}
    (hin : s.incoming h = frame :: rest) :
    s.apply peer (.taken i h) =
      { s.write i frame.part with incoming := Function.update s.incoming h rest } := by
  simp [apply, hin]

/-- Two objects after they exchanged their bytes. -/
theorem contents_exchanged {l : MessageKind} {p q : Bytes}
    (hi : s.contents i = some (kind, p)) (hj : s.contents j = some (l, q)) (x : ObjId) :
    ((s.write i q).write j p).contents x =
      if x = j then some (l, p) else if x = i then some (kind, q) else s.contents x := by
  have hij : (s.write i q).contents j = some (l, q) := by
    rw [contents_write]
    split_ifs with hji
    · rw [hji, hi] at hj
      rw [hi]
      cases hj
      rfl
    · exact hj
  rw [contents_write, hij, contents_write, hi]
  rfl

end MessageStore

/-- The machine of messages as values and sockets as queues. -/
def storeMachine (peer : Handle → Option Handle) : Machine MessageStore MessageEvent where
  step s e := s.apply peer e
  Allowed s e := s.Enabled e
/-! ### What a state shows -/

section Values
variable {Z : Libzmq} {V : Z.View} {w w' : World Z} {i j : ObjId} {p : Bytes} {k : MessageKind}

/-- The class of a live object and the bytes it shows. -/
def World.contents (w : World Z) (i : ObjId) : Option (MessageKind × Bytes) :=
  (w.kind i).bind fun k => (w.payload i).map fun p => (k, p)

/-- A state as messages with values and sockets with queues. -/
def World.store (V : Z.View) (w : World Z) : MessageStore :=
  ⟨w.contents, V.accepted w.zmq, V.incoming w.zmq⟩

theorem contents_of (hk : w.kind i = some k) (hp : w.payload i = some p) :
    w.contents i = some (k, p) := by simp [World.contents, hk, hp]

theorem contents_of_gone (hk : w.kind i = none) : w.contents i = none := by
  simp [World.contents, hk]

theorem Settled.contents (hw : Settled V w) (hk : w.kind i = some k) :
    ∃ p, w.payload i = some p ∧ w.contents i = some (k, p) := by
  obtain ⟨p, hp⟩ := hw.payload (i := i) (by rw [hk]; rfl)
  exact ⟨p, hp, contents_of hk hp⟩

theorem contents_of_keeps {S : ObjId → Prop} (h : Keeps S w w') (hj : ¬S j) :
    w'.contents j = w.contents j := by
  rw [World.contents, World.contents, h.kinds j hj, h.payloads j hj]

/-- Objects that all read the same make the same store, if no frame moved. -/
theorem store_of_keeps (h : Keeps (fun _ => False) w w') (hf : SameFrames V w w') :
    w'.store V = w.store V := by
  have hcontents : w'.contents = w.contents := by
    funext j
    exact contents_of_keeps h fun hj => hj
  rw [World.store, World.store, hcontents, hf.accepted, hf.incoming]

/-- Contents that differ on one object only. -/
theorem contents_update (h : Keeps (· = i) w w') :
    w'.contents = Function.update w.contents i (w'.contents i) := by
  funext j
  by_cases hj : j = i
  · rw [hj, Function.update_self]
  · rw [Function.update_of_ne hj]
    exact contents_of_keeps h hj

theorem store_of_touches (hT : Touches V i w w') :
    w'.store V = { w.store V with
      contents := Function.update w.contents i (w'.contents i) } := by
  rw [World.store, contents_update hT.keeps, hT.frames.accepted, hT.frames.incoming,
    Function.update_self]
  rfl

theorem kind_of_contents (hk : (w.kind i).isSome = true) (hw : Settled V w) :
    ((w.store V).contents i).isSome = true := by
  obtain ⟨k, hk⟩ := Option.isSome_iff_exists.mp hk
  obtain ⟨p, _, hc⟩ := hw.contents hk
  change (w.contents i).isSome = true
  rw [hc]
  rfl

/-- The class a constructor gives its object. -/
def MessageOp.builds : MessageOp → Option MessageKind
  | .newOutgoing | .newData _ | .newCString _ => some .outgoing
  | .newIncoming => some .incoming
  | _ => none

/-- What an operation came to, given how it ended. -/
inductive Explains (V : Z.View) (w : World Z) : MessageOp → MessageEvent → Prop where
  | built {op : MessageOp} {kind : MessageKind} {bytes : Bytes} :
    op.builds = some kind → op.constructs = some bytes → (op.perform w).1 = .returned () →
    Explains V w op (.built w.messages.next kind bytes)
  | threw {op : MessageOp} {e : Error} :
    op.builds.isSome = true → (op.perform w).1 = .threw e → Explains V w op .nothing
  | moved {other : ObjId} : ((MessageOp.newMove other).perform w).1 = .returned () →
    Explains V w (.newMove other) (.moved w.messages.next other)
  | assigned {this other : ObjId} :
    ((MessageOp.assignMove this other).perform w).1 = .returned () →
    Explains V w (.assignMove this other) (.exchanged this other)
  | swapped {lhs rhs : ObjId} : ((MessageOp.swap lhs rhs).perform w).1 = .returned () →
    Explains V w (.swap lhs rhs) (.exchanged lhs rhs)
  | sent {this : ObjId} {socket : Socket} {more : Bool} {h : Handle} :
    socket.mSocket = some h → (OutgoingMessage.send this socket more w).1 = .returned true →
    Explains V w (.send this socket more) (.sent this h more)
  | unsent {this : ObjId} {socket : Socket} {more : Bool} :
    (OutgoingMessage.send this socket more w).1 ≠ .returned true →
    Explains V w (.send this socket more) .nothing
  | taken {this : ObjId} {socket : Socket} {h : Handle} {frame : Frame Bytes} :
    socket.mSocket = some h → (V.incoming w.zmq h).head? = some frame →
    (IncomingMessage.receive this socket w).1 = .returned (true, frame.more) →
    Explains V w (.receive this socket) (.taken this h)
  | untaken {this : ObjId} {socket : Socket} : socket.mSocket ≠ none →
    (∀ more, (IncomingMessage.receive this socket w).1 ≠ .returned (true, more)) →
    Explains V w (.receive this socket) (.emptied this)
  | unreceived {this : ObjId} {socket : Socket} : socket.mSocket = none →
    (IncomingMessage.receive this socket w).1 = .aborted →
    Explains V w (.receive this socket) .nothing
  | destroyed {this : ObjId} : ((MessageOp.destroy this).perform w).1 = .returned () →
    Explains V w (.destroy this) (.destroyed this)
  | arrived {n : ℕ} {messages : Handle → List (List Bytes)} :
    Explains V w (.transport n) (.arrived messages)

/-- Some step of the machine of values explains the operation. -/
def ValueStep (V : Z.View) (w : World Z) (op : MessageOp) : Prop :=
  ∃ e, Explains V w op e ∧ (w.store V).Enabled e ∧
    (op.perform w).2.store V = (w.store V).apply V.peer e

/-! ### Every operation -/

theorem valueStep_built {op : MessageOp} (hx : op.perform w = (.returned (), w'))
    (hT : Touches V w.messages.next w w') (hk : w'.kind w.messages.next = some k)
    (hp : w'.payload w.messages.next = some p) (hbuilds : op.builds = some k)
    (hc : op.constructs = some p) : ValueStep V w op := by
  refine ⟨.built w.messages.next k p, .built hbuilds hc (by rw [hx]), ?_, ?_⟩
  · exact contents_of_gone (kind_next w)
  · rw [hx, store_of_touches hT, contents_of hk hp]
    rfl

theorem valueStep_threw {op : MessageOp} {e : Error} (hx : op.perform w = (.threw e, w'))
    (hT : Touches V w.messages.next w w') (hk : w'.kind w.messages.next = none)
    (hbuilds : op.builds.isSome = true) : ValueStep V w op := by
  refine ⟨.nothing, .threw hbuilds (congrArg Prod.fst hx), trivial, ?_⟩
  have hsame : Function.update w.contents w.messages.next none = w.contents := by
    rw [Function.update_eq_self_iff]
    exact (contents_of_gone (kind_next w)).symm
  rw [hx, store_of_touches hT, contents_of_gone hk, hsame]
  rfl

theorem valueStep_empty (hZ : V.Laws) (hw : Settled V w) {op : MessageOp} {k : MessageKind}
    (hx : op.perform w = Exec.discard (Message.create k Message.init) w)
    (hbuilds : op.builds = some k) (hc : op.constructs = some []) : ValueStep V w op := by
  obtain ⟨hT, hraw, _⟩ := alloc_spec (V := V) hw.consistent k
  obtain ⟨w', hinit, hL, hp, _⟩ := Message.init_spec hZ hT.consistent hraw
  obtain ⟨hnew, hT', hk', hp'⟩ := Message.create_of_returned hw.consistent hinit hL hp
  exact valueStep_built (hx.trans (Exec.discard_of_returned hnew)) hT' hk' hp' hbuilds hc

theorem valueStep_data (hZ : V.Laws) (hw : Settled V w) {op : MessageOp} (sourceData : Bytes)
    (hx : op.perform w = Exec.discard (OutgoingMessage.newData sourceData) w)
    (hbuilds : op.builds = some .outgoing) (hc : op.constructs = some sourceData) :
    ValueStep V w op := by
  obtain ⟨hT, hraw, _⟩ := alloc_spec (V := V) hw.consistent .outgoing
  rcases Message.initData_spec hZ hT.consistent sourceData hraw with
    ⟨w', hinit, hL, hp, _⟩ | ⟨w', e, rc, hinit, hL, hs, _⟩
  · obtain ⟨hnew, hT', hk', hp'⟩ := Message.create_of_returned hw.consistent hinit hL hp
    exact valueStep_built (hx.trans (Exec.discard_of_returned hnew)) hT' hk' hp' hbuilds hc
  · obtain ⟨hnew, hT', hk⟩ := Message.create_of_threw hw.consistent hinit hL hs
    exact valueStep_threw (hx.trans (Exec.discard_of_threw hnew)) hT' hk (by rw [hbuilds]; rfl)

theorem valueStep_move (hZ : V.Laws) (hw : Settled V w) {other : ObjId}
    (ho : w.kind other = some k)
    (hx : (MessageOp.newMove other).perform w =
      Exec.discard (Message.create k (Message.initMove other)) w) :
    ValueStep V w (.newMove other) := by
  obtain ⟨p, hp, hc⟩ := hw.contents ho
  have hne : other ≠ w.messages.next := Nat.ne_of_lt (lt_next_of_payload hp)
  obtain ⟨hT, hraw, hkn⟩ := alloc_spec (V := V) hw.consistent k
  have hp₁ : (w.alloc k).payload other = some p := (hT.keeps.payloads other hne).trans hp
  obtain ⟨w', hmove, _, hf, hkind, hpn, hpo, hothers, _⟩ :=
    Message.initMove_spec hZ hT.consistent hne hraw hp₁
  have hx' : (MessageOp.newMove other).perform w = (.returned (), w') :=
    hx.trans (Exec.discard_of_returned (Message.create_apply hmove))
  have hko : w'.kind other = some k := (hkind other).trans ((hT.keeps.kinds other hne).trans ho)
  have hcontents : w'.contents =
      Function.update (Function.update w.contents other (some (k, []))) w.messages.next
        (some (k, p)) := by
    funext j
    rw [Function.update_apply, Function.update_apply]
    split_ifs with hjn hjo
    · rw [hjn]
      exact contents_of ((hkind _).trans hkn) hpn
    · rw [hjo]
      exact contents_of hko hpo
    · rw [World.contents, World.contents, hkind j, hothers j hjn hjo, hT.keeps.kinds j hjn,
        hT.keeps.payloads j hjn]
  refine ⟨.moved w.messages.next other, .moved (congrArg Prod.fst hx'), ⟨?_, ?_⟩, ?_⟩
  · exact contents_of_gone (kind_next w)
  · exact kind_of_contents (by rw [ho]; rfl) hw
  · have hframes := hT.frames.trans hf
    have hget : (w.store V).contents other = some (k, p) := hc
    rw [hx', World.store, hcontents, hframes.accepted, hframes.incoming, MessageStore.apply,
      MessageStore.write_of_get hget, hget]
    rfl

theorem store_swap (hw : Settled V w) {lhs rhs : ObjId} (hl : (w.kind lhs).isSome = true)
    (hr : (w.kind rhs).isSome = true) :
    ∃ w', Message.swap lhs rhs w = (.returned (), w') ∧
      w'.store V = (w.store V).apply V.peer (.exchanged lhs rhs) := by
  obtain ⟨k, hk⟩ := Option.isSome_iff_exists.mp hl
  obtain ⟨l, hl⟩ := Option.isSome_iff_exists.mp hr
  obtain ⟨p, hp, hcl⟩ := hw.contents hk
  obtain ⟨q, hq, hcr⟩ := hw.contents hl
  obtain ⟨w', hswap, _, hf, hkind, hpl, hpr, hothers, _⟩ := Message.swap_spec hw.consistent hp hq
  refine ⟨w', hswap, ?_⟩
  have hgetl : (w.store V).contents lhs = some (k, p) := hcl
  have hgetr : (w.store V).contents rhs = some (l, q) := hcr
  have hcontents : w'.contents = (((w.store V).write lhs q).write rhs p).contents := by
    funext j
    rw [MessageStore.contents_exchanged hgetl hgetr]
    split_ifs with hjr hjl
    · rw [hjr]
      exact contents_of ((hkind rhs).trans hl) hpr
    · rw [hjl]
      exact contents_of ((hkind lhs).trans hk) hpl
    · change w'.contents j = w.contents j
      rw [World.contents, World.contents, hkind j, hothers j hjl hjr]
  rw [MessageStore.apply, MessageStore.bytes_of_get hgetl, MessageStore.bytes_of_get hgetr]
  ext1
  · exact hcontents
  · rw [MessageStore.accepted_write, MessageStore.accepted_write]
    exact hf.accepted
  · rw [MessageStore.incoming_write, MessageStore.incoming_write]
    exact hf.incoming

theorem valueStep_send (hZ : V.Laws) (hw : Settled V w) {this : ObjId} (socket : Socket)
    (more : Bool) (h : w.kind this = some .outgoing) :
    ValueStep V w (.send this socket more) := by
  obtain ⟨p, hp, hc⟩ := hw.contents h
  have hget : (w.store V).contents this = some (.outgoing, p) := hc
  cases hs : socket.mSocket with
  | none =>
    have hx : OutgoingMessage.send this socket more w = (.aborted, w) := by
      simp only [OutgoingMessage.send, hs]
    refine ⟨.nothing, .unsent (by rw [hx]; simp), trivial, ?_⟩
    rw [MessageOp.perform, discard_of_aborted hx]
    rfl
  | some handle =>
    rcases OutgoingMessage.send_spec hZ hw.consistent hp hs more with
      ⟨w', hsend, _, hk, hsent, _⟩ | ⟨w', e, hsend, _, hk, hf, _, _⟩
    · refine ⟨.sent this handle more, .sent hs (by rw [hsend]), ?_, ?_⟩
      · change ((w.store V).contents this).map Prod.fst = some .outgoing
        rw [hget]
        rfl
      · rw [MessageOp.perform, discard_of_returned hsend, MessageStore.apply,
          MessageStore.bytes_of_get hget]
        ext1
        · funext j
          exact contents_of_keeps hk fun hj => hj
        · exact hsent.accepted
        · exact hsent.incoming
    · obtain ⟨r, hx, _⟩ := MessageOp.discard_of_failure hsend
      refine ⟨.nothing, .unsent ?_, trivial, ?_⟩
      · rw [hsend, failure]
        split_ifs <;> simp
      · rw [MessageOp.perform, hx]
        exact store_of_keeps hk hf

theorem valueStep_receive (hZ : V.Laws) (hw : Settled V w) {this : ObjId} (socket : Socket)
    (h : w.kind this = some .incoming) : ValueStep V w (.receive this socket) := by
  obtain ⟨p, hp, hc⟩ := hw.contents h
  have hget : (w.store V).contents this = some (.incoming, p) := hc
  have hkind : ((w.store V).contents this).map Prod.fst = some .incoming := by
    rw [hget]
    rfl
  cases hs : socket.mSocket with
  | none =>
    have hx : IncomingMessage.receive this socket w = (.aborted, w) := by
      simp only [IncomingMessage.receive, hs]
    refine ⟨.nothing, .unreceived hs (by rw [hx]), trivial, ?_⟩
    rw [MessageOp.perform, discard_of_aborted hx]
    rfl
  | some handle =>
    rcases IncomingMessage.receive_spec hZ hw.consistent hp hs with
      ⟨w', frame, hrecv, _, hk, hk', hp', hrcv, _⟩ | ⟨w', e, hrecv, hL, hp', _⟩
    · obtain ⟨rest, hin, hin'⟩ := hrcv.incoming
      refine ⟨.taken this handle, .taken hs (by rw [hin]; rfl) (by rw [hrecv]), ⟨hkind, ?_⟩, ?_⟩
      · change V.incoming w.zmq handle ≠ []
        rw [hin]
        simp
      · have hin₁ : (w.store V).incoming handle = frame :: rest := hin
        rw [MessageOp.perform, discard_of_returned hrecv, MessageStore.apply_taken _ hin₁,
          MessageStore.write_of_get hget]
        ext1
        · change w'.contents = _
          rw [contents_update hk, contents_of (hk'.trans h) hp']
          rfl
        · exact hrcv.accepted
        · exact hin'
    · obtain ⟨r, hx, _⟩ := MessageOp.discard_of_failure hrecv
      refine ⟨.emptied this, .untaken (by simp [hs]) (fun more => ?_), hkind, ?_⟩
      · rw [hrecv, failure]
        split_ifs <;> simp
      · rw [MessageOp.perform, hx, store_of_touches hL.toTouches,
          contents_of (hL.kind_eq.trans h) hp', MessageStore.apply,
          MessageStore.write_of_get hget]
        rfl

theorem valueStep_destroy (hZ : V.Laws) (hw : Settled V w) {this : ObjId}
    (h : (w.kind this).isSome = true) : ValueStep V w (.destroy this) := by
  obtain ⟨p, hp⟩ := hw.payload h
  obtain ⟨w', hdestroy, hT, hk, _, _⟩ := Message.destroy_spec hZ hw.consistent hp
  have hx : (MessageOp.destroy this).perform w = (.returned (), w') := hdestroy
  refine ⟨.destroyed this, .destroyed (by rw [hx]), kind_of_contents h hw, ?_⟩
  rw [hx, store_of_touches hT, contents_of_gone hk]
  rfl

theorem valueStep_transport (hZ : V.Laws) (hw : Settled V w) (n : ℕ) :
    ValueStep V w (.transport n) := by
  have hspec := stepSpec_transport hZ hw n
  obtain ⟨_, hacc, _, hin⟩ := hspec.frames
  choose messages hne hmessages using hin
  refine ⟨.arrived messages, .arrived, hne, ?_⟩
  ext1
  · funext j
    apply contents_of_keeps hspec.keeps
    rintro (hj | ⟨hj | ⟨other, hj⟩, _⟩) <;> cases hj
  · exact hacc
  · funext g
    exact hmessages g

/-- Every operation, from any state between operations. -/
theorem valueStep (hZ : V.Laws) (hw : Settled V w) {op : MessageOp} (hop : op.Allowed w) :
    ValueStep V w op := by
  cases op with
  | newOutgoing => exact valueStep_empty hZ hw (k := .outgoing) rfl rfl rfl
  | newData sourceData => exact valueStep_data hZ hw sourceData rfl rfl rfl
  | newCString sourceData =>
    exact valueStep_data hZ hw (OutgoingMessage.cString sourceData) rfl rfl rfl
  | newIncoming => exact valueStep_empty hZ hw (k := .incoming) rfl rfl rfl
  | newMove other =>
    obtain ⟨k, hk⟩ := Option.isSome_iff_exists.mp hop
    apply valueStep_move hZ hw hk
    cases k <;> simp only [MessageOp.perform, hk] <;> rfl
  | assignMove this other =>
    obtain ⟨w', hswap, hstore⟩ := store_swap (V := V) hw hop.1 hop.2
    have hx : (MessageOp.assignMove this other).perform w = (.returned (), w') := hswap
    exact ⟨.exchanged this other, .assigned (by rw [hx]),
      ⟨kind_of_contents hop.1 hw, kind_of_contents hop.2 hw⟩, by rw [hx, hstore]⟩
  | swap lhs rhs =>
    obtain ⟨w', hswap, hstore⟩ := store_swap (V := V) hw hop.1 hop.2
    have hx : (MessageOp.swap lhs rhs).perform w = (.returned (), w') := hswap
    exact ⟨.exchanged lhs rhs, .swapped (by rw [hx]),
      ⟨kind_of_contents hop.1 hw, kind_of_contents hop.2 hw⟩, by rw [hx, hstore]⟩
  | send this socket more => exact valueStep_send hZ hw socket more hop
  | receive this socket => exact valueStep_receive hZ hw socket hop
  | destroy this => exact valueStep_destroy hZ hw hop
  | transport n => exact valueStep_transport hZ hw n

/-- Every run of constructions, moves, swaps, transfers and destructions is explained
by a run of the machine of values and queues, from what the start shows to what the
end shows, whatever content libzmq shares and whichever calls it refuses. -/
theorem messages_are_values (hZ : V.Laws) (hw : Settled V w) {ops : List MessageOp}
    (hops : (messageMachine Z).Admissible w ops) :
    ∃ events, (messageMachine Z).Explained (Explains V) w ops events ∧
      (storeMachine V.peer).Admissible (w.store V) events ∧
      ((messageMachine Z).run w ops).store V = (storeMachine V.peer).run (w.store V) events := by
  have hstep : ∀ (u : World Z) (s : MessageStore) (op : MessageOp),
      Settled V u ∧ u.store V = s → (messageMachine Z).Allowed u op →
      ∃ e, Explains V u op e ∧ (storeMachine V.peer).Allowed s e ∧
        Settled V ((messageMachine Z).step u op) ∧
          ((messageMachine Z).step u op).store V = (storeMachine V.peer).step s e := by
    rintro u _ op ⟨hu, rfl⟩ hop
    obtain ⟨e, he, hallowed, hstore⟩ := valueStep hZ hu hop
    exact ⟨e, he, hallowed, (step_spec hZ hu hop).settled, hstore⟩
  obtain ⟨events, hexplained, hadm, hrun⟩ := Machine.run_explained hstep ⟨hw, rfl⟩ hops
  exact ⟨events, hexplained, hadm, hrun.2⟩

end Values

theorem messages_are_values_tour :
    ∃ events, (messageMachine (Loopback.loopback true)).Explained (Explains (Loopback.view true))
        (World.initial (Loopback.State.start Loopback.tourScript)) Loopback.tour events ∧
      Loopback.tourEnd.store (Loopback.view true) =
        (storeMachine (Loopback.view true).peer).run
          ((World.initial (Loopback.State.start Loopback.tourScript)).store (Loopback.view true))
          events := by
  obtain ⟨events, hexplained, _, hrun⟩ := messages_are_values Loopback.laws
    (settled_initial (Loopback.initial Loopback.tourScript)) Loopback.tour_admissible
  exact ⟨events, hexplained, hrun⟩

end CpperoMQ
