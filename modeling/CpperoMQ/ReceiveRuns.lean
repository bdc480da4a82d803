import CpperoMQ.ReceivingSocket

/-!
# Message boundaries over runs of receive calls

Messages arrive whole at a socket and calls of `ReceivingSocket::receive` are
made on it, with other operations on messages in between. As long as no call
starts on a message with more frames than it has leaves, every call starts at
the first frame of a message, and the successful calls read arrived messages in
order. A message that is too long for a call is cut in two.
-/
namespace CpperoMQ
open Effects Effects.Exec Libzmq.View World

/-- Inside a message, libzmq hands out the next frame: its parts are available
together. -/
def Libzmq.View.PartsTogether {Z : Libzmq} (V : Z.View) (h : Handle) : Prop :=
  ∀ σ m, V.Valid σ m → V.midMessage σ h = true → V.incoming σ h ≠ [] →
    0 ≤ (Z.msgRecv m h 0 σ).1

/-- The socket a single message is received from. -/
def MessageOp.receivesOn : MessageOp → Option Handle
  | .receive _ socket => socket.mSocket
  | _ => none

inductive ReceiveStep where
  | call (receivables : List Receivable)
  | other (op : MessageOp)

/-- The state of a run, with the messages that have arrived at the socket so far
and what the calls that returned true left in their leaves. -/
structure ReceiveRun (Z : Libzmq) where
  world : World Z
  arrived : List (List Bytes)
  received : List (List Bytes)

section Runs
variable {Z : Libzmq} {V : Z.View} {w w' : World Z} {h : Handle} {socket : Socket}

/-- The messages that became due to the socket from `w` to `w'`. -/
def arrivals (V : Z.View) (h : Handle) (w w' : World Z) : List (List Bytes) :=
  Framing.completed ((V.incoming w'.zmq h).drop (V.incoming w.zmq h).length)

def ReceiveRun.step (V : Z.View) (h : Handle) (socket : Socket) (s : ReceiveRun Z) :
    ReceiveStep → ReceiveRun Z
  | .call receivables =>
    match ReceivingSocket.receive socket receivables s.world with
    | (.returned true, w) =>
      ⟨w, s.arrived, s.received ++ [w.payloads (PartTree.forestLeaves receivables)]⟩
    | (_, w) => ⟨w, s.arrived, s.received⟩
  | .other op =>
    ⟨(op.perform s.world).2, s.arrived ++ arrivals V h s.world (op.perform s.world).2, s.received⟩

def ReceiveRun.Allowed (h : Handle) (s : ReceiveRun Z) : ReceiveStep → Prop
  | .call receivables => receivables ≠ [] ∧ (PartTree.forestLeaves receivables).Nodup ∧
    ∀ i ∈ PartTree.forestLeaves receivables, s.world.kind i = some .incoming
  | .other op => op.Allowed s.world ∧ op.receivesOn ≠ some h

def receiveMachine (V : Z.View) (h : Handle) (socket : Socket) :
    Machine (ReceiveRun Z) ReceiveStep where
  step := ReceiveRun.step V h socket
  Allowed := ReceiveRun.Allowed h

/-- The message at the head of the socket has no more frames than the call has
leaves, unless `zmq_msg_recv` refuses the first frame to the first leaf. -/
def HeadFits (V : Z.View) (h : Handle) (socket : Socket) (s : ReceiveRun Z) :
    ReceiveStep → Prop
  | .call receivables =>
    (∃ i, (PartTree.forestLeaves receivables).head? = some i ∧
      0 ≤ IncomingMessage.receiveCode i socket s.world) →
      ∀ msg rest, msg ≠ [] → V.incoming s.world.zmq h = Framing.message msg ++ rest →
        msg.length ≤ (PartTree.forestLeaves receivables).length
  | .other _ => True

/-- Between calls the socket is at a message boundary, and what was received are
some of the messages that are no longer due, in order. -/
structure ReceiveRun.Whole (V : Z.View) (h : Handle) (s : ReceiveRun Z)
    (gone due : List (List Bytes)) : Prop where
  settled : Settled V s.world
  arrived : s.arrived = gone ++ due
  received : s.received.Sublist gone
  nonempty : ∀ m ∈ due, m ≠ []
  incoming : V.incoming s.world.zmq h = Framing.stream due
  boundary : V.midMessage s.world.zmq h = false

/-- Other operations at most make more whole messages due. -/
theorem incoming_of_other (hZ : V.Laws) (hw : Settled V w) {op : MessageOp} (hop : op.Allowed w)
    (hh : op.receivesOn ≠ some h) :
    V.midMessage (op.perform w).2.zmq h = V.midMessage w.zmq h ∧
      ∃ messages : List (List Bytes), (∀ m ∈ messages, m ≠ []) ∧
        V.incoming (op.perform w).2.zmq h = V.incoming w.zmq h ++ Framing.stream messages := by
  have hsame : ∀ {u : World Z}, SameFrames V w u → V.midMessage u.zmq h = V.midMessage w.zmq h ∧
      ∃ messages : List (List Bytes), (∀ m ∈ messages, m ≠ []) ∧
        V.incoming u.zmq h = V.incoming w.zmq h ++ Framing.stream messages := by
    intro u hu
    exact ⟨by rw [hu.midMessage], [], by simp, by rw [hu.incoming]; simp⟩
  have hf := (step_spec hZ hw hop).frames
  cases op with
  | send this sock more =>
    rcases hf with ⟨_, heq⟩ | ⟨g, bytes, hg, _, ⟨hsent, _⟩ | ⟨e, hse, _⟩⟩
    · rw [heq]
      exact hsame (SameFrames.refl w)
    · refine ⟨by rw [hsent.midMessage], ?_⟩
      rw [hsent.incoming]
      cases more with
      | true => exact ⟨[], by simp, by simp⟩
      | false =>
        by_cases hp : V.peer g = some h
        · refine ⟨[Framing.openParts (V.accepted w.zmq g) ++ [bytes]], by simp, ?_⟩
          show (if V.peer g = some h then _ else _) = _
          rw [if_pos hp, Framing.stream_cons, Framing.stream_nil, List.append_nil]
        · refine ⟨[], by simp, ?_⟩
          show (if V.peer g = some h then _ else _) = _
          rw [if_neg hp, Framing.stream_nil, List.append_nil]
    · exact hsame hse
  | receive this sock =>
    rcases hf with hse | ⟨g, frame, hg, hrcv, _⟩
    · exact hsame hse
    · have hgh : h ≠ g := by
        rintro rfl
        exact hh hg
      obtain ⟨rest, _, hin⟩ := hrcv.incoming
      refine ⟨by rw [hrcv.midMessage, Function.update_of_ne hgh], [], by simp, ?_⟩
      rw [hin, Function.update_of_ne hgh]
      simp
  | transport n => exact ⟨by rw [hf.2.2.1], hf.2.2.2 h⟩
  | _ => exact hsame hf

/-- The first leaf receives a frame that was due, or the call fails there and takes
nothing. -/
theorem receive_first (hZ : V.Laws) (hs : socket.mSocket = some h) (hw : Settled V w)
    {receivables : List Receivable} (hne : receivables ≠ [])
    (hlive : ∀ i ∈ PartTree.forestLeaves receivables, w.kind i = some .incoming) :
    (V.incoming w.zmq h ≠ [] ∧
      ∃ i, (PartTree.forestLeaves receivables).head? = some i ∧
        0 ≤ IncomingMessage.receiveCode i socket w) ∨
    ∃ w' i e, ReceivingSocket.receive socket receivables w = (failure false e, w') ∧
      Took V h [] [] [i] w w' := by
  have his : PartTree.forestLeaves receivables ≠ [] :=
    fun hnil => hne (PartTree.forestLeaves_eq_nil.mp hnil)
  rw [ReceivingSocket.receive_eq_leaves socket hne]
  obtain ⟨i, is, hcons⟩ := List.exists_cons_of_ne_nil his
  rw [hcons] at hlive ⊢
  rcases IncomingMessage.receive_took hZ hw (hlive i (by simp)) hs with
    ⟨w₁, f, hx, hT, hcode, _⟩ | ⟨w₁, e, hx, hT, _⟩
  · refine Or.inl ⟨fun hnil => ?_, i, rfl, hcode⟩
    have hhead := hT.incoming
    rw [hnil] at hhead
    cases hhead
  · refine Or.inr ⟨w₁, i, e, ?_, hT⟩
    have hleaves := memberThen_of_failure hx is.isEmpty fun more => receiveLeaves socket more is
    exact wholeMessage_of_failure hleaves

/-- A call that ends in a failure leaves the run where it was. -/
theorem step_of_failure {s : ReceiveRun Z} {receivables : List Receivable} {e : ℤ}
    (hx : ReceivingSocket.receive socket receivables s.world = (failure false e, w')) :
    ReceiveRun.step V h socket s (.call receivables) = ⟨w', s.arrived, s.received⟩ := by
  unfold failure at hx
  split_ifs at hx with he <;> simp only [ReceiveRun.step, hx]

theorem Whole.of_untouched {s : ReceiveRun Z} {gone due : List (List Bytes)}
    (hI : s.Whole V h gone due) {emptied : List ObjId} (hT : Took V h [] [] emptied s.world w') :
    ReceiveRun.Whole V h ⟨w', s.arrived, s.received⟩ gone due where
  settled := hT.settled
  arrived := hI.arrived
  received := hI.received
  nonempty := hI.nonempty
  incoming := by
    have hh := hT.incoming
    rw [hI.incoming, List.nil_append] at hh
    exact hh.symm
  boundary := by
    rw [hT.midMessage, hI.boundary]
    rfl

/-- A call that libzmq refuses nothing, on a message that fits its leaves. -/
theorem whole_of_taken {s : ReceiveRun Z} {gone due : List (List Bytes)} {msg : List Bytes}
    {receivables : List Receivable} (hI : s.Whole V h gone (msg :: due))
    (hle : msg.length ≤ (PartTree.forestLeaves receivables).length)
    (hx : ReceivingSocket.receive socket receivables s.world = (.returned
      (decide ((PartTree.forestLeaves receivables).length = msg.length)), w'))
    (hT : Took V h ((PartTree.forestLeaves receivables).take msg.length)
      ((Framing.message msg).take (PartTree.forestLeaves receivables).length) [] s.world w') :
    (ReceiveRun.step V h socket s (.call receivables)).Whole V h (gone ++ [msg]) due := by
  have hmsg : msg ≠ [] := hI.nonempty msg (by simp)
  have hall : (Framing.message msg).take (PartTree.forestLeaves receivables).length =
      Framing.message msg := by
    apply List.take_of_length_le
    rw [Framing.message_length]
    exact hle
  rw [hall] at hT
  have hin : V.incoming w'.zmq h = Framing.stream due := by
    have hh := hT.incoming
    rw [hI.incoming, Framing.stream_cons] at hh
    exact (List.append_cancel_left hh).symm
  have hmid : V.midMessage w'.zmq h = false := by
    rw [hT.midMessage, Framing.message_last_more hmsg]
    rfl
  have harrived : s.arrived = (gone ++ [msg]) ++ due := by rw [hI.arrived]; simp
  have hnonempty : ∀ m ∈ due, m ≠ [] := fun m hm => hI.nonempty m (by simp [hm])
  by_cases heq : (PartTree.forestLeaves receivables).length = msg.length
  · have hreading : w'.payloads (PartTree.forestLeaves receivables) = msg := by
      rw [← heq, List.take_length] at hT
      exact hT.readings
    rw [decide_eq_true heq] at hx
    have hstep : ReceiveRun.step V h socket s (.call receivables) =
        ⟨w', s.arrived, s.received ++ [msg]⟩ := by
      simp only [ReceiveRun.step, hx, hreading]
    rw [hstep]
    exact ⟨hT.settled, harrived, hI.received.append_right [msg] |>.trans (by simp), hnonempty,
      hin, hmid⟩
  · rw [decide_eq_false heq] at hx
    have hstep : ReceiveRun.step V h socket s (.call receivables) =
        ⟨w', s.arrived, s.received⟩ := by
      simp only [ReceiveRun.step, hx]
    rw [hstep]
    exact ⟨hT.settled, harrived, hI.received.trans (List.sublist_append_left gone [msg]),
      hnonempty, hin, hmid⟩

/-- Inside a message nothing is refused, so a call fails at its first leaf only. -/
theorem refused_at_start (hparts : V.PartsTogether h) {is : List ObjId} {msg : List Bytes}
    {j : ℕ} (hj : j < msg.length) {rest : List (Frame Bytes)}
    (hin : V.incoming w.zmq h = Framing.message msg ++ rest)
    (hT : Took V h is ((Framing.message msg).take j) [] w w') (hr : RecvRefused V h w') :
    j = 0 := by
  by_contra hne
  obtain ⟨σ, m, hvalid, hσin, hσmid, hneg⟩ := hr
  have hmid : V.midMessage σ h = true := by
    rw [hσmid, hT.midMessage, Framing.message_take_more (Nat.pos_of_ne_zero hne) hj]
    rfl
  have hmore : V.incoming σ h ≠ [] := by
    rw [hσin]
    exact hT.still_due hin hj
  have hpos := hparts σ m hvalid hmid hmore
  omega

theorem whole_step (hZ : V.Laws) (hs : socket.mSocket = some h) (hparts : V.PartsTogether h)
    (s : ReceiveRun Z) (step : ReceiveStep) (hwhole : ∃ gone due, s.Whole V h gone due)
    (hstep : ReceiveRun.Allowed h s step) (hfits : HeadFits V h socket s step) :
    ∃ gone due, (ReceiveRun.step V h socket s step).Whole V h gone due := by
  obtain ⟨gone, due, hI⟩ := hwhole
  cases step with
  | call receivables =>
    obtain ⟨hne, hnodup, hlive⟩ := hstep
    rcases receive_first hZ hs hI.settled hne hlive with
      ⟨hdue, hfirst⟩ | ⟨w', i, e, hx, hT⟩
    · cases due with
      | nil => exact absurd hI.incoming hdue
      | cons msg due =>
        have hmsg : msg ≠ [] := hI.nonempty msg (by simp)
        have hin := hI.incoming
        rw [Framing.stream_cons] at hin
        have hle := hfits hfirst msg _ hmsg hin
        rcases ReceivingSocket.receive_spec hZ hs hI.settled hne hnodup hlive hmsg hin with
          ⟨w', hx, hT, _⟩ | ⟨w', j, i, e, hj, _, hx, hT, ⟨u, hu, hrefused, _⟩, _⟩
        · exact ⟨gone ++ [msg], due, whole_of_taken hI hle hx hT⟩
        · obtain rfl : j = 0 := refused_at_start hparts (by omega) hin hu hrefused
          rw [step_of_failure hx]
          exact ⟨gone, msg :: due, Whole.of_untouched hI hT⟩
    · rw [step_of_failure hx]
      exact ⟨gone, due, Whole.of_untouched hI hT⟩
  | other op =>
    obtain ⟨hmid, messages, hne, hin⟩ := incoming_of_other hZ hI.settled hstep.1 hstep.2
    have harrivals : arrivals V h s.world (op.perform s.world).2 = messages := by
      rw [arrivals, hin, List.drop_left, Framing.completed, Framing.assemble_stream hne]
    refine ⟨gone, due ++ messages, (step_spec hZ hI.settled hstep.1).settled, ?_, hI.received,
      ?_, ?_, hmid.trans hI.boundary⟩
    · show s.arrived ++ arrivals V h s.world (op.perform s.world).2 = gone ++ (due ++ messages)
      rw [harrivals, hI.arrived, List.append_assoc]
    · intro m hm
      rcases List.mem_append.mp hm with hm | hm
      · exact hI.nonempty m hm
      · exact hne m hm
    · show V.incoming (op.perform s.world).2.zmq h = _
      rw [hin, hI.incoming, Framing.stream_append]

/-- On a socket where only whole messages arrive, as long as no call starts on a
message with more frames than it has leaves, the calls that return true read
arrived messages in order, each exactly, and every call starts at the first frame
of a message. -/
theorem receives_whole_messages (hZ : V.Laws) (hs : socket.mSocket = some h)
    (hparts : V.PartsTogether h) (hw : Settled V w) {due : List (List Bytes)}
    (hdue : ∀ m ∈ due, m ≠ []) (hin : V.incoming w.zmq h = Framing.stream due)
    (hmid : V.midMessage w.zmq h = false) {steps : List ReceiveStep}
    (hsteps : ((receiveMachine V h socket).restrict (HeadFits V h socket)).Admissible
      ⟨w, due, []⟩ steps) :
    let s := (receiveMachine V h socket).run ⟨w, due, []⟩ steps
    s.received.Sublist s.arrived ∧ V.midMessage s.world.zmq h = false ∧
      ∃ gone left, s.arrived = gone ++ left ∧ V.incoming s.world.zmq h = Framing.stream left := by
  intro s
  have hrun : ∃ gone left, s.Whole V h gone left := by
    apply Machine.run_invariant (M := (receiveMachine V h socket).restrict (HeadFits V h socket))
      (I := fun s => ∃ gone left, ReceiveRun.Whole V h s gone left) ?_
      ⟨[], due, hw, rfl, List.Sublist.refl [], hdue, hin, hmid⟩ hsteps
    intro s step hwhole hstep
    exact whole_step hZ hs hparts s step hwhole hstep.1 hstep.2
  obtain ⟨gone, left, hI⟩ := hrun
  refine ⟨?_, hI.boundary, gone, left, hI.arrived, hI.incoming⟩
  rw [hI.arrived]
  exact hI.received.trans (List.sublist_append_left gone left)

end Runs

theorem Loopback.partsTogether (scripted : Bool) (h : Handle) :
    (Loopback.view scripted).PartsTogether h := by
  intro σ m _ hmid hin
  show 0 ≤ (Loopback.recv scripted m h 0 σ).1
  unfold Loopback.recv
  have hinside : σ.inside h = true := hmid
  rw [if_pos hinside]
  exact Loopback.next_available m hin

namespace Loopback

/-- Receive calls on socket 1, to which a message of two parts is due. -/
def receiveEnd (steps : List ReceiveStep) : ReceiveRun (loopback true) :=
  (receiveMachine (view true) 1 ⟨some 1⟩).run ⟨arrivalEnd, [[[1], [2]]], []⟩ steps

end Loopback

theorem receives_whole_messages_pair :
    (Loopback.receiveEnd [.call [Loopback.pair 2 3]]).received.Sublist
      (Loopback.receiveEnd [.call [Loopback.pair 2 3]]).arrived := by
  have hs : (⟨some 1⟩ : Socket).mSocket = some 1 := rfl
  have hin : (Loopback.view true).incoming Loopback.arrivalEnd.zmq 1 =
      Framing.stream [[[1], [2]]] := rfl
  have hlive : ∀ i ∈ PartTree.forestLeaves [Loopback.pair 2 3],
      Loopback.arrivalEnd.kind i = some .incoming := by
    intro i hi
    rw [Loopback.pair_leaves] at hi
    rcases List.mem_pair.mp hi with rfl | rfl <;> rfl
  have hadm : ((receiveMachine (Loopback.view true) 1 ⟨some 1⟩).restrict
      (HeadFits (Loopback.view true) 1 ⟨some 1⟩)).Admissible
      ⟨Loopback.arrivalEnd, [[[1], [2]]], []⟩ [.call [Loopback.pair 2 3]] := by
    refine ⟨⟨⟨by simp, by rw [Loopback.pair_leaves]; decide, hlive⟩, ?_⟩, trivial⟩
    intro _ msg rest _ hmsg
    have hlen := congrArg List.length hmsg
    have htwo : (Framing.stream ([[[1], [2]]] : List (List Bytes))).length = 2 := rfl
    rw [List.length_append, Framing.message_length, hin, htwo] at hlen
    show msg.length ≤ 2
    omega
  exact (receives_whole_messages Loopback.laws hs (Loopback.partsTogether true 1)
    Loopback.arrivalEnd_settled (by simp) hin rfl hadm).1

/-- A message of two parts and two calls with one leaf each: the second call
returns true with the part that was left over. -/
theorem receives_part_of_message :
    (receiveMachine (Loopback.view true) 1 ⟨some 1⟩).Admissible
        ⟨Loopback.arrivalEnd, [[[1], [2]]], []⟩ [.call [.leaf 2], .call [.leaf 3]] ∧
      (Loopback.receiveEnd [.call [.leaf 2], .call [.leaf 3]]).received = [[[2]]] ∧
      (Loopback.receiveEnd [.call [.leaf 2], .call [.leaf 3]]).arrived = [[[1], [2]]] := by
  have hleaf : ∀ {w : World (Loopback.loopback true)} {i : ObjId}, w.kind i = some .incoming →
      ∀ j ∈ PartTree.forestLeaves ([.leaf i] : List Receivable), w.kind j = some .incoming := by
    intro w i hi j hj
    rw [List.mem_singleton.mp hj]
    exact hi
  refine ⟨⟨⟨by simp, List.nodup_singleton 2, hleaf rfl⟩,
    ⟨by simp, List.nodup_singleton 3, hleaf rfl⟩, trivial⟩, ?_, ?_⟩
  · decide +kernel
  · decide +kernel

end CpperoMQ
