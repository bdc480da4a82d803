import CpperoMQ.SendingSocket
import CpperoMQ.ReceivingSocket

/-!
# Multipart round trips between two sockets

Calls of `send` on one socket and of `receive` on its peer alternate in any way
in which every receive comes after the send it answers. Where a receive has as
many leaves as the send had, its leaves show the payloads that were sent, left
to right, however both sides group their parts.
-/
namespace CpperoMQ
open Effects Effects.Exec Libzmq.View World

/-- One call on one of the two sockets. -/
inductive Turn where
  | send (sendables : List Sendable)
  | receive (receivables : List Receivable)

/-- The state of an exchange: how the calls ended, the payloads of the sends and
what the receives left in their leaves. -/
structure Exchange (Z : Libzmq) where
  world : World Z
  outcomes : List (Outcome Error Bool)
  sent : List (List Bytes)
  received : List (List Bytes)

section Exchanges
variable {Z : Libzmq} {V : Z.View} {w w' : World Z} {sender receiver : Handle}

def Exchange.start (w : World Z) : Exchange Z := ⟨w, [], [], []⟩

def Exchange.step (out inc : Socket) (s : Exchange Z) : Turn → Exchange Z
  | .send sendables =>
    let r := SendingSocket.send out sendables s.world
    ⟨r.2, s.outcomes ++ [r.1],
      s.sent ++ [s.world.payloads (PartTree.forestLeaves sendables)], s.received⟩
  | .receive receivables =>
    let r := ReceivingSocket.receive inc receivables s.world
    ⟨r.2, s.outcomes ++ [r.1], s.sent,
      s.received ++ [r.2.payloads (PartTree.forestLeaves receivables)]⟩

/-- A send has arguments that refuse nothing; a receive has distinct leaves, as
many as the send it answers had. -/
def Exchange.Allowed (s : Exchange Z) : Turn → Prop
  | .send sendables => sendables ≠ [] ∧ PartTree.ForestAllLabels (· = none) sendables ∧
    ∀ i ∈ PartTree.forestLeaves sendables, s.world.kind i = some .outgoing
  | .receive receivables => (PartTree.forestLeaves receivables).Nodup ∧
    (∀ i ∈ PartTree.forestLeaves receivables, s.world.kind i = some .incoming) ∧
    ∃ msg, s.sent[s.received.length]? = some msg ∧
      (PartTree.forestLeaves receivables).length = msg.length

def exchangeMachine (Z : Libzmq) (out inc : Socket) : Machine (Exchange Z) Turn where
  step := Exchange.step out inc
  Allowed := Exchange.Allowed

/-- libzmq refuses nothing in this call: it takes every frame that is offered to it, and
gives a frame to every leaf that receives while one is due. -/
def Exchange.Served (V : Z.View) (receiver : Handle) (out inc : Socket) (s : Exchange Z) :
    Turn → Prop
  | .send sendables => false ∉ Plan.answers out (SendingSocket.plan sendables).frames s.world
  | .receive receivables =>
    ∀ v ∈ ReceivingSocket.visits inc (PartTree.forestLeaves receivables) s.world,
      V.incoming v.2.zmq receiver ≠ [] → 0 ≤ IncomingMessage.receiveCode v.1 inc v.2

/-- What was received is what was sent first, and the rest is due. -/
structure Exchange.InStep (V : Z.View) (sender receiver : Handle) (s : Exchange Z)
    (due : List (List Bytes)) : Prop where
  settled : Settled V s.world
  succeeded : ∀ r ∈ s.outcomes, r = .returned true
  sent : s.sent = s.received ++ due
  nonempty : ∀ m ∈ due, m ≠ []
  closed : Framing.openParts (V.accepted s.world.zmq sender) = []
  incoming : V.incoming s.world.zmq receiver = Framing.stream due

theorem payloads_ne_nil {ν : Type} (w : World Z) {ts : List (PartTree ν ObjId)} (h : ts ≠ []) :
    w.payloads (PartTree.forestLeaves ts) ≠ [] := by
  intro hnil
  exact h (PartTree.forestLeaves_eq_nil.mp (List.map_eq_nil_iff.mp hnil))

theorem append_succeeded {outcomes : List (Outcome Error Bool)}
    (h : ∀ r ∈ outcomes, r = .returned true) :
    ∀ r ∈ outcomes ++ [.returned true], r = .returned true := by
  intro r hr
  rcases List.mem_append.mp hr with hr | hr
  · exact h r hr
  · exact List.mem_singleton.mp hr

/-- A message handed over from a boundary becomes due to the peer. -/
theorem Handed.delivered {parts : List Bytes} (hne : parts ≠ [])
    (hh : Handed V sender (Framing.message parts) w w')
    (hopen : Framing.openParts (V.accepted w.zmq sender) = [])
    (hpeer : V.peer sender = some receiver) :
    Framing.openParts (V.accepted w'.zmq sender) = [] ∧
      V.incoming w'.zmq receiver = V.incoming w.zmq receiver ++ Framing.message parts := by
  have hone := Framing.assemble_message [] hne []
  rw [List.append_nil, List.nil_append] at hone
  constructor
  · rw [hh.accepted, Function.update_self, Framing.openParts_append, hopen, hone]
    rfl
  · rw [hh.incoming, hopen, hone]
    show (if V.peer sender = some receiver then _ else _) = _
    rw [if_pos hpeer]

theorem send_in_step (hZ : V.Laws) (hpeer : V.peer sender = some receiver) {out : Socket}
    (inc : Socket) (hout : out.mSocket = some sender) {s : Exchange Z} {due : List (List Bytes)}
    (hI : s.InStep V sender receiver due) {sendables : List Sendable}
    (hstep : s.Allowed (.send sendables))
    (hserved : s.Served V receiver out inc (.send sendables)) :
    (s.step out inc (.send sendables)).InStep V sender receiver
      (due ++ [s.world.payloads (PartTree.forestLeaves sendables)]) := by
  obtain ⟨hne, hlabels, hlive⟩ := hstep
  have hcomp : (SendingSocket.plan sendables).completes = true :=
    Sendable.plan_completes.2 sendables hlabels false
  obtain ⟨w', hx, hh⟩ := send_of_taken hZ hout hI.settled hlive hcomp hserved
  have hparts := payloads_ne_nil s.world hne
  obtain ⟨hopen, hin⟩ := hh.delivered hparts hI.closed hpeer
  have hnext : s.step out inc (.send sendables) = ⟨w', s.outcomes ++ [.returned true],
      s.sent ++ [s.world.payloads (PartTree.forestLeaves sendables)], s.received⟩ := by
    simp only [Exchange.step, hx]
  rw [hnext]
  constructor
  case settled => exact hh.settled
  case succeeded => exact append_succeeded hI.succeeded
  case sent => rw [hI.sent, List.append_assoc]
  case nonempty =>
    intro x hx'
    rcases List.mem_append.mp hx' with hx' | hx'
    · exact hI.nonempty x hx'
    · rw [List.mem_singleton.mp hx']
      exact hparts
  case closed => exact hopen
  case incoming =>
    rw [hin, hI.incoming, Framing.stream_append, Framing.stream_cons, Framing.stream_nil,
      List.append_nil]

theorem receive_in_step (hZ : V.Laws) (out : Socket) {inc : Socket}
    (hinc : inc.mSocket = some receiver) {s : Exchange Z} {due : List (List Bytes)}
    (hI : s.InStep V sender receiver due) {receivables : List Receivable}
    (hstep : s.Allowed (.receive receivables))
    (hserved : s.Served V receiver out inc (.receive receivables)) :
    ∃ due', (s.step out inc (.receive receivables)).InStep V sender receiver due' := by
  obtain ⟨hnodup, hlive, msg, hmsg, hlen⟩ := hstep
  rw [hI.sent, List.getElem?_append_right le_rfl, Nat.sub_self] at hmsg
  obtain ⟨due, rfl⟩ : ∃ rest, due = msg :: rest := by
    cases due with
    | nil => cases hmsg
    | cons m rest => exact ⟨rest, by rw [Option.some.inj hmsg]⟩
  have hne : msg ≠ [] := hI.nonempty msg (by simp)
  have hin := hI.incoming
  rw [Framing.stream_cons] at hin
  have hargs : receivables ≠ [] := by
    rintro rfl
    exact hne (List.eq_nil_of_length_eq_zero hlen.symm)
  rcases ReceivingSocket.receive_spec hZ hinc hI.settled hargs hnodup hlive hne hin with
    ⟨w', hx, hT, _⟩ | ⟨_, j, i, _, hj, _, _, _, ⟨u, hu, _, hvisit, hcode⟩, _⟩
  · have hall : (Framing.message msg).take msg.length = Framing.message msg := by
      rw [← Framing.message_length msg, List.take_length]
    rw [decide_eq_true hlen] at hx
    rw [hlen, hall, ← hlen, List.take_length] at hT
    have hnext : s.step out inc (.receive receivables) =
        ⟨w', s.outcomes ++ [.returned true], s.sent, s.received ++ [msg]⟩ := by
      simp only [Exchange.step, hx, hT.readings]
    refine ⟨due, ?_⟩
    rw [hnext]
    constructor
    case settled => exact hT.settled
    case succeeded => exact append_succeeded hI.succeeded
    case sent => rw [hI.sent, List.append_assoc]; rfl
    case nonempty => exact fun x hx' => hI.nonempty x (by simp [hx'])
    case closed =>
      rw [hT.accepted]
      exact hI.closed
    case incoming =>
      have hh := hT.incoming
      rw [hin] at hh
      exact (List.append_cancel_left hh).symm
  · -- a frame of the message was due when the transfer was refused
    exact absurd (hserved (i, u) hvisit (hu.still_due hin (by omega))) hcode

/-- Over a fresh connection, in every exchange in which libzmq refuses nothing and each
receive answers a send with as many leaves, all calls return true, the receives read
what was sent, in order, and when all sends are answered nothing is left. -/
theorem exchange_round_trip (hZ : V.Laws) (hpeer : V.peer sender = some receiver)
    {out inc : Socket} (hout : out.mSocket = some sender) (hinc : inc.mSocket = some receiver)
    (hw : Settled V w) (hopen : Framing.openParts (V.accepted w.zmq sender) = [])
    (hin : V.incoming w.zmq receiver = []) {turns : List Turn}
    (hturns : ((exchangeMachine Z out inc).restrict
      (Exchange.Served V receiver out inc)).Admissible (.start w) turns) :
    let s := (exchangeMachine Z out inc).run (.start w) turns
    (∀ r ∈ s.outcomes, r = .returned true) ∧ s.received = s.sent.take s.received.length ∧
      (s.received.length = s.sent.length →
        s.received = s.sent ∧ V.incoming s.world.zmq receiver = []) := by
  intro s
  have hrun : ∃ due, s.InStep V sender receiver due := by
    apply Machine.run_invariant
      (M := (exchangeMachine Z out inc).restrict (Exchange.Served V receiver out inc))
      (I := fun s => ∃ due, Exchange.InStep V sender receiver s due) ?_
      ⟨[], hw, by simp [Exchange.start], rfl, by simp, hopen, hin⟩ hturns
    rintro s turn ⟨due, hI⟩ ⟨hturn, hserved⟩
    cases turn with
    | send sendables => exact ⟨_, send_in_step hZ hpeer inc hout hI hturn hserved⟩
    | receive receivables => exact receive_in_step hZ out hinc hI hturn hserved
  obtain ⟨due, hI⟩ := hrun
  refine ⟨hI.succeeded, ?_, fun hlen => ?_⟩
  · rw [hI.sent, List.take_left]
  · have hdue : due = [] := by
      have hh := congrArg List.length hI.sent
      rw [List.length_append, hlen] at hh
      exact List.eq_nil_of_length_eq_zero (by omega)
    have hin' := hI.incoming
    rw [hdue] at hin'
    exact ⟨by rw [hI.sent, hdue, List.append_nil], hin'⟩

end Exchanges

namespace Loopback

/-- Two messages to send and two to receive into. -/
def fourObjects : List MessageOp := [.newData [1], .newData [], .newIncoming, .newIncoming]

def linked : World (loopback false) :=
  (messageMachine (loopback false)).run (World.initial (State.start [])) fourObjects

/-- Two arguments are sent. -/
def regrouped : Exchange (loopback false) :=
  (Exchange.start linked).step ⟨some 0⟩ ⟨some 1⟩ (.send [.leaf 0, .leaf 1])

theorem regrouped_sent : regrouped.sent[regrouped.received.length]? = some [[1], []] := by
  decide +kernel

theorem regrouped_kinds : regrouped.world.kind 2 = some .incoming ∧
    regrouped.world.kind 3 = some .incoming := by decide +kernel

theorem linked_settled : Settled (view false) linked :=
  settled_run laws (settled_initial (initial [])) ⟨trivial, trivial, trivial, trivial, trivial⟩

/-- The frames of the exchange are taken. -/
theorem linked_taken :
    false ∉ Plan.answers ⟨some 0⟩ (SendingSocket.plan [.leaf 0, .leaf 1]).frames linked := by
  decide +kernel

/-- The leaves that the exchange receives into get theirs. -/
theorem regrouped_given : ∀ v ∈ ReceivingSocket.visits ⟨some 1⟩ [2, 3] regrouped.world,
    0 ≤ IncomingMessage.receiveCode v.1 ⟨some 1⟩ v.2 := by decide +kernel

/-- The two arguments are received into one object with two members. -/
theorem regroup_admissible :
    ((exchangeMachine (loopback false) ⟨some 0⟩ ⟨some 1⟩).restrict
      (Exchange.Served (view false) 1 ⟨some 0⟩ ⟨some 1⟩)).Admissible (.start linked)
        [.send [.leaf 0, .leaf 1], .receive [pair 2 3]] := by
  refine ⟨⟨⟨by simp, ⟨trivial, trivial, trivial⟩, fun i hi => ?_⟩, linked_taken⟩,
    ⟨⟨by rw [pair_leaves]; decide, fun i hi => ?_, [[1], []], regrouped_sent, rfl⟩,
      fun v hv _ => regrouped_given v hv⟩, trivial⟩
  · have hi' : i ∈ [0, 1] := hi
    rcases List.mem_pair.mp hi' with rfl | rfl <;> rfl
  · rw [pair_leaves] at hi
    rcases List.mem_pair.mp hi with rfl | rfl
    · exact regrouped_kinds.1
    · exact regrouped_kinds.2

end Loopback

/-- The exchange at its end. -/
def Loopback.regroupedEnd : Exchange (Loopback.loopback false) :=
  (exchangeMachine (Loopback.loopback false) ⟨some 0⟩ ⟨some 1⟩).run (.start Loopback.linked)
    [.send [.leaf 0, .leaf 1], .receive [Loopback.pair 2 3]]

theorem Loopback.regroupedEnd_answered :
    Loopback.regroupedEnd.received.length = Loopback.regroupedEnd.sent.length := by
  decide +kernel

theorem exchange_round_trip_pair :
    Loopback.regroupedEnd.received = Loopback.regroupedEnd.sent := by
  have hout : (⟨some 0⟩ : Socket).mSocket = some 0 := rfl
  have hinc : (⟨some 1⟩ : Socket).mSocket = some 1 := rfl
  have hend := (exchange_round_trip Loopback.laws rfl hout hinc Loopback.linked_settled rfl rfl
    Loopback.regroup_admissible).2.2
  exact (hend Loopback.regroupedEnd_answered).1

end CpperoMQ
