import CpperoMQ.MessageValues

/-!
# Delivery of frames

Where the frames go over a run of sends and receives on any number of sockets.
First on the machine of values and queues: what enters a queue is the messages
completed on the sockets whose peer it belongs to, or arrived from elsewhere, and
what leaves it is what receives take. Then for the message classes, in terms of
what the calls of the program returned.
-/
namespace CpperoMQ
open Effects Effects.Exec Libzmq.View World

/-! ### Frames that change hands -/

namespace MessageEvent
variable (peer : Handle → Option Handle) (s : MessageStore)

/-- The frame handed over on a socket. -/
def handed (h : Handle) : MessageEvent → List (Frame Bytes)
  | .sent this socket more => if socket = h then [⟨s.bytes this, more⟩] else []
  | _ => []

/-- The frame taken from a socket. -/
def got (g : Handle) : MessageEvent → List (Frame Bytes)
  | .taken _ socket => if socket = g then (s.incoming socket).take 1 else []
  | _ => []

/-- The messages that become due to a socket, with the socket they were sent on. -/
def routed (g : Handle) : MessageEvent → List (Option Handle × List Bytes)
  | .sent this socket more =>
    if more = false ∧ peer socket = some g then
      [(some socket, Framing.openParts (s.accepted socket) ++ [s.bytes this])]
    else []
  | .arrived messages => (messages g).map fun m => (none, m)
  | _ => []

end MessageEvent

/-- The messages sent on a socket. -/
def sentOn (h : Handle) (messages : List (Option Handle × List Bytes)) : List (List Bytes) :=
  (messages.filter fun m => m.1 = some h).map Prod.snd

/-- From one state to another, these frames were handed over on `h` and taken from
`g`, and these messages became due to `g`. -/
structure Conserves (peer : Handle → Option Handle) (s t : MessageStore) (g : Handle)
    (handed : Handle → List (Frame Bytes)) (got : List (Frame Bytes))
    (routed : List (Option Handle × List Bytes)) : Prop where
  accepted : ∀ h, t.accepted h = s.accepted h ++ handed h
  incoming : s.incoming g ++ Framing.stream (routed.map Prod.snd) = got ++ t.incoming g
  completed : ∀ h, peer h = some g →
    Framing.completed (t.accepted h) = Framing.completed (s.accepted h) ++ sentOn h routed
  peers : ∀ h m, (some h, m) ∈ routed → peer h = some g

section Stores
variable {peer : Handle → Option Handle} {s t u : MessageStore} {g : Handle}

theorem sentOn_append (h : Handle) (xs ys : List (Option Handle × List Bytes)) :
    sentOn h (xs ++ ys) = sentOn h xs ++ sentOn h ys := by simp [sentOn]

/-- What arrives from elsewhere was sent on no socket. -/
theorem sentOn_arrived (h : Handle) (messages : List (List Bytes)) :
    sentOn h (messages.map fun m => (none, m)) = [] := by simp [sentOn]

theorem Conserves.refl (s : MessageStore) : Conserves peer s s g (fun _ => []) [] [] := by
  constructor
  case accepted => simp
  case incoming => simp
  case completed => simp [sentOn]
  case peers => simp

theorem Conserves.trans {handed handed' : Handle → List (Frame Bytes)}
    {got got' : List (Frame Bytes)} {routed routed' : List (Option Handle × List Bytes)}
    (h : Conserves peer s t g handed got routed) (h' : Conserves peer t u g handed' got' routed') :
    Conserves peer s u g (fun x => handed x ++ handed' x) (got ++ got') (routed ++ routed') := by
  constructor
  case accepted =>
    intro x
    rw [h'.accepted, h.accepted, List.append_assoc]
  case incoming =>
    rw [List.map_append, Framing.stream_append, ← List.append_assoc, h.incoming,
      List.append_assoc, h'.incoming, List.append_assoc]
  case completed =>
    intro x hx
    rw [h'.completed x hx, h.completed x hx, sentOn_append, List.append_assoc]
  case peers =>
    intro x m hm
    rcases List.mem_append.mp hm with hm | hm
    · exact h.peers x m hm
    · exact h'.peers x m hm

/-- Events that move no frame. -/
theorem Conserves.of_same {e : MessageEvent} (hacc : (s.apply peer e).accepted = s.accepted)
    (hin : (s.apply peer e).incoming = s.incoming) (hhanded : ∀ h, e.handed s h = [])
    (hgot : e.got s g = []) (hrouted : e.routed peer s g = []) :
    Conserves peer s (s.apply peer e) g (e.handed s) (e.got s g) (e.routed peer s g) := by
  rw [hgot, hrouted, show e.handed s = fun _ => [] from funext hhanded]
  constructor
  case accepted => simp [hacc]
  case incoming => simp [hin]
  case completed => simp [hacc, sentOn]
  case peers => simp

theorem conserves_sent (this : ObjId) (socket : Handle) (more : Bool) :
    Conserves peer s (s.apply peer (.sent this socket more)) g
      ((MessageEvent.sent this socket more).handed s)
      ((MessageEvent.sent this socket more).got s g)
      ((MessageEvent.sent this socket more).routed peer s g) := by
  have hacc : ∀ h, (s.apply peer (.sent this socket more)).accepted h =
      s.accepted h ++ (MessageEvent.sent this socket more).handed s h := by
    intro h
    simp only [MessageStore.apply, MessageEvent.handed, Function.update_apply]
    split_ifs with hh hh' hh'
    · rw [hh]
    · exact absurd hh.symm hh'
    · exact absurd hh'.symm hh
    · rw [List.append_nil]
  constructor
  case accepted => exact hacc
  case incoming =>
    cases more with
    | true => simp [MessageStore.apply, MessageEvent.got, MessageEvent.routed]
    | false =>
      by_cases hg : peer socket = some g <;>
        simp [MessageStore.apply, MessageStore.deliver, MessageEvent.got, MessageEvent.routed, hg]
  case completed =>
    intro h hh
    rw [hacc, MessageEvent.handed, MessageEvent.routed]
    by_cases hs : socket = h
    · subst hs
      rw [if_pos rfl, Framing.completed_concat]
      cases more <;> simp [sentOn, hh]
    · rw [if_neg hs, List.append_nil]
      split_ifs with hc
      · simp [sentOn, hs]
      · simp [sentOn]
  case peers =>
    intro h m hm
    simp only [MessageEvent.routed] at hm
    split_ifs at hm with hc
    · obtain ⟨hh, _⟩ := Prod.mk.inj (List.mem_singleton.mp hm)
      rw [Option.some.inj hh]
      exact hc.2
    · cases hm

theorem conserves_taken (this : ObjId) (socket : Handle) :
    Conserves peer s (s.apply peer (.taken this socket)) g
      ((MessageEvent.taken this socket).handed s) ((MessageEvent.taken this socket).got s g)
      ((MessageEvent.taken this socket).routed peer s g) := by
  cases hin : s.incoming socket with
  | nil =>
    have hsame : s.apply peer (.taken this socket) = s := by simp [MessageStore.apply, hin]
    apply Conserves.of_same (by rw [hsame]) (by rw [hsame]) (fun h => rfl) ?_ rfl
    simp [MessageEvent.got, hin]
  | cons frame rest =>
    rw [MessageStore.apply_taken peer hin]
    constructor
    case accepted => simp [MessageEvent.handed]
    case incoming =>
      simp only [MessageEvent.got, MessageEvent.routed, List.map_nil, Framing.stream_nil,
        List.append_nil, Function.update_apply]
      by_cases hg : g = socket
      · simp [hg, hin]
      · rw [if_neg hg, if_neg (Ne.symm hg)]
        rfl
    case completed => simp [MessageEvent.routed, sentOn]
    case peers => simp [MessageEvent.routed]

/-- No event loses, repeats or makes up a frame. -/
theorem conserves_apply (e : MessageEvent) :
    Conserves peer s (s.apply peer e) g (e.handed s) (e.got s g) (e.routed peer s g) := by
  cases e with
  | sent this socket more => exact conserves_sent this socket more
  | taken this socket => exact conserves_taken this socket
  | arrived messages =>
    constructor
    case accepted => simp [MessageStore.apply, MessageEvent.handed]
    case incoming =>
      simp [MessageStore.apply, MessageEvent.got, MessageEvent.routed, Function.comp_def]
    case completed =>
      intro h _
      rw [MessageEvent.routed, sentOn_arrived]
      simp [MessageStore.apply]
    case peers => simp [MessageEvent.routed]
  | moved this other =>
    exact .of_same (MessageStore.accepted_write s other [])
      (MessageStore.incoming_write s other []) (fun h => rfl) rfl rfl
  | exchanged lhs rhs =>
    refine .of_same ?_ ?_ (fun h => rfl) rfl rfl
    · rw [MessageStore.apply, MessageStore.accepted_write, MessageStore.accepted_write]
    · rw [MessageStore.apply, MessageStore.incoming_write, MessageStore.incoming_write]
  | emptied this =>
    exact .of_same (MessageStore.accepted_write s this [])
      (MessageStore.incoming_write s this []) (fun h => rfl) rfl rfl
  | built this kind bytes => exact .of_same rfl rfl (fun h => rfl) rfl rfl
  | destroyed this => exact .of_same rfl rfl (fun h => rfl) rfl rfl
  | nothing => exact .of_same rfl rfl (fun h => rfl) rfl rfl

end Stores

/-! ### Calls that returned -/

section Runs
variable {Z : Libzmq} {V : Z.View} {w : World Z} {op : MessageOp} {e : MessageEvent} {g : Handle}

/-- The frame a send handed over on a socket, if it returned true. -/
def MessageOp.handed (h : Handle) (w : World Z) : MessageOp → List (Frame Bytes)
  | .send this socket more =>
    if socket.mSocket = some h ∧ (OutgoingMessage.send this socket more w).1 = .returned true then
      [⟨(w.payload this).getD [], more⟩]
    else []
  | _ => []

/-- The bytes a receive on a socket left in its object and the flag it reported, if it
returned true. -/
def MessageOp.got (g : Handle) (w : World Z) : MessageOp → List (Frame Bytes)
  | .receive this socket =>
    if socket.mSocket = some g then
      match IncomingMessage.receive this socket w with
      | (.returned (true, more), w') => [⟨(w'.payload this).getD [], more⟩]
      | _ => []
    else []
  | _ => []

theorem bytes_of_live {this : ObjId} (hk : w.kind this ≠ none) :
    (w.store V).bytes this = (w.payload this).getD [] := by
  obtain ⟨k, hk⟩ := Option.ne_none_iff_exists'.mp hk
  change ((w.contents this).map Prod.snd).getD [] = _
  rw [World.contents, hk]
  cases w.payload this <;> rfl

theorem payload_of_contents {this : ObjId} {k : MessageKind} {p : Bytes}
    (hc : w.contents this = some (k, p)) : w.payload this = some p := by
  obtain ⟨l, _, hl⟩ := Option.bind_eq_some_iff.mp hc
  obtain ⟨q, hq, hp⟩ := Option.map_eq_some_iff.mp hl
  rw [hq, (Prod.mk.inj hp).2]

/-- Operations other than transfers come to events that move no frame. -/
theorem handed_explained (hop : op.Allowed w) (he : Explains V w op e) (h : Handle) :
    op.handed h w = e.handed (w.store V) h := by
  cases he with
  | sent hs hreturned =>
    have hlive : w.kind _ ≠ none := fun hk => by rw [hop] at hk; cases hk
    rw [MessageOp.handed, MessageEvent.handed, bytes_of_live hlive, hs]
    simp [hreturned]
  | unsent hreturned => simp [MessageOp.handed, MessageEvent.handed, hreturned]
  | built hbuilds => cases op <;> first | rfl | cases hbuilds
  | threw hbuilds => cases op <;> first | rfl | cases hbuilds
  | _ => rfl

theorem got_explained (hw : Settled V w) (hop : op.Allowed w)
    (he : Explains V w op e)
    (hstore : (op.perform w).2.store V = (w.store V).apply V.peer e) (g : Handle) :
    op.got g w = e.got (w.store V) g := by
  cases he with
  | @taken this socket h frame hs hhead hreturned =>
    obtain ⟨rest, hin⟩ : ∃ rest, V.incoming w.zmq h = frame :: rest :=
      List.head?_eq_some_iff.mp hhead
    obtain ⟨p, _, hc⟩ := hw.contents (k := .incoming) hop
    rcases hx : IncomingMessage.receive this socket w with ⟨r, w'⟩
    rw [hx] at hreturned
    obtain rfl : r = .returned (true, frame.more) := hreturned
    have hcontents : w'.contents this = some (.incoming, frame.part) := by
      have hget : (w.store V).contents this = some (.incoming, p) := hc
      have hin' : (w.store V).incoming h = frame :: rest := hin
      rw [MessageOp.perform, discard_of_returned hx, MessageStore.apply_taken V.peer hin',
        MessageStore.write_of_get hget] at hstore
      exact (congrFun (congrArg MessageStore.contents hstore) this).trans
        (Function.update_self this _ _)
    have hgot : (w.store V).incoming h = frame :: rest := hin
    rw [MessageEvent.got, hgot, MessageOp.got, hs, hx]
    simp only [Option.some.injEq, payload_of_contents hcontents, Option.getD_some]
    rfl
  | @untaken this socket hs hreturned =>
    rcases hx : IncomingMessage.receive this socket w with ⟨r, w'⟩
    rw [hx] at hreturned
    change MessageOp.got g w (.receive this socket) = []
    rw [MessageOp.got, hx]
    cases r with
    | returned result =>
      obtain ⟨ok, more⟩ := result
      cases ok with
      | true => exact absurd rfl (hreturned more)
      | false => simp
    | threw e => simp
    | aborted => simp
  | unreceived hs hreturned => simp [MessageOp.got, MessageEvent.got, hs]
  | built hbuilds => cases op <;> first | rfl | cases hbuilds
  | threw hbuilds => cases op <;> first | rfl | cases hbuilds
  | _ => rfl

/-- One operation, in terms of what its calls returned. -/
theorem conserves_step (hZ : V.Laws) (hw : Settled V w) (hop : op.Allowed w) (g : Handle) :
    ∃ routed, Conserves V.peer (w.store V) ((op.perform w).2.store V) g
        (fun h => op.handed h w) (op.got g w) routed ∧
      ∀ m, (none, m) ∈ routed → ∃ n, op = .transport n := by
  obtain ⟨e, he, _, hstore⟩ := valueStep hZ hw hop
  refine ⟨e.routed V.peer (w.store V) g, ?_, fun m hm => ?_⟩
  · rw [hstore, got_explained hw hop he hstore,
      show (fun h => op.handed h w) = e.handed (w.store V) from funext (handed_explained hop he)]
    exact conserves_apply e
  · cases he with
    | sent hs hreturned =>
      simp only [MessageEvent.routed] at hm
      split_ifs at hm
      · simp at hm
      · cases hm
    | arrived => exact ⟨_, rfl⟩
    | _ => cases hm

theorem conserves_run (hZ : V.Laws) (hw : Settled V w) {ops : List MessageOp}
    (hops : (messageMachine Z).Admissible w ops) (g : Handle) :
    ∃ routed, Conserves V.peer (w.store V) (((messageMachine Z).run w ops).store V) g
        (fun h => (messageMachine Z).collect (fun u op => op.handed h u) w ops)
        ((messageMachine Z).collect (fun u op => op.got g u) w ops) routed ∧
      ((∀ n, .transport n ∉ ops) → ∀ m, (none, m) ∉ routed) := by
  induction ops generalizing w with
  | nil => exact ⟨[], Conserves.refl (w.store V), by simp⟩
  | cons op ops ih =>
    obtain ⟨routed, hstep, hlocal⟩ := conserves_step hZ hw hops.1 g
    obtain ⟨routed', hrun, hlocal'⟩ := ih (step_spec hZ hw hops.1).settled hops.2
    refine ⟨routed ++ routed', hstep.trans hrun, fun hnone m hm => ?_⟩
    rcases List.mem_append.mp hm with hm | hm
    · obtain ⟨n, rfl⟩ := hlocal m hm
      exact hnone n (by simp)
    · exact hlocal' (fun n hn => hnone n (by simp [hn])) m hm

/-- Over every run, on any number of sockets: the frames accepted on a socket are
those of its successful sends, and the frames received from a socket and those still
due are, in this order, the frames of whole messages. These are the messages completed
on the sockets whose peer it is, each of them once and in the order of its sender, and
otherwise only what libzmq's threads took in from elsewhere. -/
theorem frames_delivered_once (hZ : V.Laws) (hw : Settled V w) {ops : List MessageOp}
    (hops : (messageMachine Z).Admissible w ops) (g : Handle) :
    let w' := (messageMachine Z).run w ops
    let handed := fun h => (messageMachine Z).collect (fun u op => op.handed h u) w ops
    let got := (messageMachine Z).collect (fun u op => op.got g u) w ops
    (∀ h, V.accepted w'.zmq h = V.accepted w.zmq h ++ handed h) ∧
      ∃ routed : List (Option Handle × List Bytes),
        V.incoming w.zmq g ++ Framing.stream (routed.map Prod.snd) =
          got ++ V.incoming w'.zmq g ∧
        (∀ h, V.peer h = some g → Framing.completed (V.accepted w.zmq h ++ handed h) =
          Framing.completed (V.accepted w.zmq h) ++ sentOn h routed) ∧
        (∀ h m, (some h, m) ∈ routed → V.peer h = some g) ∧
        ((∀ n, .transport n ∉ ops) → ∀ m, (none, m) ∉ routed) := by
  intro w' handed got
  obtain ⟨routed, hc, hlocal⟩ := conserves_run hZ hw hops g
  refine ⟨hc.accepted, routed, hc.incoming, fun h hh => ?_, hc.peers, hlocal⟩
  have hcompleted := hc.completed h hh
  rwa [hc.accepted h] at hcompleted

end Runs

namespace Loopback

/-- Two messages on socket 0, of which the second stays open, with receives on
socket 1 in between. -/
def twoParts : List MessageOp :=
  [.newData [1], .newData [2], .newIncoming, .send 0 ⟨some 0⟩ true, .receive 2 ⟨some 1⟩,
    .send 1 ⟨some 0⟩ false, .receive 2 ⟨some 1⟩, .send 0 ⟨some 0⟩ true, .receive 2 ⟨some 1⟩,
    .receive 2 ⟨some 1⟩]

theorem twoParts_admissible : (messageMachine (loopback false)).Admissible
    (World.initial (State.start [])) twoParts :=
  ⟨trivial, trivial, trivial, rfl, rfl, rfl, rfl, rfl, rfl, rfl, trivial⟩

/-- The state at the end of these operations. -/
def twoPartsEnd : World (loopback false) :=
  (messageMachine (loopback false)).run (World.initial (State.start [])) twoParts

/-- The frames that were received from socket 1. -/
def twoPartsGot : List (Frame Bytes) :=
  (messageMachine (loopback false)).collect (fun u op => op.got 1 u)
    (World.initial (State.start [])) twoParts

theorem twoPartsGot_eq : twoPartsGot = [⟨[1], true⟩, ⟨[2], false⟩] := by decide +kernel

end Loopback

theorem frames_delivered_once_twoParts :
    ∃ routed : List (Option Handle × List Bytes),
      Framing.stream (routed.map Prod.snd) = [⟨[1], true⟩, ⟨[2], false⟩] ++
        (Loopback.view false).incoming Loopback.twoPartsEnd.zmq 1 ∧
      (∀ h m, (some h, m) ∈ routed → h + 1 = 1) ∧ ∀ m, (none, m) ∉ routed := by
  obtain ⟨_, routed, hin, _, hpeers, hlocal⟩ := frames_delivered_once Loopback.laws
    (settled_initial (Loopback.initial [])) Loopback.twoParts_admissible 1
  change [] ++ Framing.stream (routed.map Prod.snd) = Loopback.twoPartsGot ++ _ at hin
  rw [Loopback.twoPartsGot_eq, List.nil_append] at hin
  have hnone : ∀ n, .transport n ∉ Loopback.twoParts := by simp [Loopback.twoParts]
  exact ⟨routed, hin, fun h m hm => Option.some.inj (hpeers h m hm), hlocal hnone⟩

end CpperoMQ
