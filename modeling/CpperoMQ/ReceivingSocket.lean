import CpperoMQ.MessageRuns
import CpperoMQ.Receivables

/-!
# Runs of receive calls on one socket

One call of `ReceivingSocket::receive` takes frames of the message at the head
of the socket into its leaves until the leaves or the frames run out or a
transfer fails. It returns true exactly if both run out together. A message with
more frames than the call has leaves is not taken to its end, and its remaining
frames are what the next call finds.
-/
namespace CpperoMQ
open Effects Effects.Exec Libzmq.View World

section Calls
variable {Z : Libzmq} {V : Z.View} {w w' w'' : World Z} {h : Handle} {socket : Socket}

/-- From `w` to `w'`, exactly the frames `fs` were taken off the socket into the
objects `is`, in this order, the objects `emptied` were left empty, and nothing
else reads differently. -/
structure Took (V : Z.View) (h : Handle) (is : List ObjId) (fs : List (Frame Bytes))
    (emptied : List ObjId) (w w' : World Z) : Prop where
  settled : Settled V w'
  kinds : ∀ j, w'.kind j = w.kind j
  payloads : ∀ j, j ∉ is → j ∉ emptied → w'.payload j = w.payload j
  filled : is.map w'.payload = fs.map fun f => some f.part
  empty : ∀ j ∈ emptied, w'.payload j = some []
  accepted : V.accepted w'.zmq = V.accepted w.zmq
  incoming : V.incoming w.zmq h = fs ++ V.incoming w'.zmq h
  midMessage : V.midMessage w'.zmq h = (fs.getLast?.map Frame.more).getD (V.midMessage w.zmq h)
  others : ∀ g, g ≠ h → V.incoming w'.zmq g = V.incoming w.zmq g ∧
    V.midMessage w'.zmq g = V.midMessage w.zmq g

theorem Took.refl (hw : Settled V w) : Took V h [] [] [] w w := by
  constructor
  case settled => exact hw
  all_goals simp

/-- One frame, then others into other objects. -/
theorem Took.cons {i : ObjId} {f : Frame Bytes} {is emptied : List ObjId}
    {fs : List (Frame Bytes)} (h₁ : Took V h [i] [f] [] w w')
    (h₂ : Took V h is fs emptied w' w'') (hi : i ∉ is) (hi' : i ∉ emptied) :
    Took V h (i :: is) (f :: fs) emptied w w'' := by
  have hfirst : w'.payload i = some f.part := by simpa using h₁.filled
  constructor
  case settled => exact h₂.settled
  case kinds => exact fun j => (h₂.kinds j).trans (h₁.kinds j)
  case payloads =>
    intro j hj hj'
    rw [List.mem_cons, not_or] at hj
    rw [h₂.payloads j hj.2 hj']
    exact h₁.payloads j (by simpa using hj.1) (List.not_mem_nil)
  case filled => rw [List.map_cons, h₂.payloads i hi hi', hfirst, h₂.filled, List.map_cons]
  case empty => exact h₂.empty
  case accepted => exact h₂.accepted.trans h₁.accepted
  case incoming => rw [h₁.incoming, h₂.incoming, List.singleton_append, List.cons_append]
  case midMessage =>
    rw [h₂.midMessage, h₁.midMessage]
    cases fs with
    | nil => rfl
    | cons g fs => rw [List.getLast?_cons_cons]; rfl
  case others =>
    intro g hg
    exact ⟨(h₂.others g hg).1.trans (h₁.others g hg).1,
      (h₂.others g hg).2.trans (h₁.others g hg).2⟩

/-- The libzmq calls of receives that all got a frame. -/
def receivedCalls (h : Handle) (n : ℕ) : List Call :=
  (List.replicate n (receiveCalls h .ok)).flatten

theorem receivedCalls_succ (h : Handle) (n : ℕ) :
    receivedCalls h (n + 1) = receiveCalls h .ok ++ receivedCalls h n := rfl

@[simp] theorem receivedCalls_one (h : Handle) : receivedCalls h 1 = receiveCalls h .ok := by
  simp [receivedCalls]

/-- One message object of a call. -/
theorem IncomingMessage.receive_took (hZ : V.Laws) (hw : Settled V w) {i : ObjId}
    (hi : w.kind i = some .incoming) (hs : socket.mSocket = some h) :
    (∃ w' f, IncomingMessage.receive i socket w = (.returned (true, f.more), w') ∧
      Took V h [i] [f] [] w w' ∧ 0 ≤ IncomingMessage.receiveCode i socket w ∧
      w'.calls = w.calls ++ receiveCalls h .ok) ∨
    ∃ w' e, IncomingMessage.receive i socket w = (failure (false, false) e, w') ∧
      Took V h [] [] [i] w w' ∧ RecvRefused V h w ∧
      ¬0 ≤ IncomingMessage.receiveCode i socket w ∧
      w'.calls = w.calls ++ receiveCalls h (.failed e) := by
  obtain ⟨p, hp⟩ := hw.payload (i := i) (by rw [hi]; rfl)
  have hready : ∀ {w' : World Z} {q : Bytes}, Consistent V w' → Keeps (· = i) w w' →
      w'.payload i = some q → Settled V w' := by
    intro w' q hw' hk hq
    apply hw.of_keeps hk hw'
    intro j hj _
    rw [hj, hq]
    rfl
  have hkinds : ∀ {w' : World Z}, Keeps (· = i) w w' → w'.kind i = w.kind i →
      ∀ j, w'.kind j = w.kind j := by
    intro w' hk hki j
    by_cases hj : j = i
    · rw [hj, hki]
    · exact hk.kinds j hj
  rcases IncomingMessage.receive_spec hZ hw.consistent hp hs with
    ⟨w', f, hx, hw', hk, hki, hp', hrcv, hcode, hc⟩ | ⟨w', e, hx, hL, hp', hrefused, hcode, hc⟩
  · obtain ⟨rest, hin, hin'⟩ := hrcv.incoming
    refine Or.inl ⟨w', f, hx, ?_, hcode, hc⟩
    constructor
    case settled => exact hready hw' hk hp'
    case kinds => exact hkinds hk hki
    case payloads => exact fun j hj _ => hk.payloads j (by simpa using hj)
    case filled => rw [List.map_singleton, hp']; rfl
    case empty => simp
    case accepted => exact hrcv.accepted
    case incoming => rw [hin', Function.update_self, hin]; rfl
    case midMessage => rw [hrcv.midMessage, Function.update_self]; rfl
    case others =>
      intro g hg
      rw [hin', hrcv.midMessage, Function.update_of_ne hg, Function.update_of_ne hg]
      exact ⟨rfl, rfl⟩
  · refine Or.inr ⟨w', e, hx, ?_, hrefused, hcode, hc⟩
    constructor
    case settled => exact hready hL.consistent hL.keeps hp'
    case kinds => exact hkinds hL.keeps hL.kind_eq
    case payloads => exact fun j _ hj => hL.keeps.payloads j (by simpa using hj)
    case filled => rfl
    case empty =>
      intro j hj
      rw [List.mem_singleton.mp hj, hp']
    case accepted => exact hL.frames.accepted
    case incoming => rw [hL.frames.incoming]; rfl
    case midMessage => rw [hL.frames.midMessage]; rfl
    case others =>
      intro g _
      rw [hL.frames.incoming, hL.frames.midMessage]
      exact ⟨rfl, rfl⟩

/-- Some leaves with the state in which each is received into, up to the first that
`zmq_msg_recv` gives no frame. -/
def ReceivingSocket.visits (socket : Socket) : List ObjId → World Z → List (ObjId × World Z)
  | [], _ => []
  | i :: is, w => (i, w) ::
    if 0 ≤ IncomingMessage.receiveCode i socket w then
      ReceivingSocket.visits socket is (IncomingMessage.receive i socket w).2
    else []

theorem ReceivingSocket.mem_visits_of_rest {i : ObjId} {r : Outcome Error (Bool × Bool)}
    (hx : IncomingMessage.receive i socket w = (r, w'))
    (hcode : 0 ≤ IncomingMessage.receiveCode i socket w) {is : List ObjId} {v : ObjId × World Z}
    (hv : v ∈ ReceivingSocket.visits socket is w') :
    v ∈ ReceivingSocket.visits socket (i :: is) w := by
  rw [ReceivingSocket.visits, if_pos hcode, hx]
  exact List.mem_cons_of_mem _ hv

theorem memberThen_of_returned {x : Action Z (Bool × Bool)} {ok more : Bool}
    (hx : x w = (.returned (ok, more), w')) (isLast : Bool)
    (rest : Bool → Action Z (Bool × Bool)) :
    memberThen x isLast rest w =
      if ok && (isLast || more) then rest more w' else (.returned (false, more), w') := by
  rw [memberThen, bind_of_returned hx]
  split_ifs <;> rfl

theorem memberThen_of_failure {x : Action Z (Bool × Bool)} {e : ℤ}
    (hx : x w = (failure (false, false) e, w')) (isLast : Bool)
    (rest : Bool → Action Z (Bool × Bool)) :
    memberThen x isLast rest w = (failure (false, false) e, w') := bind_of_failure hx rfl

theorem wholeMessage_of_failure {x : Action Z (Bool × Bool)} {e : ℤ}
    (hx : x w = (failure (false, false) e, w')) :
    (x.bind fun r => pure (wholeMessage r)) w = (failure false e, w') := bind_of_failure hx rfl

theorem receiveLeaves_cons {i : ObjId} {more flag : Bool}
    (hx : IncomingMessage.receive i socket w = (.returned (true, flag), w')) (is : List ObjId) :
    receiveLeaves socket more (i :: is) w =
      if is.isEmpty || flag then receiveLeaves socket flag is w'
      else (.returned (false, flag), w') := by
  rw [receiveLeaves, memberThen_of_returned hx, Bool.true_and]

/-- The induction over the leaves: frames and leaves are paired off until one of
them runs out or a transfer fails. -/
theorem receiveLeaves_spec (hZ : V.Laws) (hs : socket.mSocket = some h) (more : Bool)
    {is : List ObjId} (hw : Settled V w) (hnodup : is.Nodup)
    (hlive : ∀ i ∈ is, w.kind i = some .incoming) (his : is ≠ []) {msg : List Bytes}
    (hmsg : msg ≠ []) {rest : List (Frame Bytes)}
    (hin : V.incoming w.zmq h = Framing.message msg ++ rest) :
    (∃ w', receiveLeaves socket more is w = (.returned
        (decide (is.length ≤ msg.length), decide (is.length < msg.length)), w') ∧
      Took V h (is.take msg.length) ((Framing.message msg).take is.length) [] w w' ∧
      w'.calls = w.calls ++ receivedCalls h (min is.length msg.length)) ∨
    ∃ w' j i e, j < min is.length msg.length ∧ is[j]? = some i ∧
      receiveLeaves socket more is w = (failure (false, false) e, w') ∧
      Took V h (is.take j) ((Framing.message msg).take j) [i] w w' ∧
      (∃ u, Took V h (is.take j) ((Framing.message msg).take j) [] w u ∧ RecvRefused V h u ∧
        (i, u) ∈ ReceivingSocket.visits socket is w ∧
        ¬0 ≤ IncomingMessage.receiveCode i socket u) ∧
      w'.calls = w.calls ++ (receivedCalls h j ++ receiveCalls h (.failed e)) := by
  induction is generalizing w more msg with
  | nil => exact absurd rfl his
  | cons i is ih =>
    obtain ⟨a, msg, rfl⟩ := List.exists_cons_of_ne_nil hmsg
    obtain ⟨hnot, hnodup'⟩ := List.nodup_cons.mp hnodup
    rw [Framing.message_cons] at hin ⊢
    rcases IncomingMessage.receive_took hZ hw (hlive i (by simp)) hs with
      ⟨w₁, f, hx, hT, hcode, hc⟩ | ⟨w₁, e, hx, hT, hrefused, hcode, hc⟩
    · have hhead := hT.incoming
      rw [hin, List.singleton_append, List.cons_append] at hhead
      obtain ⟨hf, hin₁⟩ := List.cons.inj hhead
      have hmore : f.more = !msg.isEmpty := by rw [← hf]
      rw [← hf] at hT
      by_cases his' : is = []
      · -- the last leaf has its frame
        subst his'
        refine Or.inl ⟨w₁, ?_, by simpa using hT, by simpa using hc⟩
        rw [receiveLeaves_cons hx, hmore]
        cases msg <;> simp [receiveLeaves]
      · by_cases hmsg' : msg = []
        · -- the message ends before the leaves do
          subst hmsg'
          refine Or.inl ⟨w₁, ?_, by simpa [Framing.message] using hT, by simpa using hc⟩
          rw [receiveLeaves_cons hx, hmore]
          simp [his']
        · have hgo : receiveLeaves socket more (i :: is) w =
              receiveLeaves socket f.more is w₁ := by
            rw [receiveLeaves_cons hx, hmore]
            simp [hmsg']
          have hlive₁ : ∀ j ∈ is, w₁.kind j = some .incoming := by
            intro j hj
            rw [hT.kinds j]
            exact hlive j (by simp [hj])
          rcases ih f.more hT.settled hnodup' hlive₁ his' hmsg' hin₁.symm with
            ⟨w₂, hx₂, hT₂, hc₂⟩ |
            ⟨w₂, j, i', e, hj, hi', hx₂, hT₂, ⟨u, hu, hrefused, hvisit, hcode'⟩, hc₂⟩
          · refine Or.inl ⟨w₂, ?_, ?_, ?_⟩
            · rw [hgo, hx₂]
              simp
            · exact hT.cons hT₂ (fun hmem => hnot (List.mem_of_mem_take hmem)) (by simp)
            · rw [hc₂, hc, List.length_cons, List.length_cons, Nat.succ_min_succ,
                receivedCalls_succ, List.append_assoc]
          · have hout : i ∉ is.take j := fun hmem => hnot (List.mem_of_mem_take hmem)
            refine Or.inr ⟨w₂, j + 1, i', e, ?_, hi', hgo.trans hx₂, ?_,
              ⟨u, hT.cons hu hout (by simp), hrefused,
                ReceivingSocket.mem_visits_of_rest hx hcode hvisit, hcode'⟩, ?_⟩
            · simp only [List.length_cons]
              omega
            · apply hT.cons hT₂ hout
              intro hmem
              rw [List.mem_singleton.mp hmem] at hnot
              exact hnot (List.mem_of_getElem? hi')
            · rw [hc₂, hc, receivedCalls_succ, List.append_assoc, List.append_assoc]
    · refine Or.inr ⟨w₁, 0, i, e, by simp, rfl, ?_, hT,
        ⟨w, Took.refl hw, hrefused, List.mem_cons_self .., hcode⟩,
        by simpa [receivedCalls] using hc⟩
      rw [receiveLeaves, memberThen_of_failure hx]

/-- A call on a message at the head of the socket. -/
theorem ReceivingSocket.receive_spec (hZ : V.Laws) (hs : socket.mSocket = some h) (hw : Settled V w)
    {receivables : List Receivable} (hne : receivables ≠ [])
    (hnodup : (PartTree.forestLeaves receivables).Nodup)
    (hlive : ∀ i ∈ PartTree.forestLeaves receivables, w.kind i = some .incoming)
    {msg : List Bytes} (hmsg : msg ≠ []) {rest : List (Frame Bytes)}
    (hin : V.incoming w.zmq h = Framing.message msg ++ rest) :
    (∃ w', ReceivingSocket.receive socket receivables w = (.returned
        (decide ((PartTree.forestLeaves receivables).length = msg.length)), w') ∧
      Took V h ((PartTree.forestLeaves receivables).take msg.length)
        ((Framing.message msg).take (PartTree.forestLeaves receivables).length) [] w w' ∧
      w'.calls = w.calls ++
        receivedCalls h (min (PartTree.forestLeaves receivables).length msg.length)) ∨
    ∃ w' j i e, j < min (PartTree.forestLeaves receivables).length msg.length ∧
      (PartTree.forestLeaves receivables)[j]? = some i ∧
      ReceivingSocket.receive socket receivables w = (failure false e, w') ∧
      Took V h ((PartTree.forestLeaves receivables).take j)
        ((Framing.message msg).take j) [i] w w' ∧
      (∃ u, Took V h ((PartTree.forestLeaves receivables).take j)
        ((Framing.message msg).take j) [] w u ∧ RecvRefused V h u ∧
        (i, u) ∈ ReceivingSocket.visits socket (PartTree.forestLeaves receivables) w ∧
        ¬0 ≤ IncomingMessage.receiveCode i socket u) ∧
      w'.calls = w.calls ++ (receivedCalls h j ++ receiveCalls h (.failed e)) := by
  have his : PartTree.forestLeaves receivables ≠ [] :=
    fun hnil => hne (PartTree.forestLeaves_eq_nil.mp hnil)
  rw [ReceivingSocket.receive_eq_leaves socket hne]
  rcases receiveLeaves_spec hZ hs false hw hnodup hlive his hmsg hin with
    ⟨w', hx, hT, hc⟩ | ⟨w', j, i, e, hj, hi, hx, hT, hrefused, hc⟩
  · refine Or.inl ⟨w', ?_, hT, hc⟩
    rw [bind_of_returned hx, pure_apply]
    congr 2
    rw [wholeMessage, Bool.eq_iff_iff, Bool.and_eq_true, Bool.not_eq_true', decide_eq_true_iff,
      decide_eq_false_iff_not, decide_eq_true_iff]
    omega
  · exact Or.inr ⟨w', j, i, e, hj, hi, wholeMessage_of_failure hx, hT, hrefused, hc⟩

theorem Took.remaining {is emptied : List ObjId} {n : ℕ} {fs rest : List (Frame Bytes)}
    (hT : Took V h is (fs.take n) emptied w w') (hin : V.incoming w.zmq h = fs ++ rest) :
    V.incoming w'.zmq h = fs.drop n ++ rest := by
  have hh := hT.incoming
  rw [hin] at hh
  nth_rewrite 1 [← List.take_append_drop n fs] at hh
  rw [List.append_assoc] at hh
  exact (List.append_cancel_left hh).symm

/-- As long as fewer frames were taken than the message has, one is due. -/
theorem Took.still_due {is emptied : List ObjId} {msg : List Bytes} {j : ℕ}
    {rest : List (Frame Bytes)} (hT : Took V h is ((Framing.message msg).take j) emptied w w')
    (hin : V.incoming w.zmq h = Framing.message msg ++ rest) (hj : j < msg.length) :
    V.incoming w'.zmq h ≠ [] := by
  rw [hT.remaining hin]
  intro hnil
  have hdrop := congrArg List.length (List.append_eq_nil_iff.mp hnil).1
  rw [List.length_drop, Framing.message_length, List.length_nil] at hdrop
  omega

theorem message_parts (msg : List Bytes) :
    (Framing.message msg).map (fun f => some f.part) = msg.map some := by
  have hh := congrArg (List.map some) (Framing.frames_map_part false msg)
  rwa [List.map_map] at hh

/-- Objects that took all frames of a message show its parts. -/
theorem Took.readings {is emptied : List ObjId} {msg : List Bytes}
    (hT : Took V h is (Framing.message msg) emptied w w') : w'.payloads is = msg := by
  apply payloads_of_map
  rw [hT.filled, message_parts]

/-- Leaf number `x` shows part number `x`. -/
theorem Took.leaf_shows {is emptied : List ObjId} {msg : List Bytes} {m n x : ℕ}
    (hT : Took V h (is.take m) ((Framing.message msg).take n) emptied w w') (hm : x < m)
    (hn : x < n) : is[x]?.map w'.payload = msg[x]?.map some := by
  have hfilled := congrArg (fun l => l[x]?) hT.filled
  rw [List.map_take, List.map_take, message_parts] at hfilled
  simpa only [List.getElem?_take, if_pos hm, if_pos hn, List.getElem?_map] using hfilled

/-- One call with `n` leaves on a message with `k` frames. If no transfer fails,
`min n k` frames are taken into the first leaves, and the call returns true exactly
if `n = k`. If the transfer into leaf `j` fails, the leaves before it have their
frames, it is left empty, and the call ends there: with false on `EAGAIN` and with
an exception otherwise. -/
theorem receive_exact (hZ : V.Laws) (hs : socket.mSocket = some h) (hw : Settled V w)
    {receivables : List Receivable} (hne : receivables ≠ [])
    (hnodup : (PartTree.forestLeaves receivables).Nodup)
    (hlive : ∀ i ∈ PartTree.forestLeaves receivables, w.kind i = some .incoming)
    {msg : List Bytes} (hmsg : msg ≠ []) {rest : List (Frame Bytes)}
    (hin : V.incoming w.zmq h = Framing.message msg ++ rest) :
    let leaves := PartTree.forestLeaves receivables
    ∃ w' m, Settled V w' ∧
      V.incoming w'.zmq h = (Framing.message msg).drop m ++ rest ∧
      (∀ x, x < m → leaves[x]?.map w'.payload = msg[x]?.map some) ∧
      ((m = min leaves.length msg.length ∧
          ReceivingSocket.receive socket receivables w =
            (.returned (decide (leaves.length = msg.length)), w') ∧
          (∀ i, i ∉ leaves.take m → w'.payload i = w.payload i) ∧
          w'.calls = w.calls ++ receivedCalls h m) ∨
        ∃ i e, m < min leaves.length msg.length ∧ leaves[m]? = some i ∧
          ReceivingSocket.receive socket receivables w =
            (if e = EAGAIN then .returned false else .threw ⟨e⟩, w') ∧
          w'.payload i = some [] ∧
          (∀ i, i ∉ leaves.take (m + 1) → w'.payload i = w.payload i) ∧
          w'.calls = w.calls ++ (receivedCalls h m ++ receiveCalls h (.failed e))) := by
  intro leaves
  rcases ReceivingSocket.receive_spec hZ hs hw hne hnodup hlive hmsg hin with
    ⟨w', hx, hT, hc⟩ | ⟨w', j, i, e, hj, hi, hx, hT, _, hc⟩
  · have hdrop : (Framing.message msg).drop (min leaves.length msg.length) =
        (Framing.message msg).drop leaves.length := by
      rw [← Framing.message_length msg, ← List.drop_eq_drop_min]
    have htake : leaves.take (min leaves.length msg.length) = leaves.take msg.length := by
      rw [Nat.min_comm, ← List.take_eq_take_min]
    refine ⟨w', min leaves.length msg.length, hT.settled, ?_, ?_,
      Or.inl ⟨rfl, hx, ?_, hc⟩⟩
    · rw [hdrop]
      exact hT.remaining hin
    · intro x hxm
      exact hT.leaf_shows (Nat.lt_of_lt_of_le hxm (Nat.min_le_right _ _))
        (Nat.lt_of_lt_of_le hxm (Nat.min_le_left _ _))
    · intro i hi
      rw [htake] at hi
      exact hT.payloads i hi (List.not_mem_nil)
  · refine ⟨w', j, hT.settled, hT.remaining hin, ?_, Or.inr ⟨i, e, hj, hi, hx, ?_, ?_, hc⟩⟩
    · intro x hxj
      exact hT.leaf_shows hxj hxj
    · exact hT.empty i (List.mem_singleton.mpr rfl)
    · intro x hx'
      rw [List.take_add_one, hi, Option.toList_some, List.mem_append, not_or] at hx'
      exact hT.payloads x hx'.1 hx'.2

end Calls

namespace Loopback

/-- A message of two parts goes from socket 0 to socket 1, where two objects wait. -/
def arrival : List MessageOp :=
  [.newData [1], .newData [2], .newIncoming, .newIncoming, .send 0 ⟨some 0⟩ true,
    .send 1 ⟨some 0⟩ false]

def arrivalEnd : World (loopback true) :=
  (messageMachine (loopback true)).run (World.initial (State.start [])) arrival

theorem arrivalEnd_settled : Settled (view true) arrivalEnd :=
  settled_run laws (settled_initial (initial []))
    ⟨trivial, trivial, trivial, trivial, rfl, rfl, trivial⟩

/-- An object with two members. -/
def pair (a b : ObjId) : Receivable := .node () (.leaf a) [.leaf b]

theorem pair_leaves (a b : ObjId) : PartTree.forestLeaves [pair a b] = [a, b] := rfl

end Loopback

/-- The message is received whole, one part into each member. -/
theorem receive_exact_pair :
    ∃ w', ReceivingSocket.receive ⟨some 1⟩ [Loopback.pair 2 3] Loopback.arrivalEnd =
        (.returned true, w') ∧
      (Loopback.view true).incoming w'.zmq 1 = [] ∧ w'.payload 2 = some [1] ∧
      w'.payload 3 = some [2] ∧ w'.calls = Loopback.arrivalEnd.calls ++ receivedCalls 1 2 := by
  have hs : (⟨some 1⟩ : Socket).mSocket = some 1 := rfl
  have hlive : ∀ i ∈ PartTree.forestLeaves [Loopback.pair 2 3],
      Loopback.arrivalEnd.kind i = some .incoming := by
    intro i hi
    rw [Loopback.pair_leaves] at hi
    rcases List.mem_pair.mp hi with rfl | rfl <;> rfl
  have hin : (Loopback.view true).incoming Loopback.arrivalEnd.zmq 1 =
      Framing.message [[1], [2]] ++ [] := rfl
  have hgiven : (ReceivingSocket.receive ⟨some 1⟩ [Loopback.pair 2 3] Loopback.arrivalEnd).1 =
      .returned true := by
    decide +kernel
  obtain ⟨w', m, _, hin', hshow, ⟨hm, hx, _, hc⟩ | ⟨i, e, _, _, hx, _⟩⟩ :=
    receive_exact Loopback.laws hs Loopback.arrivalEnd_settled (List.cons_ne_nil _ _)
      (by rw [Loopback.pair_leaves]; decide) hlive (List.cons_ne_nil _ _) hin
  · obtain rfl : m = 2 := hm
    refine ⟨w', hx, hin', ?_, ?_, hc⟩
    · exact Option.some.inj (hshow 0 (by decide))
    · exact Option.some.inj (hshow 1 (by decide))
  · rw [hx] at hgiven
    split_ifs at hgiven
    cases hgiven

end CpperoMQ
