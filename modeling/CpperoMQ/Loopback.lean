import CpperoMQ.Libzmq

/-!
# An in-process libzmq with scripted failures

A small implementation of the message calls, in which socket `h` sends to
socket `h + 1` of the same process. Content blocks are counted cells. With
`scripted = true` a transfer takes its outcome from a script, so failures can be
replayed; a receive inside a message does not ask the script. `laws` shows that
it meets everything the results assume of libzmq.
-/
namespace CpperoMQ.Loopback
open Libzmq.View

/-- An initialised `zmq_msg_t`. -/
structure ZmqMsg where
  bytes : Bytes
  block : Option ℕ
  more : Bool
  deriving Repr, DecidableEq

/-- A message all of whose parts have been accepted. -/
structure SentMessage where
  parts : List Bytes
  last : Bytes

def SentMessage.toList (m : SentMessage) : List Bytes := m.parts ++ [m.last]

structure State where
  /-- Reference counts of the blocks; a new block is numbered by the length. -/
  counters : List ℕ
  /-- Frames of messages whose last part is still missing. -/
  waiting : List (Handle × ZmqMsg)
  /-- Frames that can be received, with their more-flags. -/
  due : List (Handle × Frame ZmqMsg)
  sent : Handle → List SentMessage
  inside : Handle → Bool
  /-- Outcomes of the next transfers: zero for success, else an error number. -/
  script : List ℤ
  errno : ℤ

def State.start (script : List ℤ) : State :=
  ⟨[], [], [], fun _ => [], fun _ => false, script, 0⟩

def counter (counters : List ℕ) (b : ℕ) : ℕ := counters[b]?.getD 0

def retain (o : Option ℕ) (counters : List ℕ) : List ℕ :=
  match o with
  | some b => counters.set b (counter counters b + 1)
  | none => counters

def release (o : Option ℕ) (counters : List ℕ) : List ℕ :=
  match o with
  | some b => counters.set b (counter counters b - 1)
  | none => counters

/-- The parts of the open message of a socket. -/
def waitingOn (σ : State) (h : Handle) : List ZmqMsg :=
  (σ.waiting.filter (fun x => x.1 = h)).map Prod.snd

/-- Take the first frame due to a socket. -/
def take (h : Handle) : List (Handle × Frame ZmqMsg) →
    Option (Frame ZmqMsg × List (Handle × Frame ZmqMsg))
  | [] => none
  | x :: rest =>
    if x.1 = h then some (x.2, rest)
    else (take h rest).map fun r => (r.1, x :: r.2)

def accept (m : ZmqMsg) (h : Handle) (flags : ℤ) (σ : State) : State :=
  if flags = ZMQ_SNDMORE then { σ with waiting := σ.waiting ++ [(h, m)] }
  else { σ with
    waiting := σ.waiting.filter (fun x => x.1 ≠ h)
    due := σ.due ++ (Framing.message (waitingOn σ h ++ [m])).map (fun f => (h + 1, f))
    sent := Function.update σ.sent h
      (σ.sent h ++ [⟨(waitingOn σ h).map ZmqMsg.bytes, m.bytes⟩]) }

def emptyMsg : ZmqMsg := ⟨[], none, false⟩

/-- The outcome of the next transfer and the script after it. -/
def outcome (scripted : Bool) (σ : State) : ℤ × List ℤ :=
  match scripted, σ.script with
  | true, e :: script => (e, script)
  | _, script => (0, script)

def send (scripted : Bool) (m : ZmqMsg) (h : Handle) (flags : ℤ) (σ : State) :
    ℤ × ZmqMsg × State :=
  if (outcome scripted σ).1 = 0 then
    (m.bytes.length, emptyMsg, accept m h flags { σ with script := (outcome scripted σ).2 })
  else (-1, m, { σ with script := (outcome scripted σ).2, errno := (outcome scripted σ).1 })

def next (m : ZmqMsg) (h : Handle) (σ : State) : ℤ × ZmqMsg × State :=
  match take h σ.due with
  | none => (-1, m, { σ with errno := EAGAIN })
  | some (f, due) =>
    (f.part.bytes.length, { f.part with more := f.more },
      { σ with
        due
        counters := release m.block σ.counters
        inside := Function.update σ.inside h f.more })

def recv (scripted : Bool) (m : ZmqMsg) (h : Handle) (_flags : ℤ) (σ : State) :
    ℤ × ZmqMsg × State :=
  if σ.inside h then next m h σ
  else if (outcome scripted σ).1 = 0 then
    next m h { σ with script := (outcome scripted σ).2 }
  else (-1, m, { σ with script := (outcome scripted σ).2, errno := (outcome scripted σ).1 })

/-- Content larger than this cannot be allocated. -/
def capacity : ℕ := 4096

abbrev loopback (scripted : Bool) : Libzmq where
  State := State
  Msg := ZmqMsg
  msgInit σ := (0, emptyMsg, σ)
  msgInitSize size σ :=
    if size ≤ capacity then
      (0, ⟨List.replicate size 0, some σ.counters.length, false⟩,
        { σ with counters := σ.counters ++ [1] })
    else (-1, emptyMsg, { σ with errno := 12 })
  msgSize _ m := m.bytes.length
  msgData _ m := m.bytes
  msgWrite m bytes σ := ({ m with bytes }, σ)
  msgMore _ m := if m.more then 1 else 0
  msgCopy dest src σ :=
    (0, src, src, { σ with counters := retain src.block (release dest.block σ.counters) })
  msgClose m σ := (0, { σ with counters := release m.block σ.counters })
  msgSend := send scripted
  msgRecv := recv scripted
  errno σ := σ.errno
  transport _ σ := σ

abbrev view (scripted : Bool) : (loopback scripted).View where
  initialised _ := True
  block m := m.block
  refs σ b := counter σ.counters b
  held σ := ((σ.waiting.map Prod.snd ++ σ.due.map (fun x => x.2.part) : List ZmqMsg) :
    Multiset ZmqMsg)
  accepted σ h := Framing.stream ((σ.sent h).map SentMessage.toList) ++
    Framing.frames true ((waitingOn σ h).map ZmqMsg.bytes)
  incoming σ h := (σ.due.filter (fun x => x.1 = h)).map
    (fun x => ⟨x.2.part.bytes, x.2.more⟩)
  midMessage σ h := σ.inside h
  peer h := some (h + 1)

/-! ### The contracts -/

variable {scripted : Bool}

theorem counter_lt {counters : List ℕ} {b : ℕ} (h : 0 < counter counters b) :
    b < counters.length := by
  by_contra hn
  have hnone : counters[b]? = none := List.getElem?_eq_none (Nat.le_of_not_lt hn)
  simp [counter, hnone] at h

theorem counter_set {counters : List ℕ} {b : ℕ} (h : b < counters.length) (n c : ℕ) :
    counter (counters.set b n) c = if b = c then n else counter counters c := by
  unfold counter
  by_cases hbc : b = c
  · subst hbc
    rw [if_pos rfl, List.getElem?_set_self h]
    rfl
  · rw [if_neg hbc, List.getElem?_set_ne hbc]

theorem release_spec {o : Option ℕ} {counters : List ℕ}
    (h : ∀ b, o = some b → 0 < counter counters b) (c : ℕ) :
    counter (release o counters) c + share o c = counter counters c := by
  cases o with
  | none => simp [release, share]
  | some b =>
    have hb := h b rfl
    rw [release, counter_set (counter_lt hb)]
    by_cases hbc : b = c
    · subst hbc
      simp only [share, if_true]
      omega
    · simp [share, hbc]

theorem retain_spec {o : Option ℕ} {counters : List ℕ}
    (h : ∀ b, o = some b → b < counters.length) (c : ℕ) :
    counter (retain o counters) c = counter counters c + share o c := by
  cases o with
  | none => simp [retain, share]
  | some b =>
    rw [retain, counter_set (h b rfl)]
    by_cases hbc : b = c
    · subst hbc
      simp [share]
    · simp [share, hbc]

theorem length_release (o : Option ℕ) (counters : List ℕ) :
    (release o counters).length = counters.length := by
  cases o <;> simp [release]

theorem take_spec {h : Handle} {due rest : List (Handle × Frame ZmqMsg)} {f : Frame ZmqMsg}
    (ht : take h due = some (f, rest)) :
    ∃ pre post, due = pre ++ (h, f) :: post ∧ rest = pre ++ post ∧ ∀ x ∈ pre, x.1 ≠ h := by
  induction due generalizing rest with
  | nil => simp [take] at ht
  | cons x due ih =>
    unfold take at ht
    by_cases hx : x.1 = h
    · rw [if_pos hx] at ht
      obtain ⟨hf, hr⟩ := Prod.mk.inj (Option.some.inj ht)
      refine ⟨[], due, ?_, hr.symm, by simp⟩
      rw [← hx, ← hf]
      rfl
    · rw [if_neg hx] at ht
      obtain ⟨⟨g, rest'⟩, hg, hgr⟩ := Option.map_eq_some_iff.mp ht
      obtain ⟨hf, hr⟩ := Prod.mk.inj hgr
      simp only at hf
      subst hf
      obtain ⟨pre, post, hdue, hrest, hpre⟩ := ih hg
      refine ⟨x :: pre, post, by rw [hdue]; rfl, ?_, ?_⟩
      · rw [← hr, hrest]
        rfl
      · intro y hy
        rcases List.mem_cons.mp hy with hyx | hy
        · rw [hyx]
          exact hx
        · exact hpre y hy

theorem openParts_accepted (σ : State) (h : Handle) :
    Framing.openParts ((view scripted).accepted σ h) = (waitingOn σ h).map ZmqMsg.bytes := by
  have hne : ∀ m ∈ (σ.sent h).map SentMessage.toList, m ≠ [] := by
    intro m hm
    obtain ⟨s, _, rfl⟩ := List.mem_map.mp hm
    simp [SentMessage.toList]
  change Framing.openParts (Framing.stream _ ++ Framing.frames true _) = _
  rw [Framing.openParts_append, Framing.openParts, Framing.assemble_stream hne]
  have hh := Framing.assemble_open [] ((waitingOn σ h).map ZmqMsg.bytes) []
  rw [List.append_nil] at hh
  rw [hh]
  rfl

theorem stable (σ τ : State) : (view scripted).Stable σ τ := fun _ _ => rfl

theorem quiet (σ : State) (script : List ℤ) (e : ℤ) :
    (view scripted).Quiet σ { σ with script, errno := e } := ⟨⟨rfl, rfl, rfl, rfl⟩, rfl, stable _ _⟩

theorem rejected (m : ZmqMsg) (σ : State) (script : List ℤ) (e : ℤ) :
    (view scripted).RejectContract m σ m { σ with script, errno := e } :=
  ⟨trivial, rfl, rfl, quiet σ script e⟩

theorem waitingOn_append (σ : State) (h g : Handle) (m : ZmqMsg) :
    waitingOn { σ with waiting := σ.waiting ++ [(h, m)] } g =
      if h = g then waitingOn σ g ++ [m] else waitingOn σ g := by
  unfold waitingOn
  by_cases hg : h = g <;> simp [hg]

/-- A frame that announces more joins the open message of its socket. -/
theorem accept_more (m : ZmqMsg) (h : Handle) (σ : State) :
    (view scripted).AcceptContract m h ZMQ_SNDMORE σ emptyMsg (accept m h ZMQ_SNDMORE σ) := by
  have hacc : accept m h ZMQ_SNDMORE σ = { σ with waiting := σ.waiting ++ [(h, m)] } := by
    rw [accept, if_pos rfl]
  rw [hacc]
  refine ⟨trivial, rfl, rfl, ⟨m, ?_, trivial, rfl, rfl⟩, stable _ _, ?_, ?_, rfl⟩
  · change ((_ : List ZmqMsg) : Multiset ZmqMsg) = m ::ₘ ((_ : List ZmqMsg) : Multiset ZmqMsg)
    rw [Multiset.cons_coe, Multiset.coe_eq_coe, List.map_append, List.append_assoc]
    exact List.perm_middle
  · funext g
    change Framing.stream _ ++ Framing.frames true ((waitingOn _ g).map ZmqMsg.bytes) = _
    rw [waitingOn_append]
    by_cases hg : h = g
    · subst hg
      rw [if_pos rfl, Function.update_self, List.map_append,
        Framing.frames_append true _ (by simp), ← List.append_assoc]
      rfl
    · rw [if_neg hg, Function.update_of_ne (Ne.symm hg)]
  · rw [if_pos rfl]

theorem waitingOn_last (σ : State) (due : List (Handle × Frame ZmqMsg))
    (sent : Handle → List SentMessage) (h g : Handle) :
    waitingOn { σ with waiting := σ.waiting.filter (fun x => x.1 ≠ h), due, sent } g =
      if h = g then [] else waitingOn σ g := by
  unfold waitingOn
  rw [List.filter_filter]
  by_cases hg : h = g
  · subst hg
    simp
  · rw [if_neg hg]
    congr 1
    refine List.filter_congr fun x _ => ?_
    by_cases hx : x.1 = g
    · have hne : x.1 ≠ h := fun hxh => hg (hxh.symm.trans hx)
      simp [hx, Ne.symm hg]
    · simp [hx]

theorem held_last (σ : State) (h : Handle) (m : ZmqMsg) :
    ((σ.waiting.filter (fun x => x.1 ≠ h)).map Prod.snd ++
      (σ.due ++ (Framing.message (waitingOn σ h ++ [m])).map (fun f => (h + 1, f))).map
        (fun x => x.2.part)).Perm
      (m :: (σ.waiting.map Prod.snd ++ σ.due.map (fun x => x.2.part))) := by
  have hparts : ((Framing.message (waitingOn σ h ++ [m])).map (fun f => (h + 1, f))).map
      (fun x => x.2.part) = waitingOn σ h ++ [m] := by
    rw [List.map_map]
    exact Framing.frames_map_part false _
  have hsplit : (waitingOn σ h ++ (σ.waiting.filter (fun x => x.1 ≠ h)).map Prod.snd).Perm
      (σ.waiting.map Prod.snd) := by
    rw [waitingOn, ← List.map_append]
    have hh := List.filter_append_perm (fun x : Handle × ZmqMsg => decide (x.1 = h)) σ.waiting
    simpa using hh.map Prod.snd
  rw [List.map_append, hparts]
  set kept := (σ.waiting.filter (fun x => x.1 ≠ h)).map Prod.snd
  set dueParts := σ.due.map (fun x => x.2.part)
  have hrotate : (kept ++ (dueParts ++ (waitingOn σ h ++ [m]))).Perm
      ((waitingOn σ h ++ [m]) ++ (kept ++ dueParts)) := by
    rw [← List.append_assoc]
    exact List.perm_append_comm
  have hfront : ((waitingOn σ h ++ [m]) ++ (kept ++ dueParts)).Perm
      (m :: (waitingOn σ h ++ (kept ++ dueParts))) := by
    rw [List.append_assoc]
    exact List.perm_middle
  refine (hrotate.trans hfront).trans ?_
  rw [← List.append_assoc]
  exact (hsplit.append_right dueParts).cons m

theorem message_parts_bytes (parts : List ZmqMsg) :
    (Framing.message parts).map (fun f => (⟨f.part.bytes, f.more⟩ : Frame Bytes)) =
      Framing.message (parts.map ZmqMsg.bytes) := (Framing.frames_map _ _ _).symm

/-- The last part makes its message whole, and the peer can receive it. -/
theorem accept_last (m : ZmqMsg) (h : Handle) {flags : ℤ} (hf : flags ≠ ZMQ_SNDMORE)
    (σ : State) : (view scripted).AcceptContract m h flags σ emptyMsg (accept m h flags σ) := by
  rw [accept, if_neg hf]
  refine ⟨trivial, rfl, rfl, ⟨m, ?_, trivial, rfl, rfl⟩, stable _ _, ?_, ?_, rfl⟩
  · change ((_ : List ZmqMsg) : Multiset ZmqMsg) = m ::ₘ ((_ : List ZmqMsg) : Multiset ZmqMsg)
    rw [Multiset.cons_coe, Multiset.coe_eq_coe]
    exact held_last σ h m
  · funext g
    change Framing.stream ((Function.update σ.sent h _ g).map SentMessage.toList) ++
      Framing.frames true ((waitingOn _ g).map ZmqMsg.bytes) = _
    rw [waitingOn_last]
    by_cases hg : h = g
    · subst hg
      have hmsg : Framing.message ((waitingOn σ h).map ZmqMsg.bytes ++ [m.bytes]) =
          Framing.frames true ((waitingOn σ h).map ZmqMsg.bytes) ++ [⟨m.bytes, false⟩] :=
        Framing.frames_append false _ (by simp)
      rw [if_pos rfl, Function.update_self, Function.update_self, List.map_append,
        Framing.stream_append, List.map_nil, Framing.frames_nil, List.append_nil,
        decide_eq_false hf]
      change _ ++ Framing.stream [(waitingOn σ h).map ZmqMsg.bytes ++ [m.bytes]] = _
      rw [Framing.stream_cons, Framing.stream_nil, List.append_nil, hmsg, ← List.append_assoc]
    · rw [if_neg hg, Function.update_of_ne (Ne.symm hg), Function.update_of_ne (Ne.symm hg)]
  · funext g
    rw [if_neg hf, openParts_accepted]
    change ((σ.due ++ _).filter _).map _ = _
    rw [List.filter_append, List.map_append]
    change _ = if some (h + 1) = some g then _ else _
    by_cases hg : h + 1 = g
    · subst hg
      have hall : ∀ l : List (Frame ZmqMsg),
          (l.map (fun f => (h + 1, f))).filter (fun x => x.1 = h + 1) =
            l.map (fun f => (h + 1, f)) := by
        intro l
        exact List.filter_eq_self.mpr (by simp)
      rw [if_pos rfl, hall, List.map_map]
      congr 1
      exact (message_parts_bytes (waitingOn σ h ++ [m])).trans (by rw [List.map_append]; rfl)
    · have hnone : ∀ l : List (Frame ZmqMsg),
          (l.map (fun f => (h + 1, f))).filter (fun x => x.1 = g) = [] := by
        intro l
        simp [List.filter_eq_nil_iff, hg]
      rw [hnone, if_neg (fun hh => hg (Option.some.inj hh)), List.map_nil, List.append_nil]

theorem accept_spec (m : ZmqMsg) (h : Handle) (flags : ℤ) (σ : State) :
    (view scripted).AcceptContract m h flags σ emptyMsg (accept m h flags σ) := by
  by_cases hf : flags = ZMQ_SNDMORE
  · subst hf
    exact accept_more m h σ
  · exact accept_last m h hf σ

theorem next_frame {m m' : ZmqMsg} {h : Handle} {σ τ : State} {rc : ℤ}
    (hx : next m h σ = (rc, m', τ)) (hrc : 0 ≤ rc)
    (hm : ∀ b, m.block = some b → 0 < counter σ.counters b) :
    (view scripted).FrameContract m h σ m' τ := by
  unfold next at hx
  cases ht : take h σ.due with
  | none =>
    simp only [ht, Prod.mk.injEq] at hx
    omega
  | some r =>
    obtain ⟨f, due⟩ := r
    simp only [ht, Prod.mk.injEq] at hx
    obtain ⟨-, rfl, rfl⟩ := hx
    obtain ⟨pre, post, hdue, rfl, hpre⟩ := take_spec ht
    have hnone : pre.filter (fun x => x.1 = h) = [] := by
      rw [List.filter_eq_nil_iff]
      intro x hx'
      simpa using hpre x hx'
    refine ⟨trivial, ⟨f.part, ?_, rfl, rfl⟩, release_spec hm, stable _ _, rfl,
      ⟨⟨f.part.bytes, f.more⟩, (post.filter (fun x => x.1 = h)).map
        (fun x => ⟨x.2.part.bytes, x.2.more⟩), ?_, rfl, ?_, ?_, rfl⟩⟩
    · change ((_ : List ZmqMsg) : Multiset ZmqMsg) =
        f.part ::ₘ ((_ : List ZmqMsg) : Multiset ZmqMsg)
      rw [Multiset.cons_coe, Multiset.coe_eq_coe, hdue]
      simp only [List.map_append, List.map_cons, ← List.append_assoc]
      exact List.perm_middle
    · change (σ.due.filter _).map _ = _
      rw [hdue, List.filter_append, hnone, List.nil_append, List.filter_cons_of_pos (by simp)]
      rfl
    · change (if f.more = true then (1 : ℤ) else 0) ≠ 0 ↔ f.more = true
      cases f.more <;> simp
    · funext g
      change ((pre ++ post).filter _).map _ = _
      by_cases hg : g = h
      · subst hg
        rw [Function.update_self, List.filter_append, hnone, List.nil_append]
      · rw [Function.update_of_ne hg]
        change _ = (σ.due.filter _).map _
        rw [hdue, List.filter_append, List.filter_append,
          List.filter_cons_of_neg (by simpa using Ne.symm hg)]

theorem take_of_due {h : Handle} {due : List (Handle × Frame ZmqMsg)}
    (hd : due.filter (fun x => x.1 = h) ≠ []) : ∃ r, take h due = some r := by
  induction due with
  | nil => exact absurd rfl hd
  | cons x due ih =>
    unfold take
    by_cases hx : x.1 = h
    · exact ⟨(x.2, due), if_pos hx⟩
    · rw [List.filter_cons_of_neg (by simpa using hx)] at hd
      obtain ⟨r, hr⟩ := ih hd
      exact ⟨(r.1, x :: r.2), by rw [if_neg hx, hr]; rfl⟩

/-- A frame that is due can be had. -/
theorem next_available (m : ZmqMsg) {h : Handle} {σ : State}
    (hin : (view scripted).incoming σ h ≠ []) : 0 ≤ (next m h σ).1 := by
  have hd : σ.due.filter (fun x => x.1 = h) ≠ [] := by
    intro hnil
    apply hin
    show (σ.due.filter (fun x => x.1 = h)).map _ = []
    rw [hnil, List.map_nil]
  obtain ⟨r, hr⟩ := take_of_due hd
  unfold next
  rw [hr]
  exact Int.natCast_nonneg _

theorem next_reject {m m' : ZmqMsg} {h : Handle} {σ τ : State} {rc : ℤ}
    (hx : next m h σ = (rc, m', τ)) (hrc : rc < 0) :
    m' = m ∧ τ = { σ with errno := EAGAIN } := by
  unfold next at hx
  cases ht : take h σ.due with
  | none =>
    simp only [ht, Prod.mk.injEq] at hx
    exact ⟨hx.2.1.symm, hx.2.2.symm⟩
  | some r =>
    simp only [ht, Prod.mk.injEq] at hx
    have hpos : (0 : ℤ) ≤ r.1.part.bytes.length := Int.natCast_nonneg _
    omega

theorem capacity_of_success {size : ℕ} {m : ZmqMsg} {σ τ : State}
    (hx : (loopback scripted).msgInitSize size σ = (0, m, τ)) :
    m = ⟨List.replicate size 0, some σ.counters.length, false⟩ ∧
      τ = { σ with counters := σ.counters ++ [1] } := by
  change (if size ≤ capacity then _ else _) = _ at hx
  by_cases hsize : size ≤ capacity
  · rw [if_pos hsize] at hx
    injection hx with _ hx
    injection hx with hm hτ
    exact ⟨hm.symm, hτ.symm⟩
  · rw [if_neg hsize] at hx
    injection hx with hrc _
    omega

theorem fresh_block (size : ℕ) (σ : State) :
    (view scripted).InitSizeContract size σ ⟨List.replicate size 0, some σ.counters.length, false⟩
      { σ with counters := σ.counters ++ [1] } := by
  refine ⟨trivial, List.length_replicate, ?_, ?_, stable _ _, ⟨rfl, rfl, rfl, rfl⟩⟩
  · intro b
    change counter (σ.counters ++ [1]) b = counter σ.counters b + share (some _) b
    unfold counter share
    by_cases hb : σ.counters.length = b
    · subst hb
      simp
    · have hne : some σ.counters.length ≠ some b := fun hh => hb (Option.some.inj hh)
      rw [if_neg hne]
      by_cases hlt : b < σ.counters.length
      · rw [List.getElem?_append_left hlt]
        rfl
      · have hgt : σ.counters.length < b := by omega
        have hlong : (σ.counters ++ [1]).length ≤ b := by
          rw [List.length_append, List.length_singleton]
          exact hgt
        rw [List.getElem?_eq_none hlong, List.getElem?_eq_none (Nat.le_of_lt hgt)]
        rfl
  · intro b hb
    change counter σ.counters b = 0
    obtain rfl := Option.some.inj hb
    simp [counter]

theorem copy_shares {dest src dest' src' : ZmqMsg} {σ τ : State} {rc : ℤ}
    (hx : (loopback scripted).msgCopy dest src σ = (rc, dest', src', τ))
    (hdest : (view scripted).Valid σ dest) (hsrc : (view scripted).Valid σ src) :
    (view scripted).CopyContract dest src σ rc dest' src' τ := by
  cases hx
  refine ⟨rfl, trivial, trivial, rfl, rfl, rfl, rfl, ?_, stable _ _, ⟨rfl, rfl, rfl, rfl⟩⟩
  intro b
  have hrel : counter (release dest.block σ.counters) b + share dest.block b =
      counter σ.counters b := release_spec hdest.2 b
  have hret : counter (retain src.block (release dest.block σ.counters)) b =
      counter (release dest.block σ.counters) b + share src.block b := by
    apply retain_spec
    intro c hc
    rw [length_release]
    exact counter_lt (hsrc.2 c hc)
  change counter (retain src.block (release dest.block σ.counters)) b + share dest.block b =
    counter σ.counters b + share src.block b
  omega

theorem send_accepts {m m' : ZmqMsg} {h : Handle} {flags : ℤ} {σ τ : State} {rc : ℤ}
    (hx : send scripted m h flags σ = (rc, m', τ)) (hrc : 0 ≤ rc) :
    (view scripted).AcceptContract m h flags σ m' τ := by
  unfold send at hx
  split_ifs at hx with he
  · cases hx
    have hc : (view scripted).AcceptContract m h flags
        { σ with script := (outcome scripted σ).2 } emptyMsg
        (accept m h flags { σ with script := (outcome scripted σ).2 }) := accept_spec m h flags _
    exact ⟨hc.initialised, hc.block_eq, hc.refs_eq, hc.held, hc.stable, hc.accepted,
      hc.incoming, hc.midMessage⟩
  · cases hx
    omega

theorem send_rejects {m m' : ZmqMsg} {h : Handle} {flags : ℤ} {σ τ : State} {rc : ℤ}
    (hx : send scripted m h flags σ = (rc, m', τ)) (hrc : rc < 0) :
    (view scripted).RejectContract m σ m' τ := by
  have hpos : (0 : ℤ) ≤ m.bytes.length := Int.natCast_nonneg _
  unfold send at hx
  split_ifs at hx with he
  · cases hx
    omega
  · cases hx
    exact rejected m σ _ _

theorem recv_hands_out {m m' : ZmqMsg} {h : Handle} (flags : ℤ) {σ τ : State} {rc : ℤ}
    (hx : recv scripted m h flags σ = (rc, m', τ)) (hm : (view scripted).Valid σ m)
    (hrc : 0 ≤ rc) : (view scripted).FrameContract m h σ m' τ := by
  unfold recv at hx
  split_ifs at hx with hi he
  · exact next_frame hx hrc hm.2
  · have hc : (view scripted).FrameContract m h { σ with script := (outcome scripted σ).2 }
        m' τ := next_frame hx hrc hm.2
    exact ⟨hc.initialised, hc.held, hc.refs_eq, hc.stable, hc.accepted, hc.incoming⟩
  · cases hx
    omega

theorem recv_rejects {m m' : ZmqMsg} {h : Handle} (flags : ℤ) {σ τ : State} {rc : ℤ}
    (hx : recv scripted m h flags σ = (rc, m', τ)) (hrc : rc < 0) :
    (view scripted).RejectContract m σ m' τ := by
  unfold recv at hx
  split_ifs at hx with hi he
  · obtain ⟨rfl, rfl⟩ := next_reject hx hrc
    exact rejected m' σ σ.script EAGAIN
  · obtain ⟨rfl, rfl⟩ := next_reject hx hrc
    exact rejected m' σ _ EAGAIN
  · cases hx
    exact rejected m σ _ _

/-- The loopback behaves as libzmq's manual says. -/
theorem laws : (view scripted).Laws where
  size_eq _ _ _ := rfl
  init := by
    intro σ rc m τ hx
    cases hx
    exact ⟨rfl, trivial, rfl, rfl, ⟨⟨rfl, rfl, rfl, rfl⟩, rfl, stable _ _⟩⟩
  initSize_ok := by
    intro size σ m τ hx
    obtain ⟨rfl, rfl⟩ := capacity_of_success hx
    exact fresh_block size σ
  initSize_fail := by
    intro size σ rc m τ hx hrc
    change (if size ≤ capacity then _ else _) = _ at hx
    by_cases hsize : size ≤ capacity
    · rw [if_pos hsize] at hx
      cases hx
      exact absurd rfl hrc
    · rw [if_neg hsize] at hx
      cases hx
      exact ⟨⟨rfl, rfl, rfl, rfl⟩, rfl, stable _ _⟩
  write := by
    intro m bytes σ m' τ hx _ _
    cases hx
    exact ⟨trivial, rfl, rfl, rfl, fun _ _ => rfl, ⟨rfl, rfl, rfl, rfl⟩⟩
  copy := copy_shares
  close := by
    intro m σ rc τ hx hm
    cases hx
    exact ⟨rfl, release_spec hm.2, stable _ _, ⟨rfl, rfl, rfl, rfl⟩⟩
  send_accept hx _ hrc := send_accepts hx hrc
  send_reject hx _ hrc := send_rejects hx hrc
  recv_frame := by
    intro m h flags σ rc m' τ hx hm hrc
    exact recv_hands_out flags hx hm hrc
  recv_reject := by
    intro m h flags σ rc m' τ hx _ _ hrc
    exact recv_rejects flags hx hrc
  transport _ σ := ⟨stable _ _, rfl, rfl, fun _ => ⟨[], by simp, by simp⟩, Or.inl ⟨rfl, rfl⟩⟩

theorem initial (script : List ℤ) : (view scripted).Initial (State.start script) :=
  ⟨fun _ => rfl, rfl⟩

end CpperoMQ.Loopback
