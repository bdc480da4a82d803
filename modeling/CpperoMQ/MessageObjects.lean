import CpperoMQ.MessageCalls

/-!
# What each member function of the message classes does

Construction, destruction, moves, `swap`, `OutgoingMessage::send` and
`IncomingMessage::receive`, each from any consistent state. A send leaves every
object as it reads, its own included; a receive changes its own object only.
-/
namespace CpperoMQ
open Effects Effects.Exec Libzmq.View World

namespace World
variable {Z : Libzmq} {V : Z.View} {w w' w'' : World Z} {i j : ObjId}

theorem lt_next_of_payload {p : Bytes} (h : w.payload i = some p) : i < w.messages.next := by
  obtain ⟨m, hm, _⟩ := payload_eq_some.mp h
  obtain ⟨k, hk⟩ := slot_eq_some.mp hm
  exact ObjectPool.lt_next_of_get hk

@[simp] theorem slot_next (w : World Z) : w.slot w.messages.next = none := by simp [slot]

@[simp] theorem kind_next (w : World Z) : w.kind w.messages.next = none := by simp [kind]

@[simp] theorem payload_next (w : World Z) : w.payload w.messages.next = none := by
  simp [payload]

/-- Storage for a new object. -/
def alloc (w : World Z) (k : MessageKind) : World Z :=
  { w with messages := w.messages.alloc ⟨k, .raw⟩ }

/-- End of an object's storage. -/
def free (w : World Z) (i : ObjId) : World Z := { w with messages := w.messages.put i none }

theorem slot_alloc (w : World Z) (k : MessageKind) (j : ObjId) :
    (w.alloc k).slot j = if j = w.messages.next then some .raw else w.slot j := by
  split_ifs with h
  · simp [slot, alloc, h]
  · simp only [slot, alloc, ObjectPool.get_alloc_of_ne _ _ h]

theorem alloc_spec (hw : Consistent V w) (k : MessageKind) :
    Touches V w.messages.next w (w.alloc k) ∧
      (w.alloc k).slot w.messages.next = some .raw ∧
      (w.alloc k).kind w.messages.next = some k := by
  have hw' : Consistent V (w.alloc k) := by
    refine ⟨?_, hw.frames, ?_, hw.sound⟩
    · intro j m hj
      rw [slot_alloc] at hj
      split_ifs at hj with hjn
      · cases hj
      · exact hw.slots j m hj
    · intro b
      have hc := ObjectPool.count_alloc w.messages (Message.holds V b) ⟨k, .raw⟩
      rw [weight_holds, share_raw, Nat.add_zero] at hc
      change V.refs w.zmq b = (w.messages.alloc ⟨k, .raw⟩).count _ + inFlight V w.zmq b
      rw [hc, hw.counts b]
  refine ⟨⟨hw', ⟨fun j hj => ?_, fun j hj => ?_⟩, ⟨rfl, rfl, rfl, rfl⟩⟩, ?_, ?_⟩
  · simp only [kind, alloc, ObjectPool.get_alloc_of_ne _ _ hj]
  · refine payload_stable hw hw' (fun m _ => rfl) ?_
    rw [slot_alloc, if_neg hj]
  · rw [slot_alloc, if_pos rfl]
  · simp [kind, alloc]

theorem free_spec (hw : Consistent V w) {s : MsgSlot Z.Msg} (h : w.slot i = some s)
    (hs : ∀ b, s.share V b = 0) :
    Touches V i w (w.free i) ∧ (w.free i).kind i = none ∧ (w.free i).payload i = none := by
  obtain ⟨k, hk⟩ := slot_eq_some.mp h
  have hlt := ObjectPool.lt_next_of_get hk
  have hslot : ∀ j, (w.free i).slot j = if j = i then none else w.slot j := by
    intro j
    simp only [slot, free, ObjectPool.get_put hlt]
    split_ifs <;> rfl
  have hw' : Consistent V (w.free i) := by
    refine ⟨?_, hw.frames, ?_, hw.sound⟩
    · intro j m hj
      rw [hslot] at hj
      split_ifs at hj
      exact hw.slots j m hj
    · intro b
      have hc := ObjectPool.count_put hlt (Message.holds V b) none
      rw [hk, weight_holds, hs b, ObjectPool.weight_none] at hc
      change V.refs w.zmq b = (w.messages.put i none).count _ + inFlight V w.zmq b
      have hb := hw.counts b
      omega
  refine ⟨⟨hw', ⟨fun j hj => ?_, fun j hj => ?_⟩, ⟨rfl, rfl, rfl, rfl⟩⟩, ?_, ?_⟩
  · simp only [kind, free, ObjectPool.get_put hlt, if_neg hj]
  · refine payload_stable hw hw' (fun m _ => rfl) ?_
    rw [hslot, if_neg hj]
  · simp [kind, free, ObjectPool.get_put hlt]
  · simp [payload, hslot]

theorem Sent.of_frames {h : Handle} {bytes : Bytes} {more : Bool} {w₁ w₂ : World Z}
    (h₁ : SameFrames V w w₁) (hs : Sent V h bytes more w₁ w₂) (h₂ : SameFrames V w₂ w') :
    Sent V h bytes more w w' where
  shown := by rw [h₂.shown, hs.shown, h₁.shown]
  accepted := by rw [h₂.accepted, hs.accepted, h₁.accepted]
  incoming := by rw [h₂.incoming, hs.incoming, h₁.incoming, h₁.accepted]
  midMessage := by rw [h₂.midMessage, hs.midMessage, h₁.midMessage]

theorem Received.of_frames {h : Handle} {frame : Frame Bytes} {w₁ : World Z}
    (h₁ : SameFrames V w w₁) (hr : Received V h frame w₁ w') : Received V h frame w w' where
  shown := by rw [← h₁.shown, hr.shown]
  accepted := by rw [hr.accepted, h₁.accepted]
  incoming := by
    obtain ⟨rest, hin, hin'⟩ := hr.incoming
    exact ⟨rest, by rw [← h₁.incoming, hin], by rw [hin', h₁.incoming]⟩
  midMessage := by rw [hr.midMessage, h₁.midMessage]

end World

section Members
variable {Z : Libzmq} {V : Z.View} {w : World Z} {i j : ObjId}

theorem Message.init_spec (hZ : V.Laws) (hw : Consistent V w)
    (h : w.slot i = some .raw) :
    ∃ w', Message.init i w = (.returned (), w') ∧ Local V i w w' ∧ w'.payload i = some [] ∧
      w'.calls = w.calls ++ [.init 0] := by
  obtain ⟨w', hx, hL, hp, hc⟩ := zmqMsgInit_spec hZ hw h share_raw
  refine ⟨w', ?_, hL, hp, hc⟩
  simp [Message.init, bind_of_returned hx]

theorem Message.initData_spec (hZ : V.Laws) (hw : Consistent V w) (sourceData : Bytes)
    (h : w.slot i = some .raw) :
    (∃ w', Message.initData sourceData i w = (.returned (), w') ∧ Local V i w w' ∧
      w'.payload i = some sourceData ∧ w'.calls = w.calls ++ [.initSize 0]) ∨
    ∃ w' e rc, Message.initData sourceData i w = (.threw e, w') ∧ Local V i w w' ∧
      w'.slot i = some .raw ∧ w'.calls = w.calls ++ [.initSize rc] := by
  rcases zmqMsgInitSize_spec hZ hw h share_raw sourceData.length with
    ⟨w₁, m, hx, hL, hm, hlen, hobj, hfr, hc⟩ | ⟨w₁, rc, hx, hrc, hL, hraw, hc⟩
  · obtain ⟨w₂, hy, hL', hp, hc'⟩ := zmqMsgFill_spec hZ hL.consistent hm hlen.symm hobj hfr
    refine Or.inl ⟨w₂, ?_, hL.trans hL', hp, hc'.trans hc⟩
    simp [Message.initData, bind_of_returned hx, hy]
  · refine Or.inr ⟨w₁, ⟨Z.errno w₁.zmq⟩, rc, ?_, hL, hraw, hc⟩
    simp [Message.initData, bind_of_returned hx, hrc, raiseError]

theorem Message.create_apply {k : MessageKind} {constructor : ObjId → Action Z Unit}
    {w' : World Z} (hx : constructor w.messages.next (w.alloc k) = (.returned (), w')) :
    Message.create k constructor w = (.returned w.messages.next, w') := by
  rw [alloc] at hx
  simp only [Message.create, hx]

/-- A completed constructor leaves a live object of the requested kind. -/
theorem Message.create_of_returned (hw : Consistent V w) {k : MessageKind}
    {constructor : ObjId → Action Z Unit} {w' : World Z} {p : Bytes}
    (hx : constructor w.messages.next (w.alloc k) = (.returned (), w'))
    (hL : Local V w.messages.next (w.alloc k) w') (hp : w'.payload w.messages.next = some p) :
    Message.create k constructor w = (.returned w.messages.next, w') ∧
      Touches V w.messages.next w w' ∧ w'.kind w.messages.next = some k ∧
      w'.payload w.messages.next = some p := by
  obtain ⟨hT, _, hk⟩ := alloc_spec (V := V) hw k
  exact ⟨Message.create_apply hx, hT.trans hL.toTouches, hL.kind_eq.trans hk, hp⟩

/-- A constructor that threw leaves no object. -/
theorem Message.create_of_threw (hw : Consistent V w) {k : MessageKind}
    {constructor : ObjId → Action Z Unit} {w' : World Z} {e : Error}
    (hx : constructor w.messages.next (w.alloc k) = (.threw e, w'))
    (hL : Local V w.messages.next (w.alloc k) w') (hs : w'.slot w.messages.next = some .raw) :
    Message.create k constructor w = (.threw e, w'.free w.messages.next) ∧
      Touches V w.messages.next w (w'.free w.messages.next) ∧
      (w'.free w.messages.next).kind w.messages.next = none := by
  obtain ⟨hT, _, _⟩ := alloc_spec (V := V) hw k
  obtain ⟨hF, hk, _⟩ := free_spec (V := V) hL.consistent hs share_raw
  refine ⟨?_, (hT.trans hL.toTouches).trans hF, hk⟩
  rw [alloc] at hx
  simp only [Message.create, hx]
  rfl

theorem Message.drop_spec (hZ : V.Laws) (hw : Consistent V w) {p : Bytes}
    (hp : w.payload i = some p) :
    ∃ w', Message.drop i w = (.returned (), w') ∧ Local V i w w' ∧
      w'.slot i = some .closed ∧ w'.calls = w.calls ++ [.close true 0] := by
  obtain ⟨m, hm, _⟩ := payload_eq_some.mp hp
  obtain ⟨w', hx, hL, hs, hc⟩ := zmqMsgClose_spec hZ hw hm
  exact ⟨w', by simp [Message.drop, bind_of_returned hx], hL, hs, hc⟩

theorem Message.destroy_spec (hZ : V.Laws) (hw : Consistent V w) {p : Bytes}
    (hp : w.payload i = some p) :
    ∃ w', Message.destroy i w = (.returned (), w') ∧ Touches V i w w' ∧ w'.kind i = none ∧
      w'.payload i = none ∧ w'.calls = w.calls ++ [.close true 0] := by
  obtain ⟨w₁, hx, hL, hs, hc⟩ := Message.drop_spec hZ hw hp
  obtain ⟨hT, hk, hpay⟩ := free_spec (V := V) hL.consistent hs share_closed
  refine ⟨w₁.free i, ?_, hL.toTouches.trans hT, hk, hpay, hc⟩
  simp [Message.destroy, bind_of_returned hx]
  rfl

/-- The two objects exchange what they show; nothing else changes. -/
theorem Message.swap_spec (hw : Consistent V w) {p q : Bytes} (hi : w.payload i = some p)
    (hj : w.payload j = some q) :
    ∃ w', Message.swap i j w = (.returned (), w') ∧ Consistent V w' ∧ SameFrames V w w' ∧
      (∀ k, w'.kind k = w.kind k) ∧ w'.payload i = some q ∧ w'.payload j = some p ∧
      (∀ k, k ≠ i → k ≠ j → w'.payload k = w.payload k) ∧ w'.calls = w.calls := by
  obtain ⟨m, hm, rfl⟩ := payload_eq_some.mp hi
  obtain ⟨n, hn, rfl⟩ := payload_eq_some.mp hj
  have hj₁ : (w.setSlot i (.ready n)).slot j = some (.ready n) := by
    rw [slot_setSlot hm]
    split_ifs with h
    · rfl
    · exact hn
  let w' := (w.setSlot i (.ready n)).setSlot j (.ready m)
  have hslot : ∀ k, w'.slot k =
      if k = j then some (.ready m) else if k = i then some (.ready n) else w.slot k := by
    intro k
    simp only [w', slot_setSlot hj₁, slot_setSlot hm]
  have hzmq : w'.zmq = w.zmq := by simp [w']
  have hw' : Consistent V w' := by
    refine ⟨?_, by rw [hzmq]; exact hw.frames, ?_, by simpa [w'] using hw.sound⟩
    · intro k x hx
      rw [hslot] at hx
      split_ifs at hx with hkj hki
      · cases hx; exact hw.slots i m hm
      · cases hx; exact hw.slots j n hn
      · exact hw.slots k x hx
    · intro b
      have h₁ := count_setSlot (V := V) hm (.ready n) b
      have h₂ := count_setSlot (V := V) hj₁ (.ready m) b
      have hb := hw.counts b
      rw [hzmq]
      change _ = ((w.setSlot i (.ready n)).setSlot j (.ready m)).messages.count _ + _
      omega
  have hframes : SameFrames V w w' := by
    refine ⟨?_, ?_, ?_, ?_⟩ <;> simp only [shown, hzmq]
  refine ⟨w', by simp [Message.swap, hm, hn, w'], hw', hframes,
    fun k => by simp [w'], ?_, ?_, fun k hki hkj => ?_, by simp [w']⟩
  · rw [payload_eq_some]
    by_cases h : i = j
    · have hmn : m = n := by
        rw [h, hn] at hm
        injection hm with hm
        injection hm with hm
        exact hm.symm
      exact ⟨m, by rw [hslot, if_pos h], by rw [hzmq, hmn]⟩
    · exact ⟨n, by rw [hslot, if_neg h, if_pos rfl], by rw [hzmq]⟩
  · exact payload_eq_some.mpr ⟨m, by rw [hslot, if_pos rfl], by rw [hzmq]⟩
  · refine payload_stable hw hw' (fun x _ => by rw [hzmq]) ?_
    rw [hslot, if_neg hkj, if_neg hki]

/-- A move-constructed object takes what the other shows and leaves it empty. -/
theorem Message.initMove_spec (hZ : V.Laws) (hw : Consistent V w) {p : Bytes} (hij : j ≠ i)
    (h : w.slot i = some .raw) (hj : w.payload j = some p) :
    ∃ w', Message.initMove j i w = (.returned (), w') ∧ Consistent V w' ∧ SameFrames V w w' ∧
      (∀ k, w'.kind k = w.kind k) ∧ w'.payload i = some p ∧ w'.payload j = some [] ∧
      (∀ k, k ≠ i → k ≠ j → w'.payload k = w.payload k) ∧
      w'.calls = w.calls ++ [.init 0] := by
  obtain ⟨w₁, hx, hL, hp, hc⟩ := Message.init_spec hZ hw h
  have hj₁ : w₁.payload j = some p := (hL.keeps.payloads j hij).trans hj
  obtain ⟨w₂, hy, hw₂, hf, hk, hpi, hpj, ho, hc₂⟩ := Message.swap_spec hL.consistent hp hj₁
  refine ⟨w₂, ?_, hw₂, hL.frames.trans hf, fun k => (hk k).trans ?_, hpi, hpj,
    fun k hki hkj => (ho k hki hkj).trans (hL.keeps.payloads k hki), hc₂.trans hc⟩
  · simp [Message.initMove, bind_of_returned hx, hy]
  · by_cases h : k = i
    · rw [h, hL.kind_eq]
    · exact hL.keeps.kinds k h

theorem Message.shallowCopy_spec (hZ : V.Laws) (hw : Consistent V w) {p q : Bytes} (hij : j ≠ i)
    (hi : w.payload i = some q) (hj : w.payload j = some p) :
    ∃ w', Message.shallowCopy j i w = (.returned (), w') ∧ Local V i w w' ∧
      w'.payload i = some p ∧ w'.calls = w.calls ++ [.copy true 0] := by
  obtain ⟨d, hd, _⟩ := payload_eq_some.mp hi
  obtain ⟨s, hs, _⟩ := payload_eq_some.mp hj
  obtain ⟨w', hx, hL, hp, hc⟩ := zmqMsgCopy_spec hZ hw hij hd hs
  refine ⟨w', ?_, hL, hp.trans hj, hc⟩
  simp [Message.shallowCopy, bind_of_returned hx]

/-- An object created and destroyed in between leaves no trace in the pool. -/
theorem keeps_of_temporary {w' : World Z} (h : Keeps (· = w.messages.next) w w')
    (hk : w'.kind w.messages.next = none) (hp : w'.payload w.messages.next = none) :
    Keeps (fun _ => False) w w' := by
  refine ⟨fun j _ => ?_, fun j _ => ?_⟩
  · by_cases hj : j = w.messages.next
    · rw [hj, hk, kind_next]
    · exact h.kinds j hj
  · by_cases hj : j = w.messages.next
    · rw [hj, hp, payload_next]
    · exact h.payloads j hj

/-- `ZMQ_SNDMORE` or nothing. -/
def sendFlags (moreToSend : Bool) : ℤ := if moreToSend then ZMQ_SNDMORE else 0

@[simp] theorem sendFlags_eq_sndmore (more : Bool) :
    decide (sendFlags more = ZMQ_SNDMORE) = more := by
  cases more <;> decide

/-- The libzmq calls of one send, whatever comes of it. -/
def sendCalls (h : Handle) (bytes : Bytes) (more : Bool) (v : Verdict) : List Call :=
  [.init 0, .copy true 0, .send true h bytes (sendFlags more) v, .close true 0]

/-- What a failed transfer call makes of `send`. -/
def failure {α : Type} (refused : α) (errno : ℤ) : Outcome Error α :=
  if errno = EAGAIN then .returned refused else .threw ⟨errno⟩

theorem failure_ne_aborted {α : Type} (refused : α) (errno : ℤ) :
    failure refused errno ≠ .aborted := by
  unfold failure
  split_ifs <;> simp

/-- What follows a failed transfer passes the failure on. -/
theorem bind_of_failure {α β : Type} {x : Action Z α} {f : α → Action Z β} {a : α} {b : β}
    {e : ℤ} {w' : World Z} (hx : x w = (failure a e, w')) (hf : f a w' = (.returned b, w')) :
    x.bind f w = (failure b e, w') := by
  unfold failure at hx ⊢
  split_ifs at hx ⊢ with he
  · rw [bind_of_returned hx, hf]
  · exact bind_of_threw hx f

/-- The end both transfer functions share: false on `EAGAIN`, else an exception. -/
theorem failed_call_apply {α : Type} (refused : α) (w : World Z) :
    (zmqErrno.bind fun errno => if errno = EAGAIN then pure refused else raiseError :
      Action Z α) w = (failure refused (Z.errno w.zmq), w) := by
  rw [zmqErrno, bind_of_returned (read_apply _ _), failure]
  split_ifs <;> rfl

/-- The return code of the `zmq_msg_send` that a call of `OutgoingMessage::send` makes. -/
def OutgoingMessage.sendCode (this : ObjId) (socket : Socket) (moreToSend : Bool)
    (w : World Z) : ℤ :=
  match socket.mSocket with
  | none => -1
  | some handle =>
    match (do
      let message ← OutgoingMessage.new
      Message.shallowCopy this message
      zmqMsgSend message handle (sendFlags moreToSend) : Action Z ℤ) w with
    | (.returned rc, _) => rc
    | _ => -1

/-- `OutgoingMessage::send` hands over the object's bytes once, leaves every
object as it reads, and releases the temporary whatever the outcome. -/
theorem OutgoingMessage.send_spec (hZ : V.Laws) (hw : Consistent V w) {bytes : Bytes}
    (hp : w.payload i = some bytes) {socket : Socket} {h : Handle}
    (hs : socket.mSocket = some h) (more : Bool) :
    (∃ w', OutgoingMessage.send i socket more w = (.returned true, w') ∧ Consistent V w' ∧
      Keeps (fun _ => False) w w' ∧ Sent V h bytes more w w' ∧
      0 ≤ OutgoingMessage.sendCode i socket more w ∧
      w'.calls = w.calls ++ sendCalls h bytes more .ok) ∨
    ∃ w' e, OutgoingMessage.send i socket more w = (failure false e, w') ∧ Consistent V w' ∧
      Keeps (fun _ => False) w w' ∧ SameFrames V w w' ∧
      ¬0 ≤ OutgoingMessage.sendCode i socket more w ∧
      w'.calls = w.calls ++ sendCalls h bytes more (.failed e) := by
  have hit : i ≠ w.messages.next := Nat.ne_of_lt (lt_next_of_payload hp)
  obtain ⟨hTa, hraw, _⟩ := alloc_spec (V := V) hw .outgoing
  obtain ⟨w₁, hinit, hL₁, hp₁, hc₁⟩ := Message.init_spec hZ hTa.consistent hraw
  obtain ⟨hnew, hT₁, _, _⟩ := Message.create_of_returned hw hinit hL₁ hp₁
  have hpi₁ : w₁.payload i = some bytes := (hT₁.keeps.payloads i hit).trans hp
  obtain ⟨w₂, hcopy, hL₂, hp₂, hc₂⟩ :=
    Message.shallowCopy_spec hZ hT₁.consistent hit hp₁ hpi₁
  have hT₂ := hT₁.trans hL₂.toTouches
  have hcode : ∀ {rc : ℤ} {w₃ : World Z},
      zmqMsgSend w.messages.next h (sendFlags more) w₂ = (.returned rc, w₃) →
      OutgoingMessage.sendCode i socket more w = rc := by
    intro rc w₃ hsend
    simp only [OutgoingMessage.sendCode, OutgoingMessage.new, hs, bind_eq, bind_of_returned hnew,
      bind_of_returned hcopy, hsend]
  rcases zmqMsgSend_spec hZ hT₂.consistent hp₂ h (sendFlags more) with
    ⟨w₃, rc, hsend, hrc, hw₃, hk₃, _, hsome, hsent, hc₃⟩ |
    ⟨w₃, rc, hsend, hrc, hL₃, hp₃, hc₃⟩
  · obtain ⟨q, hq⟩ := Option.isSome_iff_exists.mp hsome
    obtain ⟨w₄, hdrop, hT₄, hk₄, hp₄, hc₄⟩ := Message.destroy_spec hZ hw₃ hq
    refine Or.inl ⟨w₄, ?_, hT₄.consistent, ?_, ?_, by rwa [hcode hsend], ?_⟩
    · simp only [OutgoingMessage.send, hs]
      refine withLocal_of_leave hnew ?_ (by simp) hdrop
      rw [bind_eq, bind_of_returned hcopy]
      change Exec.bind (zmqMsgSend _ h (sendFlags more)) _ w₂ = _
      rw [bind_of_returned hsend, if_pos hrc, pure_apply]
    · exact keeps_of_temporary ((hT₂.keeps.trans hk₃).trans hT₄.keeps) hk₄ hp₄
    · simpa using hsent.of_frames hT₂.frames hT₄.frames
    · have hc₁' : w₁.calls = w.calls ++ [.init 0] := hc₁
      simp [hc₄, hc₃, hc₂, hc₁', sendCalls]
  · obtain ⟨w₄, hdrop, hT₄, hk₄, hp₄, hc₄⟩ := Message.destroy_spec hZ hL₃.consistent hp₃
    refine Or.inr ⟨w₄, Z.errno w₃.zmq, ?_, hT₄.consistent, ?_, ?_, by rwa [hcode hsend], ?_⟩
    · simp only [OutgoingMessage.send, hs]
      refine withLocal_of_leave hnew ?_ (failure_ne_aborted _ _) hdrop
      rw [bind_eq, bind_of_returned hcopy]
      change Exec.bind (zmqMsgSend _ h (sendFlags more)) _ w₂ = _
      rw [bind_of_returned hsend, if_neg hrc]
      exact failed_call_apply false w₃
    · exact keeps_of_temporary ((hT₂.keeps.trans hL₃.keeps).trans hT₄.keeps) hk₄ hp₄
    · exact (hT₂.frames.trans hL₃.frames).trans hT₄.frames
    · have hc₁' : w₁.calls = w.calls ++ [.init 0] := hc₁
      simp [hc₄, hc₃, hc₂, hc₁', sendCalls]

/-- The libzmq calls of one receive, whatever comes of it. -/
def receiveCalls (h : Handle) (v : Verdict) : List Call :=
  [.close true 0, .init 0, .recv true h v]

/-- The return code of the `zmq_msg_recv` that a call of `IncomingMessage::receive` makes. -/
def IncomingMessage.receiveCode (this : ObjId) (socket : Socket) (w : World Z) : ℤ :=
  match socket.mSocket with
  | none => -1
  | some handle =>
    match (do
      let _ ← zmqMsgClose this
      let _ ← zmqMsgInit this
      zmqMsgRecv this handle 0 : Action Z ℤ) w with
    | (.returned rc, _) => rc
    | _ => -1

/-- libzmq refused to hand out a frame where the frames are as in `w`. -/
def RecvRefused (V : Z.View) (h : Handle) (w : World Z) : Prop :=
  ∃ σ m, V.Valid σ m ∧ V.incoming σ = V.incoming w.zmq ∧ V.midMessage σ = V.midMessage w.zmq ∧
    (Z.msgRecv m h 0 σ).1 < 0

/-- `IncomingMessage::receive` takes the next frame, or leaves its object empty. -/
theorem IncomingMessage.receive_spec (hZ : V.Laws) (hw : Consistent V w) {p : Bytes}
    (hp : w.payload i = some p) {socket : Socket} {h : Handle}
    (hs : socket.mSocket = some h) :
    (∃ w' frame, IncomingMessage.receive i socket w = (.returned (true, frame.more), w') ∧
      Consistent V w' ∧ Keeps (· = i) w w' ∧ w'.kind i = w.kind i ∧
      w'.payload i = some frame.part ∧ Received V h frame w w' ∧
      0 ≤ IncomingMessage.receiveCode i socket w ∧
      w'.calls = w.calls ++ receiveCalls h .ok) ∨
    ∃ w' e, IncomingMessage.receive i socket w = (failure (false, false) e, w') ∧
      Local V i w w' ∧ w'.payload i = some [] ∧ RecvRefused V h w ∧
      ¬0 ≤ IncomingMessage.receiveCode i socket w ∧
      w'.calls = w.calls ++ receiveCalls h (.failed e) := by
  obtain ⟨m, hm, _⟩ := payload_eq_some.mp hp
  obtain ⟨w₁, hclose, hL₁, hs₁, hc₁⟩ := zmqMsgClose_spec hZ hw hm
  obtain ⟨w₂, hinit, hL₂, hp₂, hc₂⟩ := zmqMsgInit_spec hZ hL₁.consistent hs₁ share_closed
  have hL := hL₁.trans hL₂
  have hcode : ∀ {rc : ℤ} {w₃ : World Z}, zmqMsgRecv i h 0 w₂ = (.returned rc, w₃) →
      IncomingMessage.receiveCode i socket w = rc := by
    intro rc w₃ hrecv
    simp only [IncomingMessage.receiveCode, hs, bind_eq, bind_of_returned hclose,
      bind_of_returned hinit, hrecv]
  rcases zmqMsgRecv_spec hZ hL.consistent hp₂ h 0 with
    ⟨w₃, rc, frame, hrecv, hrc, hw₃, hk₃, hkind, hp₃, hrcv, ⟨more, hmore, hiff⟩, hc₃⟩ |
    ⟨w₃, rc, hrecv, hrc, hL₃, hp₃, ⟨x, hx, hneg⟩, hc₃⟩
  · refine Or.inl ⟨w₃, frame, ?_, hw₃, hL.keeps.trans hk₃, hkind.trans hL.kind_eq, hp₃,
      hrcv.of_frames hL.frames, by rwa [hcode hrecv], by simp [hc₃, hc₂, hc₁, receiveCalls]⟩
    have hflag : decide (more ≠ 0) = frame.more := by
      rw [Bool.eq_iff_iff, decide_eq_true_iff]
      exact hiff
    simp only [IncomingMessage.receive, hs, bind_eq, bind_of_returned hclose, ne_eq,
      not_true_eq_false, if_false, bind_of_returned hinit, bind_of_returned hrecv, if_pos hrc,
      bind_of_returned hmore, pure_apply]
    simp only [← hflag, ne_eq]
  · have hrefused : RecvRefused V h w :=
      ⟨w₂.zmq, x, hL.consistent.valid hx, hL.frames.incoming, hL.frames.midMessage, hneg⟩
    refine Or.inr ⟨w₃, Z.errno w₃.zmq, ?_, hL.trans hL₃, hp₃, hrefused, by rwa [hcode hrecv],
      by simp [hc₃, hc₂, hc₁, receiveCalls]⟩
    simp only [IncomingMessage.receive, hs, bind_eq, bind_of_returned hclose, ne_eq,
      not_true_eq_false, if_false, bind_of_returned hinit, bind_of_returned hrecv, if_neg hrc]
    exact failed_call_apply (false, false) w₃

end Members
end CpperoMQ
