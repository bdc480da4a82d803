import CpperoMQ.MessageInvariant

/-!
# What each libzmq call on a message object does

One theorem for each call, from a consistent state in which the object is in the
state the call needs. They are the only place where the contracts of libzmq are
used; the member functions of the message classes are analysed through them.
-/
namespace CpperoMQ
open Effects Libzmq.View

namespace World
variable {Z : Libzmq} {V : Z.View} {w w' w'' : World Z} {i j : ObjId}

/-- `w'` comes from `w` by calls that touch one object and move no frame. -/
structure Touches (V : Z.View) (i : ObjId) (w w' : World Z) : Prop where
  consistent : Consistent V w'
  keeps : Keeps (· = i) w w'
  frames : SameFrames V w w'

/-- The same, and the object is neither created nor destroyed. -/
structure Local (V : Z.View) (i : ObjId) (w w' : World Z) : Prop extends
    Touches V i w w' where
  kind_eq : w'.kind i = w.kind i

theorem Touches.trans (h : Touches V i w w') (h' : Touches V i w' w'') : Touches V i w w'' :=
  ⟨h'.consistent, h.keeps.trans h'.keeps, h.frames.trans h'.frames⟩

theorem Local.trans (h : Local V i w w') (h' : Local V i w' w'') : Local V i w w'' :=
  ⟨h.toTouches.trans h'.toTouches, h'.kind_eq.trans h.kind_eq⟩

theorem local_setSlot (hw : Consistent V w) {s t : MsgSlot Z.Msg} {σ : Z.State} {c : Call}
    (h : w.slot i = some s) (ht : ∀ m, t = .ready m → V.initialised m)
    (hrefs : ∀ b, V.refs σ b + s.share V b = V.refs w.zmq b + t.share V b)
    (hst : V.Stable w.zmq σ) (hwire : V.SameWire w.zmq σ) (hc : c.Sound) :
    Local V i w ((w.setSlot i t).record σ c) := by
  have hw' : Consistent V ((w.setSlot i t).record σ c) := by
    refine hw.setSlot h ht ?_ ?_ hc
    · rw [hwire.held]; exact hw.frames
    · intro b
      have hb := hrefs b
      have hflight : inFlight V σ b = inFlight V w.zmq b := by
        unfold inFlight; rw [hwire.held]
      omega
  exact ⟨⟨hw', keeps_setSlot hw hw' h hst, sameFrames_of_wire hw hw' hst hwire⟩, by simp⟩

@[simp] theorem share_raw (b : ℕ) : (MsgSlot.raw : MsgSlot Z.Msg).share V b = 0 := rfl

@[simp] theorem share_closed (b : ℕ) : (MsgSlot.closed : MsgSlot Z.Msg).share V b = 0 := rfl

theorem share_ready (m : Z.Msg) (b : ℕ) :
    (MsgSlot.ready m).share V b = Libzmq.View.share (V.block m) b := rfl

theorem share_ready_of_none {m : Z.Msg} (h : V.block m = none) (b : ℕ) :
    (MsgSlot.ready m).share V b = 0 := by simp [share_ready, h, Libzmq.View.share]

theorem zmqMsgInit_spec (hZ : V.Laws) (hw : Consistent V w) {s : MsgSlot Z.Msg}
    (h : w.slot i = some s) (hs : ∀ b, s.share V b = 0) :
    ∃ w', zmqMsgInit i w = (.returned 0, w') ∧ Local V i w w' ∧ w'.payload i = some [] ∧
      w'.calls = w.calls ++ [.init 0] := by
  rcases hx : Z.msgInit w.zmq with ⟨rc, m, σ⟩
  have hc := hZ.init hx
  obtain rfl := hc.rc_eq
  have hslot : ((w.setSlot i (.ready m)).record σ (.init 0)).slot i = some (.ready m) := by
    rw [slot_record, slot_setSlot_self h]
  refine ⟨(w.setSlot i (.ready m)).record σ (.init 0), by simp [zmqMsgInit, hx], ?_, ?_,
    by simp⟩
  · refine local_setSlot hw h (fun x hx => ?_) (fun b => ?_) hc.quiet.stable hc.quiet.wire rfl
    · cases hx; exact hc.initialised
    · rw [hc.quiet.refs, hs b, share_ready_of_none hc.block_eq]
  · rw [payload_of_slot hslot, zmq_record, hc.data_eq]

theorem zmqMsgInitSize_spec (hZ : V.Laws) (hw : Consistent V w) {s : MsgSlot Z.Msg}
    (h : w.slot i = some s) (hs : ∀ b, s.share V b = 0) (size : ℕ) :
    (∃ w' m, zmqMsgInitSize i size w = (.returned 0, w') ∧ Local V i w w' ∧
      w'.slot i = some (.ready m) ∧ (Z.msgData w'.zmq m).length = size ∧
      (∀ j x b, j ≠ i → w'.slot j = some (.ready x) → V.block x = some b →
        V.block m ≠ some b) ∧
      (∀ f ∈ V.held w'.zmq, ∀ b, V.block f = some b → V.block m ≠ some b) ∧
      w'.calls = w.calls ++ [.initSize 0]) ∨
    ∃ w' rc, zmqMsgInitSize i size w = (.returned rc, w') ∧ rc ≠ 0 ∧ Local V i w w' ∧
      w'.slot i = some .raw ∧ w'.calls = w.calls ++ [.initSize rc] := by
  rcases hx : Z.msgInitSize size w.zmq with ⟨rc, m, σ⟩
  by_cases hrc : rc = 0
  · subst hrc
    have hc := hZ.initSize_ok hx
    have hslot : ((w.setSlot i (.ready m)).record σ (.initSize 0)).slot i =
        some (.ready m) := by rw [slot_record, slot_setSlot_self h]
    refine Or.inl ⟨(w.setSlot i (.ready m)).record σ (.initSize 0), m,
      by simp [zmqMsgInitSize, hx], ?_, hslot, hc.length_eq, ?_, ?_, by simp⟩
    · refine local_setSlot hw h (fun x hx => ?_) (fun b => ?_) hc.stable hc.wire trivial
      · cases hx; exact hc.initialised
      · rw [hc.refs_eq b, hs b, share_ready, Nat.add_zero]
    · -- a block some other object refers to had a reference already, so it is not the fresh one
      intro j x b hji hj hb hm
      rw [slot_record, slot_setSlot h, if_neg hji] at hj
      exact absurd (hc.fresh b hm) ((hw.valid hj).2 b hb).ne'
    · intro f hf b hb hm
      rw [zmq_record, hc.wire.held] at hf
      exact absurd (hc.fresh b hm) ((hw.frame_valid hf).2 b hb).ne'
  · have hc := hZ.initSize_fail hx hrc
    refine Or.inr ⟨(w.setSlot i .raw).record σ (.initSize rc), rc,
      by simp [zmqMsgInitSize, hx, hrc], hrc, ?_, ?_, by simp⟩
    · refine local_setSlot hw h (fun x hx => ?_) (fun b => ?_) hc.stable hc.wire trivial
      · cases hx
      · rw [hc.refs, hs b, share_raw]
    · rw [slot_record, slot_setSlot_self h]

/-- Filling fresh content changes what no other object and no frame shows. -/
theorem zmqMsgFill_spec (hZ : V.Laws) (hw : Consistent V w) {m : Z.Msg}
    (h : w.slot i = some (.ready m)) {bytes : Bytes}
    (hlen : bytes.length = (Z.msgData w.zmq m).length)
    (hobj : ∀ j x b, j ≠ i → w.slot j = some (.ready x) → V.block x = some b →
      V.block m ≠ some b)
    (hfr : ∀ f ∈ V.held w.zmq, ∀ b, V.block f = some b → V.block m ≠ some b) :
    ∃ w', zmqMsgFill i bytes w = (.returned (), w') ∧ Local V i w w' ∧
      w'.payload i = some bytes ∧ w'.calls = w.calls := by
  rcases hx : Z.msgWrite m bytes w.zmq with ⟨m', σ⟩
  have hc := hZ.write hx (hw.valid h) hlen
  have hrw := hw.rewrite h hc.initialised hc.block_eq
  have hslot : (w.setSlot i (.ready m')).slot i = some (.ready m') := slot_setSlot_self h
  refine ⟨{ w.setSlot i (.ready m') with zmq := σ }, by simp [zmqMsgFill, h, hx], ?_, ?_,
    by simp⟩
  · refine ⟨⟨⟨hrw.slots, ?_, ?_, hrw.sound⟩, ⟨fun j _ => kind_setSlot w i _ j, ?_⟩, ?_⟩,
      kind_setSlot w i _ i⟩
    · intro f hf
      exact hw.frames f (hc.wire.held ▸ hf)
    · intro b
      have hb := hrw.counts b
      simp only [zmq_setSlot, inFlight] at hb
      simp only [inFlight, hc.refs_eq, hc.wire.held]
      exact hb
    · intro j hj
      have hj' : (w.setSlot i (.ready m')).slot j = w.slot j := by
        rw [slot_setSlot h, if_neg hj]
      refine payload_congr hj' fun x hx => hc.others x fun b hb => ?_
      exact ⟨(hw.valid hx).2 b hb, hobj j x b hj hx hb⟩
    · refine ⟨?_, hc.wire.accepted, hc.wire.incoming, hc.wire.midMessage⟩
      unfold shown
      simp only [hc.wire.held]
      exact Multiset.map_congr rfl fun f hf => hc.others f fun b hb =>
        ⟨(hw.frame_valid hf).2 b hb, hfr f hf b hb⟩
  · rw [payload_eq_some]
    exact ⟨m', hslot, hc.data_eq⟩

theorem zmqMsgClose_spec (hZ : V.Laws) (hw : Consistent V w) {m : Z.Msg}
    (h : w.slot i = some (.ready m)) :
    ∃ w', zmqMsgClose i w = (.returned 0, w') ∧ Local V i w w' ∧
      w'.slot i = some .closed ∧ w'.calls = w.calls ++ [.close true 0] := by
  rcases hx : Z.msgClose m w.zmq with ⟨rc, σ⟩
  have hc := hZ.close hx (hw.valid h)
  obtain rfl := hc.rc_eq
  refine ⟨(w.setSlot i .closed).record σ (.close true 0), by simp [zmqMsgClose, h, hx], ?_,
    by rw [slot_record, slot_setSlot_self h], by simp⟩
  refine local_setSlot hw h (fun x hx => ?_) (fun b => ?_) hc.stable hc.wire ⟨rfl, rfl⟩
  · cases hx
  · rw [share_ready, share_closed, hc.refs_eq b, Nat.add_zero]

/-- The copy shows what its source shows, which still reads the same. -/
theorem zmqMsgCopy_spec (hZ : V.Laws) (hw : Consistent V w) {src : ObjId} (hne : src ≠ i)
    {d s : Z.Msg} (hi : w.slot i = some (.ready d)) (hsrc : w.slot src = some (.ready s)) :
    ∃ w', zmqMsgCopy i src w = (.returned 0, w') ∧ Local V i w w' ∧
      w'.payload i = w.payload src ∧ w'.calls = w.calls ++ [.copy true 0] := by
  rcases hx : Z.msgCopy d s w.zmq with ⟨rc, d', s', σ⟩
  have hc := hZ.copy hx (hw.valid hi) (hw.valid hsrc)
  obtain rfl := hc.rc_eq
  have hw1 := hw.rewrite hsrc hc.src_initialised hc.src_block
  have hi1 : (w.setSlot src (.ready s')).slot i = some (.ready d) := by
    rw [slot_setSlot hsrc, if_neg hne.symm, hi]
  have hL : Local V i (w.setSlot src (.ready s'))
      (((w.setSlot src (.ready s')).setSlot i (.ready d')).record σ (.copy true 0)) := by
    refine local_setSlot hw1 hi1 (fun x hx => ?_) (fun b => ?_) ?_ ?_ ⟨rfl, rfl⟩
    · cases hx; exact hc.dest_initialised
    · rw [zmq_setSlot, share_ready, share_ready, hc.dest_block]
      exact hc.refs_eq b
    · simpa using hc.stable
    · simpa using hc.wire
  have hslot : ((((w.setSlot src (.ready s')).setSlot i (.ready d')).record σ
      (.copy true 0))).slot i = some (.ready d') := by
    rw [slot_record, slot_setSlot_self hi1]
  have hslot' : ((((w.setSlot src (.ready s')).setSlot i (.ready d')).record σ
      (.copy true 0))).slot src = some (.ready s') := by
    rw [slot_record, slot_setSlot hi1, if_neg hne, slot_setSlot_self hsrc]
  refine ⟨_, by simp [zmqMsgCopy, hi, hsrc, hx], ⟨⟨hL.consistent, ⟨fun j _ => by simp, ?_⟩,
    ?_⟩, by simp⟩, ?_, by simp⟩
  · intro j hj
    by_cases hjs : j = src
    · rw [hjs, payload_of_slot hslot', payload_of_slot hsrc, zmq_record, hc.src_data]
    · refine payload_stable hw hL.consistent hc.stable ?_
      rw [slot_record, slot_setSlot hi1, if_neg hj, slot_setSlot hsrc, if_neg hjs]
  · exact sameFrames_of_wire hw hL.consistent hc.stable hc.wire
  · rw [payload_of_slot hslot, payload_of_slot hsrc, zmq_record, hc.dest_data]

/-! ### Transfers -/

/-- A frame with these bytes went from the object to the socket. -/
structure Sent (V : Z.View) (h : Handle) (bytes : Bytes) (more : Bool) (w w' : World Z) :
    Prop where
  shown : shown V w' = bytes ::ₘ shown V w
  accepted : V.accepted w'.zmq = Function.update (V.accepted w.zmq) h
    (V.accepted w.zmq h ++ [⟨bytes, more⟩])
  incoming : V.incoming w'.zmq = if more then V.incoming w.zmq else
    V.deliver (V.incoming w.zmq) h (Framing.openParts (V.accepted w.zmq h) ++ [bytes])
  midMessage : V.midMessage w'.zmq = V.midMessage w.zmq

/-- The next frame due to the socket went to an object, which shows its bytes. -/
structure Received (V : Z.View) (h : Handle) (frame : Frame Bytes) (w w' : World Z) :
    Prop where
  shown : shown V w = frame.part ::ₘ shown V w'
  accepted : V.accepted w'.zmq = V.accepted w.zmq
  incoming : ∃ rest, V.incoming w.zmq h = frame :: rest ∧
    V.incoming w'.zmq = Function.update (V.incoming w.zmq) h rest
  midMessage : V.midMessage w'.zmq = Function.update (V.midMessage w.zmq) h frame.more

theorem local_reject (hw : Consistent V w) {m m' : Z.Msg} {σ : Z.State} {c : Call}
    (h : w.slot i = some (.ready m)) (hc : V.RejectContract m w.zmq m' σ) (hs : c.Sound) :
    Local V i w ((w.setSlot i (.ready m')).record σ c) ∧
      ((w.setSlot i (.ready m')).record σ c).payload i = w.payload i := by
  have hslot : ((w.setSlot i (.ready m')).record σ c).slot i = some (.ready m') := by
    rw [slot_record, slot_setSlot_self h]
  refine ⟨local_setSlot hw h (fun x hx => ?_) (fun b => ?_) hc.quiet.stable hc.quiet.wire hs, ?_⟩
  · cases hx; exact hc.initialised
  · rw [hc.quiet.refs, share_ready, share_ready, hc.block_eq]
  · rw [payload_of_slot hslot, payload_of_slot h, zmq_record, hc.data_eq]

theorem zmqMsgSend_spec (hZ : V.Laws) (hw : Consistent V w) {bytes : Bytes}
    (hp : w.payload i = some bytes) (handle : Handle) (flags : ℤ) :
    (∃ w' rc, zmqMsgSend i handle flags w = (.returned rc, w') ∧ 0 ≤ rc ∧ Consistent V w' ∧
      Keeps (· = i) w w' ∧ w'.kind i = w.kind i ∧ (w'.payload i).isSome = true ∧
      Sent V handle bytes (decide (flags = ZMQ_SNDMORE)) w w' ∧
      w'.calls = w.calls ++ [.send true handle bytes flags .ok]) ∨
    ∃ w' rc, zmqMsgSend i handle flags w = (.returned rc, w') ∧ ¬ 0 ≤ rc ∧ Local V i w w' ∧
      w'.payload i = some bytes ∧
      w'.calls = w.calls ++ [.send true handle bytes flags (.failed (Z.errno w'.zmq))] := by
  obtain ⟨m, h, rfl⟩ := payload_eq_some.mp hp
  rcases hx : Z.msgSend m handle flags w.zmq with ⟨rc, m', σ⟩
  by_cases hrc : 0 ≤ rc
  · have hc := hZ.send_accept hx (hw.valid h) hrc
    obtain ⟨f, hheld, hfini, hfblock, hfdata⟩ := hc.held
    let c : Call := .send true handle (Z.msgData w.zmq m) flags .ok
    have hslot : ((w.setSlot i (.ready m')).record σ c).slot i = some (.ready m') := by
      rw [slot_record, slot_setSlot_self h]
    have hw' : Consistent V ((w.setSlot i (.ready m')).record σ c) := by
      refine hw.setSlot h (fun x hx => ?_) ?_ ?_ rfl
      · cases hx; exact hc.initialised
      · intro x hx
        rw [hheld] at hx
        rcases Multiset.mem_cons.mp hx with rfl | hx
        · exact hfini
        · exact hw.frames x hx
      · -- the reference moves from the object to the frame
        intro b
        have hflight : inFlight V σ b = inFlight V w.zmq b + (MsgSlot.ready m).share V b := by
          rw [inFlight_cons hheld, hfblock, share_ready]
        rw [hc.refs_eq, hflight, share_ready_of_none hc.block_eq]
        omega
    refine Or.inl ⟨_, rc, by simp [zmqMsgSend, h, hx, verdictOf, hrc, c], hrc, hw',
      keeps_setSlot hw hw' h hc.stable, by simp, ?_, ⟨?_, hc.accepted, ?_, hc.midMessage⟩,
      by simp [c]⟩
    · rw [payload_of_slot hslot]; rfl
    · rw [shown_joined hw hw' hc.stable hheld, zmq_record, hfdata]
    · rw [zmq_record, hc.incoming]
      by_cases hf : flags = ZMQ_SNDMORE <;> simp [hf]
  · have hc := hZ.send_reject hx (hw.valid h) (by omega)
    obtain ⟨hL, hpay⟩ := local_reject (V := V) hw h hc
      (c := .send true handle (Z.msgData w.zmq m) flags (.failed (Z.errno σ))) rfl
    exact Or.inr ⟨_, rc, by simp [zmqMsgSend, h, hx, verdictOf, hrc], hrc, hL,
      by rw [hpay, hp], by simp⟩

/-- Receiving into a message without content. -/
theorem zmqMsgRecv_spec (hZ : V.Laws) (hw : Consistent V w) (hp : w.payload i = some [])
    (handle : Handle) (flags : ℤ) :
    (∃ w' rc frame, zmqMsgRecv i handle flags w = (.returned rc, w') ∧ 0 ≤ rc ∧
      Consistent V w' ∧ Keeps (· = i) w w' ∧ w'.kind i = w.kind i ∧
      w'.payload i = some frame.part ∧ Received V handle frame w w' ∧
      (∃ more, zmqMsgMore i w' = (.returned more, w') ∧ (more ≠ 0 ↔ frame.more = true)) ∧
      w'.calls = w.calls ++ [.recv true handle .ok]) ∨
    ∃ w' rc, zmqMsgRecv i handle flags w = (.returned rc, w') ∧ ¬ 0 ≤ rc ∧ Local V i w w' ∧
      w'.payload i = some [] ∧
      (∃ m, w.slot i = some (.ready m) ∧ (Z.msgRecv m handle flags w.zmq).1 < 0) ∧
      w'.calls = w.calls ++ [.recv true handle (.failed (Z.errno w'.zmq))] := by
  obtain ⟨m, h, hempty⟩ := payload_eq_some.mp hp
  rcases hx : Z.msgRecv m handle flags w.zmq with ⟨rc, m', σ⟩
  by_cases hrc : 0 ≤ rc
  · have hc := hZ.recv_frame hx (hw.valid h) hrc
    obtain ⟨f, hheld, hfblock, hfdata⟩ := hc.held
    obtain ⟨frame, rest, hin, hpart, hmore, hin', hmid⟩ := hc.incoming
    have hslot : ((w.setSlot i (.ready m')).record σ (.recv true handle .ok)).slot i =
        some (.ready m') := by rw [slot_record, slot_setSlot_self h]
    have hw' : Consistent V ((w.setSlot i (.ready m')).record σ (.recv true handle .ok)) := by
      refine hw.setSlot h (fun x hx => ?_) ?_ ?_ rfl
      · cases hx; exact hc.initialised
      · intro x hx
        exact hw.frames x (by rw [hheld]; exact Multiset.mem_cons_of_mem hx)
      · -- the reference moves from the frame to the object
        intro b
        have hflight : inFlight V w.zmq b = inFlight V σ b + (MsgSlot.ready m').share V b := by
          rw [inFlight_cons hheld, share_ready, hfblock]
        have hr := hc.refs_eq b
        rw [hflight, share_ready m]
        omega
    refine Or.inl ⟨_, rc, frame, by simp [zmqMsgRecv, h, hx, verdictOf, hrc], hrc, hw',
      keeps_setSlot hw hw' h hc.stable, by simp, ?_, ⟨?_, hc.accepted, ⟨rest, hin, hin'⟩, hmid⟩,
      ⟨Z.msgMore σ m', by simp [zmqMsgMore, slot_setSlot_self h], hmore⟩, by simp⟩
    · rw [payload_of_slot hslot, zmq_record, hpart]
    · rw [hpart, hfdata]
      exact shown_left hw hw' hc.stable hheld
  · have hc := hZ.recv_reject hx (hw.valid h) hempty (by omega)
    obtain ⟨hL, hpay⟩ := local_reject (V := V) hw h hc
      (c := .recv true handle (.failed (Z.errno σ))) rfl
    exact Or.inr ⟨_, rc, by simp [zmqMsgRecv, h, hx, verdictOf, hrc], hrc, hL,
      by rw [hpay, hp], ⟨m, h, by rw [hx]; exact Int.lt_of_not_ge hrc⟩, by simp⟩

end World
end CpperoMQ
