import CpperoMQ.Message
import Mathlib.Data.Multiset.MapFold

/-!
# Reference accounting of message objects

In a consistent state every block has as many references as there are live
objects and held frames that refer to it. One libzmq call touches one object;
for every other object, and for the frames held by sockets, what can be read
stays as it was.
-/
namespace CpperoMQ
open Effects Libzmq.View

/-- The argument was initialised, and the calls that cannot fail did not. -/
def Call.Sound : Call → Prop
  | .init rc => rc = 0
  | .initSize _ => True
  | .close initialised rc => initialised = true ∧ rc = 0
  | .copy initialised rc => initialised = true ∧ rc = 0
  | .send initialised _ _ _ _ => initialised = true
  | .recv initialised _ _ => initialised = true

/-- The references one `zmq_msg_t` member holds to a block. -/
def MsgSlot.share {Z : Libzmq} (V : Z.View) (b : ℕ) : MsgSlot Z.Msg → ℕ
  | .ready m => Libzmq.View.share (V.block m) b
  | _ => 0

/-- The object refers to the block. -/
def Message.holds {Z : Libzmq} (V : Z.View) (b : ℕ) (o : Message Z.Msg) : Bool :=
  o.mMsg.share V b = 1

namespace World
variable {Z : Libzmq} {V : Z.View} {w w' w'' : World Z} {i j : ObjId}

/-! ### Reading a state after an update -/

@[simp] theorem zmq_setSlot (w : World Z) (i : ObjId) (s : MsgSlot Z.Msg) :
    (w.setSlot i s).zmq = w.zmq := by unfold setSlot; split <;> rfl

@[simp] theorem calls_setSlot (w : World Z) (i : ObjId) (s : MsgSlot Z.Msg) :
    (w.setSlot i s).calls = w.calls := by unfold setSlot; split <;> rfl

@[simp] theorem zmq_record (w : World Z) (σ : Z.State) (c : Call) :
    (w.record σ c).zmq = σ := rfl

@[simp] theorem calls_record (w : World Z) (σ : Z.State) (c : Call) :
    (w.record σ c).calls = w.calls ++ [c] := rfl

@[simp] theorem messages_record (w : World Z) (σ : Z.State) (c : Call) :
    (w.record σ c).messages = w.messages := rfl

@[simp] theorem slot_record (w : World Z) (σ : Z.State) (c : Call) (j : ObjId) :
    (w.record σ c).slot j = w.slot j := rfl

@[simp] theorem kind_record (w : World Z) (σ : Z.State) (c : Call) (j : ObjId) :
    (w.record σ c).kind j = w.kind j := rfl

theorem slot_eq_some {s : MsgSlot Z.Msg} :
    w.slot i = some s ↔ ∃ k, w.messages.get i = some ⟨k, s⟩ := by
  constructor
  · intro h
    obtain ⟨o, ho, rfl⟩ := Option.map_eq_some_iff.mp h
    exact ⟨o.kind, ho⟩
  · rintro ⟨k, h⟩
    simp [slot, h]

theorem slot_setSlot {s t : MsgSlot Z.Msg} (h : w.slot i = some s) (j : ObjId) :
    (w.setSlot i t).slot j = if j = i then some t else w.slot j := by
  obtain ⟨k, hk⟩ := slot_eq_some.mp h
  simp only [setSlot, hk, slot, ObjectPool.get_put (ObjectPool.lt_next_of_get hk)]
  split_ifs <;> rfl

@[simp] theorem slot_setSlot_self {s t : MsgSlot Z.Msg} (h : w.slot i = some s) :
    (w.setSlot i t).slot i = some t := by rw [slot_setSlot h, if_pos rfl]

@[simp] theorem kind_setSlot (w : World Z) (i : ObjId) (t : MsgSlot Z.Msg) (j : ObjId) :
    (w.setSlot i t).kind j = w.kind j := by
  unfold setSlot kind
  cases h : w.messages.get i with
  | none => rfl
  | some o =>
    simp only [ObjectPool.get_put (ObjectPool.lt_next_of_get h)]
    split_ifs with hj
    · simp [hj, h]
    · rfl

theorem payload_eq_some {p : Bytes} :
    w.payload i = some p ↔ ∃ m, w.slot i = some (.ready m) ∧ Z.msgData w.zmq m = p := by
  unfold payload
  cases h : w.slot i with
  | none => simp
  | some s => cases s <;> simp

theorem payload_of_slot {m : Z.Msg} (h : w.slot i = some (.ready m)) :
    w.payload i = some (Z.msgData w.zmq m) := payload_eq_some.mpr ⟨m, h, rfl⟩

theorem payloads_of_map {is : List ObjId} {ps : List Bytes}
    (h : is.map w.payload = ps.map some) : w.payloads is = ps := by
  have hh := congrArg (List.map fun o : Option Bytes => o.getD []) h
  rw [List.map_map, List.map_map] at hh
  calc w.payloads is = ps.map ((fun o : Option Bytes => o.getD []) ∘ some) := hh
    _ = ps := List.map_id ps

/-! ### Consistency -/

/-- Number of frames in flight that refer to a block. -/
def inFlight (V : Z.View) (σ : Z.State) (b : ℕ) : ℕ :=
  (V.held σ).countP (fun f => V.block f = some b)

/-- One more frame in flight, one more reference to its block. -/
theorem inFlight_cons {σ τ : Z.State} {f : Z.Msg} (h : V.held τ = f ::ₘ V.held σ) (b : ℕ) :
    inFlight V τ b = inFlight V σ b + Libzmq.View.share (V.block f) b := by
  unfold inFlight
  rw [h, Multiset.countP_cons, Libzmq.View.share]

/-- Everything initialised is so marked, references are accounted for, and only
initialised messages were passed to libzmq. -/
structure Consistent (V : Z.View) (w : World Z) : Prop where
  slots : ∀ i m, w.slot i = some (.ready m) → V.initialised m
  frames : ∀ f ∈ V.held w.zmq, V.initialised f
  counts : ∀ b, V.refs w.zmq b = w.messages.count (Message.holds V b) + inFlight V w.zmq b
  sound : ∀ c ∈ w.calls, c.Sound

theorem share_le_one (o : Option ℕ) (b : ℕ) : Libzmq.View.share o b ≤ 1 := by
  unfold Libzmq.View.share; split <;> omega

theorem slot_share_le_one (s : MsgSlot Z.Msg) (b : ℕ) : s.share V b ≤ 1 := by
  cases s <;> simp [MsgSlot.share, share_le_one]

theorem weight_holds (k : MessageKind) (s : MsgSlot Z.Msg) (b : ℕ) :
    ObjectPool.weight (Message.holds V b) (some ⟨k, s⟩) = s.share V b := by
  have h := slot_share_le_one (V := V) s b
  simp only [ObjectPool.weight_some, Message.holds, decide_eq_true_eq]
  split_ifs <;> omega

theorem count_setSlot {s : MsgSlot Z.Msg} (h : w.slot i = some s) (t : MsgSlot Z.Msg) (b : ℕ) :
    (w.setSlot i t).messages.count (Message.holds V b) + s.share V b =
      w.messages.count (Message.holds V b) + t.share V b := by
  obtain ⟨k, hk⟩ := slot_eq_some.mp h
  have hc := ObjectPool.count_put (ObjectPool.lt_next_of_get hk) (Message.holds V b)
    (some ⟨k, t⟩)
  rw [hk, weight_holds, weight_holds] at hc
  simpa only [setSlot, hk] using hc

/-- An initialised object keeps the content it refers to alive. -/
theorem Consistent.valid (hw : Consistent V w) {m : Z.Msg} (h : w.slot i = some (.ready m)) :
    V.Valid w.zmq m := by
  refine ⟨hw.slots i m h, fun b hb => ?_⟩
  obtain ⟨k, hk⟩ := slot_eq_some.mp h
  have hpos : 0 < w.messages.count (Message.holds V b) :=
    ObjectPool.count_pos hk (by simp [Message.holds, MsgSlot.share, Libzmq.View.share, hb])
  rw [hw.counts b]
  omega

/-- So does a frame in flight. -/
theorem Consistent.frame_valid (hw : Consistent V w) {f : Z.Msg} (h : f ∈ V.held w.zmq) :
    V.Valid w.zmq f := by
  refine ⟨hw.frames f h, fun b hb => ?_⟩
  have hpos : 0 < inFlight V w.zmq b := Multiset.countP_pos.mpr ⟨f, h, by simpa using hb⟩
  rw [hw.counts b]
  omega

theorem mem_calls_append {l : List Call} {c : Call} (hl : ∀ x ∈ l, x.Sound) (hc : c.Sound) :
    ∀ x ∈ l ++ [c], x.Sound := by
  intro x hx
  rcases List.mem_append.mp hx with h | h
  · exact hl x h
  · rw [List.mem_singleton.mp h]; exact hc

/-- One object's slot and the libzmq state change together. -/
theorem Consistent.setSlot (hw : Consistent V w) {s t : MsgSlot Z.Msg} {σ : Z.State} {c : Call}
    (h : w.slot i = some s) (ht : ∀ m, t = .ready m → V.initialised m)
    (hframes : ∀ f ∈ V.held σ, V.initialised f)
    (hrefs : ∀ b, V.refs σ b + s.share V b + inFlight V w.zmq b =
      V.refs w.zmq b + t.share V b + inFlight V σ b)
    (hc : c.Sound) : Consistent V ((w.setSlot i t).record σ c) where
  slots := by
    intro j m hj
    rw [slot_record, slot_setSlot h] at hj
    split_ifs at hj with hji
    · exact ht m (Option.some.inj hj)
    · exact hw.slots j m hj
  frames := hframes
  counts := by
    intro b
    have hcount := count_setSlot (V := V) h t b
    have hb := hw.counts b
    have hr := hrefs b
    simp only [messages_record, zmq_record]
    omega
  sound := by
    rw [calls_record, calls_setSlot]
    exact mem_calls_append hw.sound hc

/-- A slot that refers to the same content may be rewritten. -/
theorem Consistent.rewrite (hw : Consistent V w) {m m' : Z.Msg}
    (h : w.slot i = some (.ready m)) (hm : V.initialised m') (hb : V.block m' = V.block m) :
    Consistent V (w.setSlot i (.ready m')) where
  slots := by
    intro j x hj
    rw [slot_setSlot h] at hj
    split_ifs at hj with hji
    · cases hj; exact hm
    · exact hw.slots j x hj
  frames := by simpa using hw.frames
  counts := by
    intro b
    have hcount := count_setSlot (V := V) h (.ready m') b
    have hs : (MsgSlot.ready m').share V b = (MsgSlot.ready m).share V b := by
      simp only [MsgSlot.share, hb]
    have hb := hw.counts b
    simp only [zmq_setSlot]
    omega
  sound := by simpa using hw.sound

/-! ### Frame conditions -/

/-- The bytes the frames in flight show. -/
def shown (V : Z.View) (w : World Z) : Multiset Bytes :=
  (V.held w.zmq).map (Z.msgData w.zmq)

/-- Objects outside `S` read as before. -/
structure Keeps (S : ObjId → Prop) (w w' : World Z) : Prop where
  kinds : ∀ j, ¬ S j → w'.kind j = w.kind j
  payloads : ∀ j, ¬ S j → w'.payload j = w.payload j

/-- No frame moved, and what frames show is as before. -/
structure SameFrames (V : Z.View) (w w' : World Z) : Prop where
  shown : shown V w' = shown V w
  accepted : V.accepted w'.zmq = V.accepted w.zmq
  incoming : V.incoming w'.zmq = V.incoming w.zmq
  midMessage : V.midMessage w'.zmq = V.midMessage w.zmq

theorem Keeps.trans {S : ObjId → Prop} (h : Keeps S w w') (h' : Keeps S w' w'') :
    Keeps S w w'' where
  kinds j hj := (h'.kinds j hj).trans (h.kinds j hj)
  payloads j hj := (h'.payloads j hj).trans (h.payloads j hj)

/-- Fewer objects are promised to read as before. -/
theorem Keeps.mono {S T : ObjId → Prop} (h : Keeps S w w') (hST : ∀ j, S j → T j) :
    Keeps T w w' where
  kinds j hj := h.kinds j fun hS => hj (hST j hS)
  payloads j hj := h.payloads j fun hS => hj (hST j hS)

theorem SameFrames.refl (w : World Z) : SameFrames V w w := ⟨rfl, rfl, rfl, rfl⟩

theorem SameFrames.trans (h : SameFrames V w w') (h' : SameFrames V w' w'') :
    SameFrames V w w'' where
  shown := h'.shown.trans h.shown
  accepted := h'.accepted.trans h.accepted
  incoming := h'.incoming.trans h.incoming
  midMessage := h'.midMessage.trans h.midMessage

/-- An unchanged slot whose content reads the same shows the same. -/
theorem payload_congr (hj : w'.slot j = w.slot j)
    (hdata : ∀ m, w.slot j = some (.ready m) → Z.msgData w'.zmq m = Z.msgData w.zmq m) :
    w'.payload j = w.payload j := by
  cases hs : w.slot j with
  | none => simp only [payload, hj, hs]
  | some s =>
    cases s with
    | raw => simp only [payload, hj, hs]
    | closed => simp only [payload, hj, hs]
    | ready m => simp only [payload, hj, hs, hdata m hs]

/-- What an unchanged slot shows is unchanged: its content has a reference
before and after. -/
theorem payload_stable (hw : Consistent V w) (hw' : Consistent V w')
    (hst : V.Stable w.zmq w'.zmq) (hj : w'.slot j = w.slot j) : w'.payload j = w.payload j := by
  apply payload_congr hj
  intro m hm
  exact hst m fun b hb => ⟨(hw.valid hm).2 b hb, (hw'.valid (hj.trans hm)).2 b hb⟩

/-- A frame in flight before and after shows the same bytes. -/
theorem frames_stable (hw : Consistent V w) (hw' : Consistent V w')
    (hst : V.Stable w.zmq w'.zmq) {fs : Multiset Z.Msg} (h : ∀ f ∈ fs, f ∈ V.held w.zmq)
    (h' : ∀ f ∈ fs, f ∈ V.held w'.zmq) :
    fs.map (Z.msgData w'.zmq) = fs.map (Z.msgData w.zmq) := by
  apply Multiset.map_congr rfl
  intro f hf
  apply hst
  intro b hb
  exact ⟨(hw.frame_valid (h f hf)).2 b hb, (hw'.frame_valid (h' f hf)).2 b hb⟩

theorem shown_stable (hw : Consistent V w) (hw' : Consistent V w')
    (hst : V.Stable w.zmq w'.zmq) (hheld : V.held w'.zmq = V.held w.zmq) :
    shown V w' = shown V w := by
  unfold shown
  rw [hheld]
  exact frames_stable hw hw' hst (fun f hf => hf) fun f hf => hheld ▸ hf

/-- A frame joins those in flight. -/
theorem shown_joined (hw : Consistent V w) (hw' : Consistent V w')
    (hst : V.Stable w.zmq w'.zmq) {f : Z.Msg} (hheld : V.held w'.zmq = f ::ₘ V.held w.zmq) :
    shown V w' = Z.msgData w'.zmq f ::ₘ shown V w := by
  unfold shown
  rw [hheld, Multiset.map_cons]
  congr 1
  apply frames_stable hw hw' hst (fun f hf => hf)
  intro x hx
  rw [hheld]
  exact Multiset.mem_cons_of_mem hx

/-- A frame leaves those in flight. -/
theorem shown_left (hw : Consistent V w) (hw' : Consistent V w')
    (hst : V.Stable w.zmq w'.zmq) {f : Z.Msg} (hheld : V.held w.zmq = f ::ₘ V.held w'.zmq) :
    shown V w = Z.msgData w.zmq f ::ₘ shown V w' := by
  unfold shown
  rw [hheld, Multiset.map_cons]
  congr 1
  refine (frames_stable hw hw' hst (fun x hx => ?_) fun x hx => hx).symm
  rw [hheld]
  exact Multiset.mem_cons_of_mem hx

theorem sameFrames_of_wire (hw : Consistent V w) (hw' : Consistent V w')
    (hst : V.Stable w.zmq w'.zmq) (hwire : V.SameWire w.zmq w'.zmq) : SameFrames V w w' where
  shown := shown_stable hw hw' hst hwire.held
  accepted := hwire.accepted
  incoming := hwire.incoming
  midMessage := hwire.midMessage

/-- Only the rewritten object can read differently. -/
theorem keeps_setSlot (hw : Consistent V w) {s t : MsgSlot Z.Msg} {σ : Z.State} {c : Call}
    (hw' : Consistent V ((w.setSlot i t).record σ c)) (h : w.slot i = some s)
    (hst : V.Stable w.zmq σ) : Keeps (· = i) w ((w.setSlot i t).record σ c) where
  kinds j _ := by simp
  payloads j hj := by
    refine payload_stable hw hw' hst ?_
    rw [slot_record, slot_setSlot h, if_neg hj]

end World
end CpperoMQ
