import CpperoMQ.ContextOwnership
import CpperoMQ.OwnedValues
import CpperoMQ.SocketOwnership

/-!
# Operations on objects, one by one

What creating, moving, assigning and destroying a context or socket object does to
its pool and which libzmq calls it makes, and how socket objects look afterwards
to somebody who keeps a value for every handle. Nothing is assumed about libzmq.
-/
namespace CpperoMQ
open Effects Effects.Exec OwnedValues

/-! ### Contexts -/

namespace ContextWorld
variable {A : ContextApi} {w : ContextWorld A} {this other : ObjId} {o : Context}
  {c : ContextHandle} {σ : A.State}

/-- What the constructor does to the context it got. -/
def configure (c : ContextHandle) (io max : ℤ) : ContextAction A Unit := do
  Context.setContextSetting c ZMQ_IO_THREADS io
  Context.setContextSetting c ZMQ_MAX_SOCKETS max

theorem construct_of_null (hnew : A.ctxNew w.zmq = (none, σ)) (io max : ℤ) :
    Context.construct (Context.new io max) w =
      (.threw ⟨A.errno σ⟩, w.record σ (.new none)) := by
  simp [Context.construct, Context.new, raiseContextError, Exec.bind, zmqCtxNew, record, hnew]

theorem construct_of_new (hnew : A.ctxNew w.zmq = (some c, σ)) (io max : ℤ) :
    Context.construct (Context.new io max) w =
      ((configure c io max).bind fun _ => Context.place ⟨some c⟩)
        (w.record σ (.new (some c))) := by
  have hx : zmqCtxNew w = (.returned (some c), w.record σ (.new (some c))) := by
    simp [zmqCtxNew, hnew]
  rw [configure, bind_eq, Exec.bind_assoc]
  simp only [Context.construct, Context.new, bind_eq, Exec.bind_assoc, bind_of_returned hx]
  rfl

/-- The state after a move from this object. -/
def moved (w : ContextWorld A) (other : ObjId) (o : Context) : ContextWorld A :=
  { w with contexts := (w.contexts.put other (some ⟨none⟩)).alloc o }

/-- The state after an assignment between these objects. -/
def exchanged (w : ContextWorld A) (this other : ObjId) (o u : Context) : ContextWorld A :=
  ⟨w.zmq, (w.contexts.put this (some ⟨u.mContext⟩)).put other (some ⟨o.mContext⟩), w.calls⟩

theorem perform_newMove (hlive : (w.contexts.get other).isSome = true) :
    ∃ o, w.contexts.get other = some o ∧
      (ContextOp.newMove other).perform w = (.returned (), w.moved other o) := by
  obtain ⟨o, ho⟩ := Option.isSome_iff_exists.mp hlive
  exact ⟨o, ho, discard_of_returned (newMove_apply ho)⟩

theorem perform_assignMove (hl : (w.contexts.get this).isSome = true)
    (hr : (w.contexts.get other).isSome = true) :
    ∃ o u, w.contexts.get this = some o ∧ w.contexts.get other = some u ∧
      (ContextOp.assignMove this other).perform w =
        (.returned (), w.exchanged this other o u) := by
  obtain ⟨o, ho⟩ := Option.isSome_iff_exists.mp hl
  obtain ⟨u, hu⟩ := Option.isSome_iff_exists.mp hr
  exact ⟨o, u, ho, hu, assignMove_apply ho hu⟩

/-- An object that owns nothing is destroyed without a call. -/
theorem destroy_of_null (hi : w.contexts.get this = some o) (hm : o.mContext = none) :
    Context.destroy this w = (.returned (), { w with contexts := w.contexts.put this none }) := by
  simp [Context.destroy, Context.drop, Exec.bind, mContext_of_get hi, hm]

theorem destroy_of_some (hi : w.contexts.get this = some o) (hm : o.mContext = some c)
    (hterm : A.ctxTerm c w.zmq = (0, σ)) :
    Context.destroy this w =
      (.returned (), ⟨σ, w.contexts.put this none, w.calls ++ [.term c 0]⟩) := by
  have hset : (w.record σ (.term c 0)).setContext this none =
      ⟨σ, w.contexts.put this (some ⟨none⟩), w.calls ++ [.term c 0]⟩ := by
    have hget : (w.record σ (.term c 0)).contexts.get this = some o := hi
    exact setContext_of_get hget none
  simp [Context.destroy, Context.drop, Exec.bind, zmqCtxTerm, hterm, mContext_of_get hi, hm, hset]

end ContextWorld

/-! ### Sockets -/

/-- What creating an object comes to. Where the local of the function is not elided, the
object is built from it and it is destroyed. -/
def creationEvents {R : Type*} (n : ObjId) (elided : Bool) (r : R) : List (Event R) :=
  if elided then [.built r] else [.built r, .moved n, .destroyed n]

namespace SocketWorld
variable {A : SocketApi} {w : SocketWorld A} {type : SocketType} {c : ContextHandle}
  {h : Handle} {σ : A.State} {this other : ObjId} {o : SocketObject}

/-- The state after a creation that opened this handle. -/
def created (w : SocketWorld A) (type : SocketType) (h : Handle) (σ : A.State) :
    Bool → SocketWorld A
  | true => w.opening type h σ
  | false =>
    let moved := (w.opening type h σ).moved w.sockets.next ⟨⟨some h⟩, type⟩
    { moved with sockets := moved.sockets.put w.sockets.next none }

theorem perform_create_null (w : SocketWorld A) (type : SocketType) (elided : Bool) :
    (SocketOp.create type none elided).perform w = (.aborted, w) := by
  apply discard_of_aborted
  cases elided with
  | true => exact construct_null w type
  | false => exact withLocal_of_aborted (construct_null w type) _ _

theorem perform_create_refused (hr : A.socket (some c) type.typeId w.zmq = (none, σ))
    (elided : Bool) : (SocketOp.create type (some c) elided).perform w =
      (.threw ⟨A.errno σ⟩, w.record σ (.socket type.typeId none)) := by
  have hx : SocketObject.construct type (type.members.new (some c)) w =
      (.threw ⟨A.errno σ⟩, w.record σ (.socket type.typeId none)) := by
    obtain ⟨_, hr', hx⟩ | ⟨_, _, hr', _⟩ := construct_new w type c
    · cases hr.symm.trans hr'
      exact hx
    · cases hr.symm.trans hr'
  apply discard_of_threw
  cases elided with
  | true => exact hx
  | false => exact withLocal_of_threw hx _ _

/-- An object that owns nothing is destroyed without a call. -/
theorem destroy_of_null (hi : w.sockets.get this = some o) (hm : o.mSocket = none) :
    SocketObject.destroy o.type this w =
      (.returned (), { w with sockets := w.sockets.put this none }) := by
  simp [SocketObject.destroy, Socket.drop, Exec.bind, mSocket_of_get hi, hm]

theorem destroy_of_some (hi : w.sockets.get this = some o) (hm : o.mSocket = some h)
    (hclose : A.close h w.zmq = (0, σ)) :
    SocketObject.destroy o.type this w =
      (.returned (), ⟨σ, w.sockets.put this none, w.calls ++ [.close h 0]⟩) := by
  have hset : (w.record σ (.close h 0)).setSocket this none =
      ⟨σ, w.sockets.put this (some ⟨⟨none⟩, o.type⟩), w.calls ++ [.close h 0]⟩ := by
    have hget : (w.record σ (.close h 0)).sockets.get this = some o := hi
    exact setSocket_of_get hget none
  simp [SocketObject.destroy, Socket.drop, Exec.bind, zmqClose, hclose, mSocket_of_get hi, hm,
    hset]

/-- The local of the creating function, and what it is after the caller's object was
built from it. -/
theorem get_opening (w : SocketWorld A) (type : SocketType) (h : Handle) (σ : A.State) :
    (w.opening type h σ).sockets.get w.sockets.next = some ⟨⟨some h⟩, type⟩ :=
  ObjectPool.get_alloc_self w.sockets _

theorem get_moved_opening (w : SocketWorld A) (type : SocketType) (h : Handle) (σ : A.State) :
    ((w.opening type h σ).moved w.sockets.next ⟨⟨some h⟩, type⟩).sockets.get
      w.sockets.next = some ⟨⟨none⟩, type⟩ := by
  have hlt := ObjectPool.lt_next_of_get (get_opening w type h σ)
  change (((w.opening type h σ).sockets.put _ _).alloc _).get _ = _
  rw [ObjectPool.get_alloc_of_ne _ _ (by simpa using Nat.ne_of_lt hlt), ObjectPool.get_put_self hlt]

theorem perform_create_opened (hr : A.socket (some c) type.typeId w.zmq = (some h, σ))
    (elided : Bool) : (SocketOp.create type (some c) elided).perform w =
      (.returned (), w.created type h σ elided) := by
  have hx : SocketObject.construct type (type.members.new (some c)) w =
      (.returned w.sockets.next, w.opening type h σ) := by
    obtain ⟨_, hr', _⟩ | ⟨_, _, hr', hx⟩ := construct_new w type c
    · cases hr.symm.trans hr'
    · cases hr.symm.trans hr'
      exact hx
  cases elided with
  | true => exact discard_of_returned hx
  | false =>
    have hmove := newMove_apply (get_opening w type h σ)
    have hdestroy := destroy_of_null (get_moved_opening w type h σ) rfl
    exact discard_of_returned (withLocal_of_leave hx hmove (by simp) hdestroy)

theorem perform_newMove (hlive : (w.typeOf other).isSome = true) :
    ∃ o, w.sockets.get other = some o ∧
      (SocketOp.newMove other).perform w = (.returned (), w.moved other o) := by
  obtain ⟨o, ho, htype⟩ := get_of_typeOf hlive
  refine ⟨o, ho, ?_⟩
  simp only [SocketOp.perform, htype]
  exact discard_of_returned (newMove_apply ho)

/-- The state after an assignment between these objects. -/
def exchanged (w : SocketWorld A) (this other : ObjId) (o u : SocketObject) : SocketWorld A :=
  { w with
    sockets := (w.sockets.put this (some ⟨⟨u.mSocket⟩, o.type⟩)).put other
      (some ⟨⟨o.mSocket⟩, u.type⟩) }

theorem perform_assignMove (hlive : (w.typeOf this).isSome = true)
    (hsame : w.typeOf other = w.typeOf this) :
    ∃ o u, w.sockets.get this = some o ∧ w.sockets.get other = some u ∧ u.type = o.type ∧
      (SocketOp.assignMove this other).perform w = (.returned (), w.exchanged this other o u) := by
  obtain ⟨o, ho, htype⟩ := get_of_typeOf hlive
  obtain ⟨u, hu, htype'⟩ := get_of_typeOf (hsame ▸ hlive : (w.typeOf other).isSome = true)
  refine ⟨o, u, ho, hu, ?_, ?_⟩
  · rw [htype, htype'] at hsame
    exact Option.some.inj hsame
  · simp only [SocketOp.perform, htype, SocketType.members_assignMove]
    exact assignMove_apply ho hu

theorem perform_destroy (hlive : (w.typeOf this).isSome = true) :
    ∃ o, w.sockets.get this = some o ∧
      (SocketOp.destroy this).perform w = SocketObject.destroy o.type this w := by
  obtain ⟨o, ho, htype⟩ := get_of_typeOf hlive
  refine ⟨o, ho, ?_⟩
  simp only [SocketOp.perform, htype]

end SocketWorld

/-! ### How the objects look -/

section Tracking
variable {A : SocketApi} {R : Type*} {w : SocketWorld A} {q : ObjectPool (Option R)}
  {fits : SocketType → R → Prop} {isOpen isOpen' : Handle → Prop} {cell cell' : Handle → R}
  {type : SocketType} {h : Handle} {σ : A.State} {this other : ObjId} {o u : SocketObject}

/-- The socket objects look like this, each with a value that fits its type. -/
abbrev SocketsTrack (fits : SocketType → R → Prop) (isOpen : Handle → Prop)
    (cell : Handle → R) (p : ObjectPool SocketObject) (q : ObjectPool (Option R)) : Prop :=
  Tracks (fun o : SocketObject => o.mSocket) (fun o => fits o.type) isOpen cell p q

theorem tracks_moved (hw : SocketsTrack fits isOpen cell w.sockets q)
    (ho : w.sockets.get other = some o) :
    SocketsTrack fits isOpen cell (w.moved other o).sockets ((Event.moved other).apply q) :=
  hw.moved ho rfl rfl fun _ hh => hh

theorem tracks_exchanged (hw : SocketsTrack fits isOpen cell w.sockets q)
    (ho : w.sockets.get this = some o) (hu : w.sockets.get other = some u)
    (htype : u.type = o.type) :
    SocketsTrack fits isOpen cell (w.exchanged this other o u).sockets
      ((Event.exchanged this other).apply q) := by
  refine hw.exchanged ho hu rfl rfl (fun c hc => ?_) fun c hc => ?_
  · exact htype ▸ hc
  · exact htype.symm ▸ hc

/-- With the local elided or not, there is one new object with a new socket. -/
theorem tracks_created (hw : SocketsTrack fits isOpen cell w.sockets q)
    (hk : Kept isOpen cell isOpen' cell') (hfresh : ¬isOpen h) (hopen : isOpen' h)
    (hfits : fits type (cell' h)) (σ : A.State) (elided : Bool) :
    (valueMachine R).Admissible q (creationEvents w.sockets.next elided (cell' h)) ∧
      SocketsTrack fits isOpen' cell' (w.created type h σ elided).sockets
        ((valueMachine R).run q (creationEvents w.sockets.next elided (cell' h))) := by
  have hopened : SocketsTrack fits isOpen' cell' (w.opening type h σ).sockets
      ((Event.built (cell' h)).apply q) := hw.built hk hfresh hopen rfl hfits
  cases elided with
  | true => exact ⟨⟨trivial, trivial⟩, hopened⟩
  | false =>
    have hlocal := SocketWorld.get_opening w type h σ
    have hmoved := tracks_moved hopened hlocal
    have hleft := SocketWorld.get_moved_opening w type h σ
    exact ⟨⟨trivial, hopened.isSome hlocal, hmoved.isSome hleft, trivial⟩,
      hmoved.destroyed hleft fun g hg _ => ⟨hg, rfl⟩⟩

/-- A creation adds one handle to those that are owned. -/
theorem owned_created_iff {elided : Bool} {g : Handle} :
    Owned (fun o : SocketObject => o.mSocket) (w.created type h σ elided).sockets g ↔
      Owned (fun o : SocketObject => o.mSocket) w.sockets g ∨ g = h := by
  have hopened : Owned (fun o : SocketObject => o.mSocket) (w.opening type h σ).sockets g ↔
      Owned (fun o : SocketObject => o.mSocket) w.sockets g ∨ g = h := by
    change Owned _ (w.sockets.alloc ⟨⟨some h⟩, type⟩) g ↔ _
    exact owned_alloc_iff (by rfl)
  cases elided with
  | true => exact hopened
  | false =>
    have hlocal := SocketWorld.get_opening w type h σ
    have hleft := SocketWorld.get_moved_opening w type h σ
    exact ((owned_put_none_iff hleft rfl).trans (owned_take_iff hlocal rfl rfl)).trans hopened

end Tracking
end CpperoMQ
