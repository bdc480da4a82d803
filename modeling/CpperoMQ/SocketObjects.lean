import CpperoMQ.Effects
import CpperoMQ.ObjectPool
import CpperoMQ.Message

/-!
# Socket objects

`Socket` and the class templates stacked on it. A socket type is
`SocketTypeWrapper` around up to five mixins around `Socket`; the constructors,
the move operations and the destructor of a layer go through to the layer below
it, so a socket type is the composition of its layers. libzmq's functions that
give out and take back handles are the fields of `SocketApi`.
-/
namespace CpperoMQ
open Effects

/-- A non-null `void*` that libzmq gave out for a context. -/
abbrev ContextHandle := ℕ

def ZMQ_PUB : ℤ := 1
def ZMQ_SUB : ℤ := 2
def ZMQ_REQ : ℤ := 3
def ZMQ_REP : ℤ := 4
def ZMQ_DEALER : ℤ := 5
def ZMQ_ROUTER : ℤ := 6
def ZMQ_PULL : ℤ := 7
def ZMQ_PUSH : ℤ := 8
def ZMQ_XPUB : ℤ := 9
def ZMQ_XSUB : ℤ := 10

/-- The libzmq functions that open and close sockets. A null pointer is `none`. -/
structure SocketApi where
  State : Type
  socket : Option ContextHandle → ℤ → State → Option Handle × State
  close : Handle → State → ℤ × State
  errno : State → ℤ

structure SocketApi.View (A : SocketApi) where
  isOpen : A.State → Handle → Prop

/-- `zmq_socket` gives out a handle that is not open, or `NULL`; `zmq_close`
succeeds on an open handle. Neither does anything to other handles. -/
structure SocketApi.View.Laws {A : SocketApi} (V : A.View) : Prop where
  fresh : ∀ context type σ h σ', A.socket context type σ = (some h, σ') →
    ¬V.isOpen σ h ∧ ∀ g, V.isOpen σ' g ↔ V.isOpen σ g ∨ g = h
  null : ∀ context type σ σ', A.socket context type σ = (none, σ') →
    ∀ g, V.isOpen σ' g ↔ V.isOpen σ g
  close : ∀ h σ, V.isOpen σ h →
    ∃ σ', A.close h σ = (0, σ') ∧ ∀ g, V.isOpen σ' g ↔ V.isOpen σ g ∧ g ≠ h

/-- A libzmq call that was made. -/
inductive SocketCall where
  | socket (type : ℤ) (result : Option Handle)
  | close (handle : Handle) (rc : ℤ)
  deriving Repr, DecidableEq

inductive SocketType where
  | dealer
  | extendedPublish
  | extendedSubscribe
  | publish
  | pull
  | push
  | reply
  | request
  | router
  | subscribe
  deriving Repr, DecidableEq

/-- An object of one of the socket types. No layer but `Socket` has data. -/
structure SocketObject extends Socket where
  type : SocketType
  deriving Repr, DecidableEq

structure SocketWorld (A : SocketApi) where
  zmq : A.State
  sockets : ObjectPool SocketObject
  calls : List SocketCall

abbrev SocketAction (A : SocketApi) (α : Type) := Exec (SocketWorld A) Error α

namespace SocketWorld
variable {A : SocketApi}

def initial (σ : A.State) : SocketWorld A := ⟨σ, .empty, []⟩

/-- The state after a libzmq call. -/
def record (w : SocketWorld A) (σ : A.State) (c : SocketCall) : SocketWorld A :=
  { w with zmq := σ, calls := w.calls ++ [c] }

def typeOf (w : SocketWorld A) (i : ObjId) : Option SocketType :=
  (w.sockets.get i).map SocketObject.type

/-- What the object's `mSocket` points at, null for an object that is gone. -/
def mSocket (w : SocketWorld A) (i : ObjId) : Option Handle :=
  (w.sockets.get i).bind fun o => o.mSocket

/-- Write the `mSocket` of a live object. -/
def setSocket (w : SocketWorld A) (i : ObjId) (m : Option Handle) : SocketWorld A :=
  match w.sockets.get i with
  | some o => { w with sockets := w.sockets.put i (some ⟨⟨m⟩, o.type⟩) }
  | none => w

end SocketWorld

section Calls
variable {A : SocketApi}

/-- `throw Error()`: the exception carries the current `zmq_errno`. -/
def raiseSocketError {α : Type} : SocketAction A α := fun w => (.threw ⟨A.errno w.zmq⟩, w)

def zmqSocket (context : Option ContextHandle) (type : ℤ) :
    SocketAction A (Option Handle) := fun w =>
  match A.socket context type w.zmq with
  | (result, σ) => (.returned result, w.record σ (.socket type result))

def zmqClose (handle : Handle) : SocketAction A ℤ := fun w =>
  match A.close handle w.zmq with
  | (rc, σ) => (.returned rc, w.record σ (.close handle rc))

end Calls

/-! ### `Socket` -/

namespace Socket
variable {A : SocketApi}

/-- `Socket::Socket(void*, int)`; the value of the new object. -/
def new (context : Option ContextHandle) (type : ℤ) : SocketAction A Socket := do
  Exec.assert context.isSome
  let mSocket ← zmqSocket context type
  if mSocket = none then raiseSocketError else pure ⟨mSocket⟩

/-- `Socket::Socket(Socket&&)` -/
def newMove (other : ObjId) : SocketAction A Socket := fun w =>
  (.returned ⟨w.mSocket other⟩, w.setSocket other none)

/-- `Socket::operator=(Socket&&)` -/
def assignMove (this other : ObjId) : SocketAction A Unit := fun w =>
  (.returned (), (w.setSocket this (w.mSocket other)).setSocket other (w.mSocket this))

/-- `Socket::~Socket()` -/
def drop (this : ObjId) : SocketAction A Unit := do
  let mSocket ← Exec.read fun w => w.mSocket this
  match mSocket with
  | some handle => do
    let result ← zmqClose handle
    Exec.assert (result = 0)
    Exec.modify fun w => w.setSocket this none
  | none => pure ()

end Socket

/-- The special member functions of a class below `SocketTypeWrapper`. -/
structure SocketClass (A : SocketApi) where
  new : Option ContextHandle → ℤ → SocketAction A Socket
  newMove : ObjId → SocketAction A Socket
  assignMove : ObjId → ObjId → SocketAction A Unit
  drop : ObjId → SocketAction A Unit

def Socket.members {A : SocketApi} : SocketClass A :=
  ⟨Socket.new, Socket.newMove, Socket.assignMove, Socket.drop⟩

/-- The special member functions of one of the ten socket types. Its constructor takes
the context only. -/
structure FinalClass (A : SocketApi) where
  new : Option ContextHandle → SocketAction A Socket
  newMove : ObjId → SocketAction A Socket
  assignMove : ObjId → ObjId → SocketAction A Unit
  drop : ObjId → SocketAction A Unit

namespace Mixins
variable {A : SocketApi}

/-- What all mixins do: `S(context, type)`, `S(std::move(other))`,
`S::operator=(std::move(other)); return *this`, and a defaulted destructor. -/
def forwarding (S : SocketClass A) : SocketClass A where
  new context type := S.new context type
  newMove other := S.newMove other
  assignMove this other := do
    S.assignMove this other
    pure ()
  drop this := S.drop this

def conflatingSocket (S : SocketClass A) : SocketClass A := forwarding S
def identifyingSocket (S : SocketClass A) : SocketClass A := forwarding S
def receivingSocket (S : SocketClass A) : SocketClass A := forwarding S
def requestingSocket (S : SocketClass A) : SocketClass A := forwarding S
def routerProbingSocket (S : SocketClass A) : SocketClass A := forwarding S
def routingSocket (S : SocketClass A) : SocketClass A := forwarding S
def sendingSocket (S : SocketClass A) : SocketClass A := forwarding S
def subscribingSocket (S : SocketClass A) : SocketClass A := forwarding S

/-- `SocketTypeWrapper<TypeId, S>` fixes the libzmq socket type. -/
def socketTypeWrapper (typeId : ℤ) (S : SocketClass A) : FinalClass A where
  new context := S.new context typeId
  newMove other := S.newMove other
  assignMove this other := do
    S.assignMove this other
    pure ()
  drop this := S.drop this

end Mixins

section Types
open Mixins
variable {A : SocketApi}

def dealerSocket : FinalClass A :=
  socketTypeWrapper ZMQ_DEALER <| routerProbingSocket <| conflatingSocket <|
    identifyingSocket <| receivingSocket <| sendingSocket Socket.members

def extendedPublishSocket : FinalClass A :=
  socketTypeWrapper ZMQ_XPUB <| conflatingSocket <| receivingSocket <|
    sendingSocket Socket.members

def extendedSubscribeSocket : FinalClass A :=
  socketTypeWrapper ZMQ_XSUB <| conflatingSocket <| subscribingSocket <|
    receivingSocket <| sendingSocket Socket.members

def publishSocket : FinalClass A :=
  socketTypeWrapper ZMQ_PUB <| conflatingSocket <| sendingSocket Socket.members

def pullSocket : FinalClass A :=
  socketTypeWrapper ZMQ_PULL <| conflatingSocket <| receivingSocket Socket.members

def pushSocket : FinalClass A :=
  socketTypeWrapper ZMQ_PUSH <| conflatingSocket <| sendingSocket Socket.members

def replySocket : FinalClass A :=
  socketTypeWrapper ZMQ_REP <| identifyingSocket <| receivingSocket <|
    sendingSocket Socket.members

def requestSocket : FinalClass A :=
  socketTypeWrapper ZMQ_REQ <| routerProbingSocket <| requestingSocket <|
    identifyingSocket <| receivingSocket <| sendingSocket Socket.members

def routerSocket : FinalClass A :=
  socketTypeWrapper ZMQ_ROUTER <| routerProbingSocket <| routingSocket <|
    identifyingSocket <| receivingSocket <| sendingSocket Socket.members

def subscribeSocket : FinalClass A :=
  socketTypeWrapper ZMQ_SUB <| conflatingSocket <| subscribingSocket <|
    receivingSocket Socket.members

def SocketType.members : SocketType → FinalClass A
  | .dealer => dealerSocket
  | .extendedPublish => extendedPublishSocket
  | .extendedSubscribe => extendedSubscribeSocket
  | .publish => publishSocket
  | .pull => pullSocket
  | .push => pushSocket
  | .reply => replySocket
  | .request => requestSocket
  | .router => routerSocket
  | .subscribe => subscribeSocket

/-- The `TypeId` of a socket type. -/
def SocketType.typeId : SocketType → ℤ
  | .dealer => ZMQ_DEALER
  | .extendedPublish => ZMQ_XPUB
  | .extendedSubscribe => ZMQ_XSUB
  | .publish => ZMQ_PUB
  | .pull => ZMQ_PULL
  | .push => ZMQ_PUSH
  | .reply => ZMQ_REP
  | .request => ZMQ_REQ
  | .router => ZMQ_ROUTER
  | .subscribe => ZMQ_SUB

/-- The class templates that can be between `Socket` and `SocketTypeWrapper`. -/
inductive Mixin where
  | conflatingSocket
  | identifyingSocket
  | receivingSocket
  | requestingSocket
  | routerProbingSocket
  | routingSocket
  | sendingSocket
  | subscribingSocket
  deriving Repr, DecidableEq

def Mixin.layer : Mixin → SocketClass A → SocketClass A
  | conflatingSocket => Mixins.conflatingSocket
  | identifyingSocket => Mixins.identifyingSocket
  | receivingSocket => Mixins.receivingSocket
  | requestingSocket => Mixins.requestingSocket
  | routerProbingSocket => Mixins.routerProbingSocket
  | routingSocket => Mixins.routingSocket
  | sendingSocket => Mixins.sendingSocket
  | subscribingSocket => Mixins.subscribingSocket

/-- The layers of a socket type, from the outside in. -/
def SocketType.mixins : SocketType → List Mixin
  | .dealer =>
    [.routerProbingSocket, .conflatingSocket, .identifyingSocket, .receivingSocket,
      .sendingSocket]
  | .extendedPublish => [.conflatingSocket, .receivingSocket, .sendingSocket]
  | .extendedSubscribe =>
    [.conflatingSocket, .subscribingSocket, .receivingSocket, .sendingSocket]
  | .publish => [.conflatingSocket, .sendingSocket]
  | .pull => [.conflatingSocket, .receivingSocket]
  | .push => [.conflatingSocket, .sendingSocket]
  | .reply => [.identifyingSocket, .receivingSocket, .sendingSocket]
  | .request =>
    [.routerProbingSocket, .requestingSocket, .identifyingSocket, .receivingSocket,
      .sendingSocket]
  | .router =>
    [.routerProbingSocket, .routingSocket, .identifyingSocket, .receivingSocket,
      .sendingSocket]
  | .subscribe => [.conflatingSocket, .subscribingSocket, .receivingSocket]

theorem SocketType.members_eq_layers (type : SocketType) :
    (type.members : FinalClass A) =
      socketTypeWrapper type.typeId (type.mixins.foldr Mixin.layer Socket.members) := by
  cases type <;> rfl

/-! ### Objects -/

/-- Storage for a new object. -/
def SocketObject.place (type : SocketType) (base : Socket) : SocketAction A ObjId := fun w =>
  (.returned w.sockets.next, { w with sockets := w.sockets.alloc ⟨base, type⟩ })

/-- A constructor and the storage its object is put in. If the constructor
throws there is no object, and no destructor runs. -/
def SocketObject.construct (type : SocketType) (constructor : SocketAction A Socket) :
    SocketAction A ObjId := do
  let base ← constructor
  SocketObject.place type base

/-- The move constructor of the object's class. -/
def SocketObject.newMove (type : SocketType) (other : ObjId) : SocketAction A ObjId :=
  SocketObject.construct type (type.members.newMove other)

/-- The destructor of the object's class and the end of its storage. -/
def SocketObject.destroy (type : SocketType) (this : ObjId) : SocketAction A Unit := do
  type.members.drop this
  Exec.modify fun w => { w with sockets := w.sockets.put this none }

/-- `Context::create…Socket()`. The compiler may build the local `socket` in
place of the caller's object; where it does not, the local is moved from. -/
def Context.createSocket (type : SocketType) (mContext : Option ContextHandle) (elided : Bool) :
    SocketAction A ObjId :=
  if elided then SocketObject.construct type (type.members.new mContext)
  else
    Exec.withLocal (SocketObject.construct type (type.members.new mContext))
      (SocketObject.destroy type) (SocketObject.newMove type)

end Types

/-! ### The layers add nothing -/

section Layers
variable {A : SocketApi}

theorem Mixins.forwarding_eq (S : SocketClass A) : Mixins.forwarding S = S := by
  have hassign : (Mixins.forwarding S).assignMove = S.assignMove := by
    funext this other
    exact Exec.bind_pure (S.assignMove this other)
  cases S
  simp only [Mixins.forwarding] at hassign ⊢
  rw [hassign]

theorem Mixin.foldr_layer (mixins : List Mixin) (S : SocketClass A) :
    mixins.foldr Mixin.layer S = S := by
  induction mixins with
  | nil => rfl
  | cons mixin mixins ih =>
    rw [List.foldr_cons, ih]
    cases mixin <;> exact Mixins.forwarding_eq S

/-- Every socket type is `SocketTypeWrapper` around `Socket`, however many layers
are between them. -/
theorem SocketType.members_eq (type : SocketType) :
    (type.members : FinalClass A) = Mixins.socketTypeWrapper type.typeId Socket.members := by
  rw [members_eq_layers, Mixin.foldr_layer]

@[simp] theorem SocketType.members_new (type : SocketType) (context : Option ContextHandle) :
    (type.members : FinalClass A).new context = Socket.new context type.typeId := by
  rw [members_eq]
  rfl

@[simp] theorem SocketType.members_newMove (type : SocketType) (other : ObjId) :
    (type.members : FinalClass A).newMove other = Socket.newMove other := by
  rw [members_eq]
  rfl

@[simp] theorem SocketType.members_assignMove (type : SocketType) (this other : ObjId) :
    (type.members : FinalClass A).assignMove this other = Socket.assignMove this other := by
  rw [members_eq]
  exact Exec.bind_pure (Socket.assignMove this other)

@[simp] theorem SocketType.members_drop (type : SocketType) (this : ObjId) :
    (type.members : FinalClass A).drop this = Socket.drop this := by
  rw [members_eq]
  rfl

end Layers
end CpperoMQ
