import CpperoMQ.BagChanges
import CpperoMQ.SocketObjects
import CpperoMQ.SocketOptions

/-!
# Subscriptions

The functions of the `SubscribingSocket` mixin. All four set an option of the
socket, with the topic as its value. libzmq has these options for sockets of
type `ZMQ_SUB` only; on those a topic counts as often as it was subscribed, and
an `unsubscribe` takes back one occurrence.
-/
namespace CpperoMQ
open Effects

def ZMQ_SUBSCRIBE : ℤ := 6
def ZMQ_UNSUBSCRIBE : ℤ := 7

/-- `std::strlen` -/
def strlen (buffer : Bytes) : ℕ := (OutgoingMessage.cString buffer).length

theorem take_strlen (buffer : Bytes) :
    buffer.take (strlen buffer) = OutgoingMessage.cString buffer :=
  (List.prefix_iff_eq_take.mp (List.takeWhile_prefix _)).symm

/-! ### The mixin -/

/-- A `const char*` is null, or given by the bytes that can be read there. -/
abbrev CharPointer := Option Bytes

namespace SubscribingSocket
variable {A : OptionApi} (this : Socket)

/-- `SubscribingSocket::subscribe(size_t, const char*)` -/
def subscribeLength (length : ℕ) (buffer : CharPointer) : OptionAction A Unit := do
  Exec.assert buffer.isSome
  this.setSocketOptionBytes ZMQ_SUBSCRIBE ((buffer.getD []).take length)

/-- `SubscribingSocket::subscribe(const char*)`; without an argument the buffer
is `""`. -/
def subscribe (buffer : CharPointer) : OptionAction A Unit := do
  Exec.assert buffer.isSome
  subscribeLength this (strlen (buffer.getD [])) buffer

/-- `SubscribingSocket::unsubscribe(size_t, const char*)` -/
def unsubscribeLength (length : ℕ) (buffer : CharPointer) : OptionAction A Unit := do
  Exec.assert buffer.isSome
  this.setSocketOptionBytes ZMQ_UNSUBSCRIBE ((buffer.getD []).take length)

/-- `SubscribingSocket::unsubscribe(const char*)` -/
def unsubscribe (buffer : CharPointer) : OptionAction A Unit := do
  Exec.assert buffer.isSome
  unsubscribeLength this (strlen (buffer.getD [])) buffer

end SubscribingSocket

/-! ### What libzmq keeps -/

/-- The libzmq functions that create sockets and set their options. -/
structure SubscriptionApi extends SocketApi, OptionApi

namespace SubscriptionApi
variable {A : SubscriptionApi}

structure View (A : SubscriptionApi) where
  /-- The type of an open socket. -/
  typeOf : A.State → Handle → Option ℤ
  topics : A.State → Handle → Multiset Bytes
  /-- The frames that pass the filter of a socket. -/
  passes : A.State → Handle → Bytes → Prop

namespace View
variable (V : A.View)

/-- The topics of one socket became these, and nothing else changed. -/
def Updated (σ : A.State) (h : Handle) (topics : Multiset Bytes) (σ' : A.State) : Prop :=
  V.typeOf σ' = V.typeOf σ ∧ V.topics σ' = Function.update (V.topics σ) h topics

/-- A new socket has the type asked for and no topics. On a `ZMQ_SUB` socket the two
options add and remove one occurrence of a topic; on a socket of another type they
are not available, and the call fails and changes nothing. A frame passes a `ZMQ_SUB`
socket if it starts with a topic, and a `ZMQ_XSUB` socket without topics lets nothing
pass. -/
structure Laws : Prop where
  created : ∀ context type σ h σ', A.socket context type σ = (some h, σ') →
    V.typeOf σ' h = some type ∧ V.topics σ' h = 0
  subscribe : ∀ h topic σ, V.typeOf σ h = some ZMQ_SUB →
    ∃ σ', A.setsockopt (some h) ZMQ_SUBSCRIBE topic σ = (0, σ') ∧
      V.Updated σ h (topic ::ₘ V.topics σ h) σ'
  unsubscribe : ∀ h topic σ, V.typeOf σ h = some ZMQ_SUB →
    ∃ σ', A.setsockopt (some h) ZMQ_UNSUBSCRIBE topic σ = (0, σ') ∧
      V.Updated σ h ((V.topics σ h).erase topic) σ'
  unavailable : ∀ h type option topic σ, V.typeOf σ h = some type → type ≠ ZMQ_SUB →
    option = ZMQ_SUBSCRIBE ∨ option = ZMQ_UNSUBSCRIBE →
    ∃ rc σ', A.setsockopt (some h) option topic σ = (rc, σ') ∧ rc ≠ 0 ∧
      V.Updated σ h (V.topics σ h) σ'
  filter : ∀ h σ, V.typeOf σ h = some ZMQ_SUB →
    ∀ frame, V.passes σ h frame ↔ ∃ topic ∈ V.topics σ h, topic <+: frame
  silent : ∀ h σ, V.typeOf σ h = some ZMQ_XSUB → V.topics σ h = 0 →
    ∀ frame, ¬V.passes σ h frame

end View
end SubscriptionApi

/-! ### Calls -/

/-- A call of the mixin, with the bytes behind its pointer. -/
inductive SubscriptionCall where
  | subscribe (buffer : Bytes)
  | subscribeLength (length : ℕ) (buffer : Bytes)
  | unsubscribe (buffer : Bytes)
  | unsubscribeLength (length : ℕ) (buffer : Bytes)
  deriving Repr, DecidableEq

namespace SubscriptionCall

def perform {A : OptionApi} (this : Socket) : SubscriptionCall → OptionAction A Unit
  | subscribe buffer => SubscribingSocket.subscribe this (some buffer)
  | subscribeLength length buffer => SubscribingSocket.subscribeLength this length (some buffer)
  | unsubscribe buffer => SubscribingSocket.unsubscribe this (some buffer)
  | unsubscribeLength length buffer =>
    SubscribingSocket.unsubscribeLength this length (some buffer)

/-- What the call is to do to the topics: with a length, the topic is that many
bytes, and without one, the bytes before the first NUL. -/
def change : SubscriptionCall → BagChange Bytes
  | subscribe buffer => .insert (OutgoingMessage.cString buffer)
  | subscribeLength length buffer => .insert (buffer.take length)
  | unsubscribe buffer => .remove (OutgoingMessage.cString buffer)
  | unsubscribeLength length buffer => .remove (buffer.take length)

end SubscriptionCall

/-- The option set to make a change, with the topic as its value. -/
def BagChange.setTopic {A : OptionApi} (this : Socket) : BagChange Bytes → OptionAction A Unit
  | .insert topic => this.setSocketOptionBytes ZMQ_SUBSCRIBE topic
  | .remove topic => this.setSocketOptionBytes ZMQ_UNSUBSCRIBE topic

/-- Both forms of a call set the option that their topic calls for. -/
theorem SubscriptionCall.perform_eq {A : OptionApi} (this : Socket) (call : SubscriptionCall) :
    (call.perform this : OptionAction A Unit) = call.change.setTopic this := by
  cases call with
  | subscribe buffer =>
    rw [change, ← take_strlen]
    rfl
  | subscribeLength length buffer => rfl
  | unsubscribe buffer =>
    rw [change, ← take_strlen]
    rfl
  | unsubscribeLength length buffer => rfl

section Steps
variable {A : SubscriptionApi} {V : A.View} {this : Socket} {h : Handle} {σ : A.State}

theorem setTopic_of_sub (hV : V.Laws) (hs : this.mSocket = some h)
    (htype : V.typeOf σ h = some ZMQ_SUB) (c : BagChange Bytes) :
    ∃ σ', c.setTopic (A := A.toOptionApi) this σ = (.returned (), σ') ∧
      V.Updated σ h (c.apply (V.topics σ h)) σ' := by
  cases c with
  | insert topic =>
    obtain ⟨σ', hset, hupdated⟩ := hV.subscribe h topic σ htype
    rw [← hs] at hset
    exact ⟨σ', setSocketOptionBytes_of_set hset, hupdated⟩
  | remove topic =>
    obtain ⟨σ', hset, hupdated⟩ := hV.unsubscribe h topic σ htype
    rw [← hs] at hset
    exact ⟨σ', setSocketOptionBytes_of_set hset, hupdated⟩

theorem setTopic_of_other (hV : V.Laws) (hs : this.mSocket = some h) {type : ℤ}
    (htype : V.typeOf σ h = some type) (hother : type ≠ ZMQ_SUB) (c : BagChange Bytes) :
    ∃ e σ', c.setTopic (A := A.toOptionApi) this σ = (.threw e, σ') ∧
      V.Updated σ h (V.topics σ h) σ' := by
  cases c with
  | insert topic =>
    obtain ⟨rc, σ', hset, hrc, hsame⟩ :=
      hV.unavailable h type ZMQ_SUBSCRIBE topic σ htype hother (.inl rfl)
    rw [← hs] at hset
    exact ⟨⟨A.errno σ'⟩, σ', setSocketOptionBytes_of_refused hset hrc, hsame⟩
  | remove topic =>
    obtain ⟨rc, σ', hset, hrc, hsame⟩ :=
      hV.unavailable h type ZMQ_UNSUBSCRIBE topic σ htype hother (.inr rfl)
    rw [← hs] at hset
    exact ⟨⟨A.errno σ'⟩, σ', setSocketOptionBytes_of_refused hset hrc, hsame⟩

/-- A socket that was just created. -/
theorem new_spec (hV : V.Laws) {type : SocketType} {context : Option ContextHandle}
    {w w' : SocketWorld A.toSocketApi}
    (hnew : type.members.new context w = (.returned this, w')) :
    ∃ h, this.mSocket = some h ∧ V.typeOf w'.zmq h = some type.typeId ∧
      V.topics w'.zmq h = 0 := by
  rw [SocketType.members_new] at hnew
  cases context with
  | none => simp [Socket.new, Exec.bind] at hnew
  | some c =>
    rcases hr : A.socket (some c) type.typeId w.zmq with ⟨_ | h, σ⟩
    · simp [Socket.new, Exec.bind, zmqSocket, hr, raiseSocketError] at hnew
    · have hx : Socket.new (some c) type.typeId w =
          (.returned ⟨some h⟩, w.record σ (.socket type.typeId (some h))) := by
        simp [Socket.new, Exec.bind, zmqSocket, hr]
      rw [hx] at hnew
      cases hnew
      exact ⟨h, rfl, hV.created (some c) type.typeId w.zmq h σ hr⟩

end Steps
end CpperoMQ
