import CpperoMQ.OptionRuns
import CpperoMQ.SubscribingSocket

/-!
# The configuration of a socket

What a program sets up on a socket and reads back: its endpoints, the options
that have accessors, the modes that the mixins only set, and its identity. All
of it is kept by libzmq, and every member function here passes its arguments to
one libzmq call and throws where that call fails.
-/
namespace CpperoMQ
open Effects

def ZMQ_IDENTITY : ℤ := 5
def ZMQ_LAST_ENDPOINT : ℤ := 32
def ZMQ_ROUTER_MANDATORY : ℤ := 33
def ZMQ_ROUTER_RAW : ℤ := 41
def ZMQ_PROBE_ROUTER : ℤ := 51
def ZMQ_REQ_CORRELATE : ℤ := 52
def ZMQ_REQ_RELAXED : ℤ := 53
def ZMQ_CONFLATE : ℤ := 54
def ZMQ_ROUTER_HANDOVER : ℤ := 56

/-- The libzmq functions that create sockets and set them up. An address is given
by the bytes that can be read there. -/
structure ConfigApi extends SocketApi, OptionApi where
  bind : Option Handle → Bytes → State → ℤ × State
  unbind : Option Handle → Bytes → State → ℤ × State
  connect : Option Handle → Bytes → State → ℤ × State
  disconnect : Option Handle → Bytes → State → ℤ × State

abbrev ConfigAction (A : ConfigApi) (α : Type) := OptionAction A.toOptionApi α

section Checked
variable {A : ConfigApi}

def zmqCall (call : A.State → ℤ × A.State) : ConfigAction A ℤ := fun σ =>
  match call σ with
  | (rc, σ') => (.returned rc, σ')

/-- `if (0 != call) { throw Error(); }` -/
def checked (call : A.State → ℤ × A.State) : ConfigAction A Unit := do
  let rc ← zmqCall call
  if rc ≠ 0 then raiseOptionError else pure ()

variable {call : A.State → ℤ × A.State} {σ σ' : A.State}

theorem checked_of_done (hcall : call σ = (0, σ')) : checked call σ = (.returned (), σ') := by
  simp [checked, zmqCall, Exec.bind, hcall]

theorem checked_of_failed {rc : ℤ} (hcall : call σ = (rc, σ')) (hrc : rc ≠ 0) :
    checked call σ = (.threw ⟨A.errno σ'⟩, σ') := by
  simp [checked, zmqCall, Exec.bind, hcall, hrc, raiseOptionError]

end Checked

/-! ### The member functions -/

namespace Socket
variable {A : ConfigApi} (this : Socket)

def bind (address : Bytes) : ConfigAction A Unit := checked (A.bind this.mSocket address)
def unbind (address : Bytes) : ConfigAction A Unit := checked (A.unbind this.mSocket address)
def connect (address : Bytes) : ConfigAction A Unit := checked (A.connect this.mSocket address)
def disconnect (address : Bytes) : ConfigAction A Unit :=
  checked (A.disconnect this.mSocket address)

/-- `Socket::getLastEndpoint(size_t, char*)`; what the buffer holds afterwards. It is
cleared before libzmq writes to it. -/
def getLastEndpoint (length : ℕ) (buffer : CharPointer) : ConfigAction A Bytes := do
  Exec.assert buffer.isSome
  let written ← this.getSocketOptionBytes ZMQ_LAST_ENDPOINT length
  pure (written ++ List.replicate (length - written.length) 0)

end Socket

namespace Mixins
variable {A : ConfigApi} (this : Socket)

/-- The setters of the modes: `setSocketOption(option, (value) ? 1 : 0)`. -/
def setMode (option : ℤ) (value : Bool) : ConfigAction A Unit :=
  this.setSocketOption option (if value then 1 else 0 : Int32)

end Mixins

section Mixins
variable {A : ConfigApi} (this : Socket)

def ConflatingSocket.setConflate (conflate : Bool) : ConfigAction A Unit :=
  Mixins.setMode this ZMQ_CONFLATE conflate
def RequestingSocket.setRequestCorrelation (correlate : Bool) : ConfigAction A Unit :=
  Mixins.setMode this ZMQ_REQ_CORRELATE correlate
def RequestingSocket.setRelaxed (relax : Bool) : ConfigAction A Unit :=
  Mixins.setMode this ZMQ_REQ_RELAXED relax
def RouterProbingSocket.setRouterProbing (routerProbing : Bool) : ConfigAction A Unit :=
  Mixins.setMode this ZMQ_PROBE_ROUTER routerProbing
def RoutingSocket.setHandover (handover : Bool) : ConfigAction A Unit :=
  Mixins.setMode this ZMQ_ROUTER_HANDOVER handover
def RoutingSocket.setMandatoryRouting (mandatory : Bool) : ConfigAction A Unit :=
  Mixins.setMode this ZMQ_ROUTER_MANDATORY mandatory
def RoutingSocket.setRawMode (rawMode : Bool) : ConfigAction A Unit :=
  Mixins.setMode this ZMQ_ROUTER_RAW rawMode

/-- `IdentifyingSocket::setIdentity(size_t, const char*)` -/
def IdentifyingSocket.setIdentityLength (length : ℕ) (buffer : CharPointer) :
    ConfigAction A Unit := do
  Exec.assert buffer.isSome
  this.setSocketOptionBytes ZMQ_IDENTITY ((buffer.getD []).take length)

/-- `IdentifyingSocket::setIdentity(const char*)`; without an argument the buffer
is `""`. -/
def IdentifyingSocket.setIdentity (buffer : CharPointer) : ConfigAction A Unit := do
  Exec.assert buffer.isSome
  IdentifyingSocket.setIdentityLength this (strlen (buffer.getD [])) buffer

end Mixins

/-- The options that are only set, with a boolean. -/
inductive SocketMode where
  | conflate
  | requestCorrelation
  | relaxed
  | routerProbing
  | handover
  | mandatoryRouting
  | rawMode
  deriving Repr, DecidableEq

namespace SocketMode

def set {A : ConfigApi} (this : Socket) : SocketMode → Bool → ConfigAction A Unit
  | conflate => ConflatingSocket.setConflate this
  | requestCorrelation => RequestingSocket.setRequestCorrelation this
  | relaxed => RequestingSocket.setRelaxed this
  | routerProbing => RouterProbingSocket.setRouterProbing this
  | handover => RoutingSocket.setHandover this
  | mandatoryRouting => RoutingSocket.setMandatoryRouting this
  | rawMode => RoutingSocket.setRawMode this

def code : SocketMode → ℤ
  | conflate => ZMQ_CONFLATE
  | requestCorrelation => ZMQ_REQ_CORRELATE
  | relaxed => ZMQ_REQ_RELAXED
  | routerProbing => ZMQ_PROBE_ROUTER
  | handover => ZMQ_ROUTER_HANDOVER
  | mandatoryRouting => ZMQ_ROUTER_MANDATORY
  | rawMode => ZMQ_ROUTER_RAW

/-- The mixin that has the setter. -/
def mixin : SocketMode → Mixin
  | conflate => .conflatingSocket
  | requestCorrelation | relaxed => .requestingSocket
  | routerProbing => .routerProbingSocket
  | handover | mandatoryRouting | rawMode => .routingSocket

/-- The `int` that a mode is given. -/
def bytes (value : Bool) : Bytes := Scalar.write (if value then 1 else 0 : Int32)

theorem set_eq {A : ConfigApi} (this : Socket) (mode : SocketMode) (value : Bool) :
    (mode.set this value : ConfigAction A Unit) =
      checked (A.setsockopt this.mSocket mode.code (bytes value)) := by
  cases mode <;> rfl

end SocketMode

/-! ### What libzmq keeps -/

inductive EndpointKind where
  | bound
  | connected
  deriving Repr, DecidableEq

structure Endpoint where
  kind : EndpointKind
  name : Bytes
  deriving Repr, DecidableEq

/-- The configuration of one socket. -/
structure SocketConfig where
  /-- The type given to `zmq_socket`. -/
  type : ℤ
  options : SocketOption → Bytes
  modes : SocketMode → Bool
  identity : Bytes
  endpoints : Multiset Endpoint
  lastEndpoint : Bytes

/-- A new socket has no endpoints and no identity. The values its options start with
are libzmq's affair. -/
structure SocketConfig.Fresh (type : ℤ) (c : SocketConfig) : Prop where
  type : c.type = type
  identity : c.identity = []
  endpoints : c.endpoints = 0
  lastEndpoint : c.lastEndpoint = []

/-- What a call is to do to the configuration. -/
inductive SocketChange where
  | option (o : SocketOption) (value : Bytes)
  | mode (m : SocketMode) (value : Bool)
  | identity (value : Bytes)
  | bind (address : Bytes)
  | unbind (address : Bytes)
  | connect (address : Bytes)
  | disconnect (address : Bytes)
  deriving Repr, DecidableEq

/-- The libzmq call for it. -/
def SocketChange.call {A : ConfigApi} (m : Option Handle) :
    SocketChange → A.State → ℤ × A.State
  | option o value => A.setsockopt m o.code value
  | mode k value => A.setsockopt m k.code (SocketMode.bytes value)
  | identity value => A.setsockopt m ZMQ_IDENTITY value
  | bind address => A.bind m address
  | unbind address => A.unbind m address
  | connect address => A.connect m address
  | disconnect address => A.disconnect m address

namespace ConfigApi
variable {A : ConfigApi}

structure View (A : ConfigApi) where
  isOpen : A.State → Handle → Prop
  config : A.State → Handle → SocketConfig
  /-- The documented range of an option. -/
  inRange : SocketOption → ℤ → Prop
  /-- What the endpoint of an address may be called, as wildcards get filled in. -/
  names : Bytes → Bytes → Prop

namespace View
variable (V : A.View)

/-- No socket was opened or closed and nothing was configured. -/
def Same (σ σ' : A.State) : Prop := V.isOpen σ' = V.isOpen σ ∧ V.config σ' = V.config σ

/-- One socket has this configuration now, and nothing else changed. -/
def Updated (σ : A.State) (h : Handle) (c : SocketConfig) (σ' : A.State) : Prop :=
  V.isOpen σ' = V.isOpen σ ∧ V.config σ' = Function.update (V.config σ) h c

/-- The endpoint was added, and it is the last one unless connecting leaves that be. -/
def Added (kind : EndpointKind) (address : Bytes) (c c' : SocketConfig) : Prop :=
  ∃ name last, V.names address name ∧ (last = name ∨ kind = .connected ∧ last = c.lastEndpoint) ∧
    c' = { c with endpoints := ⟨kind, name⟩ ::ₘ c.endpoints, lastEndpoint := last }

/-- Endpoints of the address are gone, at least one. -/
def Removed (address : Bytes) (c c' : SocketConfig) : Prop :=
  ∃ gone rest, gone ≠ 0 ∧ (∀ e ∈ gone, V.names address e.name) ∧
    c.endpoints = gone + rest ∧ c' = { c with endpoints := rest }

/-- What a change comes to when libzmq makes it. -/
def Result : SocketChange → SocketConfig → SocketConfig → Prop
  | .option o value, c, c' => value.length = o.cellType.size ∧
    c' = { c with options := Function.update c.options o value }
  | .mode m value, c, c' => c' = { c with modes := Function.update c.modes m value }
  | .identity value, c, c' => 1 ≤ value.length ∧ value.length ≤ 255 ∧
    c' = { c with identity := value }
  | .bind address, c, c' => V.Added .bound address c c'
  | .unbind address, c, c' => V.Removed address c c'
  | .connect address, c, c' => V.Added .connected address c c'
  | .disconnect address, c, c' => V.Removed address c c'

/-- Why libzmq may not make it; nothing is said for the changes left out. -/
def Refusable : SocketChange → Prop
  | .option o value =>
    ¬(value.length = o.cellType.size ∧ V.inRange o (o.cellType.value value))
  | _ => True

/-- A new socket is configured as new, and opening and closing sockets leaves the others
be. A call on an open socket makes its change, or fails and changes nothing; options are
read at their size and the last endpoint into a buffer that has room for it and a NUL.
There is nothing to configure behind a null pointer. -/
structure Laws : Prop where
  fresh : ∀ context type σ h σ', A.socket context type σ = (some h, σ') →
    ¬V.isOpen σ h ∧ (∀ g, V.isOpen σ' g ↔ V.isOpen σ g ∨ g = h) ∧
      (V.config σ' h).Fresh type ∧ ∀ g, g ≠ h → V.config σ' g = V.config σ g
  null : ∀ context type σ σ', A.socket context type σ = (none, σ') → V.Same σ σ'
  close : ∀ h σ, V.isOpen σ h →
    ∃ σ', A.close h σ = (0, σ') ∧ (∀ g, V.isOpen σ' g ↔ V.isOpen σ g ∧ g ≠ h) ∧
      ∀ g, g ≠ h → V.config σ' g = V.config σ g
  change : ∀ (h : Handle) (c : SocketChange) (σ : A.State), V.isOpen σ h →
    (∃ σ' config, c.call (some h) σ = (0, σ') ∧ V.Result c (V.config σ h) config ∧
      V.Updated σ h config σ') ∨
    ∃ rc σ', c.call (some h) σ = (rc, σ') ∧ rc ≠ 0 ∧ V.Refusable c ∧ V.Same σ σ'
  get : ∀ (h : Handle) (o : SocketOption) (σ : A.State), V.isOpen σ h →
    ∃ σ', A.getsockopt (some h) o.code o.cellType.size σ =
      ((0, (V.config σ h).options o), σ') ∧ V.Same σ σ'
  getRefused : ∀ (h : Handle) (o : SocketOption) (n : ℕ) (σ : A.State), V.isOpen σ h →
    n ≠ o.cellType.size →
    ∃ rc bytes σ', A.getsockopt (some h) o.code n σ = ((rc, bytes), σ') ∧ rc ≠ 0 ∧ V.Same σ σ'
  getLast : ∀ (h : Handle) (n : ℕ) (σ : A.State), V.isOpen σ h →
    (V.config σ h).lastEndpoint.length < n →
    ∃ σ', A.getsockopt (some h) ZMQ_LAST_ENDPOINT n σ =
      ((0, (V.config σ h).lastEndpoint ++ [0]), σ') ∧ V.Same σ σ'
  getLastRefused : ∀ (h : Handle) (n : ℕ) (σ : A.State), V.isOpen σ h →
    n ≤ (V.config σ h).lastEndpoint.length →
    ∃ rc bytes σ', A.getsockopt (some h) ZMQ_LAST_ENDPOINT n σ = ((rc, bytes), σ') ∧ rc ≠ 0 ∧
      V.Same σ σ'
  changeNull : ∀ (c : SocketChange) (σ : A.State),
    ∃ rc σ', c.call none σ = (rc, σ') ∧ rc ≠ 0 ∧ V.Same σ σ'
  getNull : ∀ (option : ℤ) (n : ℕ) (σ : A.State),
    ∃ rc bytes σ', A.getsockopt none option n σ = ((rc, bytes), σ') ∧ rc ≠ 0 ∧ V.Same σ σ'

end View
end ConfigApi
end CpperoMQ
