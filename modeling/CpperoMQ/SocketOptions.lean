import CpperoMQ.Effects
import CpperoMQ.Message
import CpperoMQ.Scalars

/-!
# Socket options

The option accessors of `Socket` and of the sending and receiving mixins. All of
them go through one pair of templates, which pass libzmq the `sizeof` of the type
named at the call site. libzmq keeps each option in a cell of a type of its own
and refuses any other length; `View.Laws` is what its manual says about this.
-/
namespace CpperoMQ
open Effects

def ZMQ_AFFINITY : ℤ := 4
def ZMQ_RATE : ℤ := 8
def ZMQ_RECOVERY_IVL : ℤ := 9
def ZMQ_SNDBUF : ℤ := 11
def ZMQ_RCVBUF : ℤ := 12
def ZMQ_LINGER : ℤ := 17
def ZMQ_RECONNECT_IVL : ℤ := 18
def ZMQ_BACKLOG : ℤ := 19
def ZMQ_RECONNECT_IVL_MAX : ℤ := 21
def ZMQ_MAXMSGSIZE : ℤ := 22
def ZMQ_SNDHWM : ℤ := 23
def ZMQ_RCVHWM : ℤ := 24
def ZMQ_MULTICAST_HOPS : ℤ := 25
def ZMQ_RCVTIMEO : ℤ := 27
def ZMQ_SNDTIMEO : ℤ := 28
def ZMQ_IMMEDIATE : ℤ := 39
def ZMQ_IPV6 : ℤ := 42
def ZMQ_HANDSHAKE_IVL : ℤ := 66

/-- `zmq_setsockopt` and `zmq_getsockopt`. The latter takes the length of the
buffer and gives the bytes it wrote there. -/
structure OptionApi where
  State : Type
  setsockopt : Option Handle → ℤ → Bytes → State → ℤ × State
  getsockopt : Option Handle → ℤ → ℕ → State → (ℤ × Bytes) × State
  errno : State → ℤ

abbrev OptionAction (A : OptionApi) (α : Type) := Exec A.State Error α

section Templates
variable {A : OptionApi}

/-- `throw Error()`: the exception carries the current `zmq_errno`. -/
def raiseOptionError {α : Type} : OptionAction A α := fun σ => (.threw ⟨A.errno σ⟩, σ)

def zmqSetsockopt (socket : Option Handle) (option : ℤ) (value : Bytes) : OptionAction A ℤ :=
  fun σ =>
    match A.setsockopt socket option value σ with
    | (rc, σ') => (.returned rc, σ')

def zmqGetsockopt (socket : Option Handle) (option : ℤ) (valueLength : ℕ) :
    OptionAction A (ℤ × Bytes) := fun σ =>
  match A.getsockopt socket option valueLength σ with
  | (result, σ') => (.returned result, σ')

/-- `Socket::getSocketOption(int, void*, size_t*)` -/
def Socket.getSocketOptionBytes (this : Socket) (option : ℤ) (valueLength : ℕ) :
    OptionAction A Bytes := do
  let result ← zmqGetsockopt this.mSocket option valueLength
  if result.1 ≠ 0 then raiseOptionError else pure result.2

/-- `Socket::getSocketOption<T>(int)` -/
def Socket.getSocketOption (T : Type) [Scalar T] (this : Socket) (option : ℤ) :
    OptionAction A T := do
  let value ← this.getSocketOptionBytes option (Scalar.size T)
  pure (Scalar.load value)

/-- `Socket::setSocketOption(int, const void*, size_t)` -/
def Socket.setSocketOptionBytes (this : Socket) (option : ℤ) (value : Bytes) :
    OptionAction A Unit := do
  let rc ← zmqSetsockopt this.mSocket option value
  if rc ≠ 0 then raiseOptionError else pure ()

/-- `Socket::setSocketOption<T>(int, T)` -/
def Socket.setSocketOption {T : Type} [Scalar T] (this : Socket) (option : ℤ) (value : T) :
    OptionAction A Unit := this.setSocketOptionBytes option (Scalar.write value)

variable {this : Socket} {option : ℤ} {value : Bytes} {σ σ' : A.State}

theorem setSocketOptionBytes_of_set
    (hset : A.setsockopt this.mSocket option value σ = (0, σ')) :
    this.setSocketOptionBytes option value σ = (.returned (), σ') := by
  simp [Socket.setSocketOptionBytes, Exec.bind, zmqSetsockopt, hset]

theorem setSocketOptionBytes_of_refused {rc : ℤ}
    (hset : A.setsockopt this.mSocket option value σ = (rc, σ')) (hrc : rc ≠ 0) :
    this.setSocketOptionBytes option value σ = (.threw ⟨A.errno σ'⟩, σ') := by
  simp [Socket.setSocketOptionBytes, Exec.bind, zmqSetsockopt, hset, hrc, raiseOptionError]

end Templates

/-! ### The accessors -/

namespace Socket
variable {A : OptionApi} (this : Socket)

def getBacklog : OptionAction A Int32 := this.getSocketOption Int32 ZMQ_BACKLOG
def getHandshakeInterval : OptionAction A Int32 := this.getSocketOption Int32 ZMQ_HANDSHAKE_IVL
def getImmediate : OptionAction A Bool := this.getSocketOption Bool ZMQ_IMMEDIATE
def getIoThreadAffinity : OptionAction A UInt64 := this.getSocketOption UInt64 ZMQ_AFFINITY
def getIPv6 : OptionAction A Bool := this.getSocketOption Bool ZMQ_IPV6
def getMaxReconnectInterval : OptionAction A Int32 :=
  this.getSocketOption Int32 ZMQ_RECONNECT_IVL_MAX
def getMulticastRate : OptionAction A Int32 := this.getSocketOption Int32 ZMQ_RATE
def getMulticastRecoveryInterval : OptionAction A Int32 :=
  this.getSocketOption Int32 ZMQ_RECOVERY_IVL
def getReconnectInterval : OptionAction A Int32 := this.getSocketOption Int32 ZMQ_RECONNECT_IVL

def setBacklog (backlog : Int32) : OptionAction A Unit :=
  this.setSocketOption ZMQ_BACKLOG backlog
def setHandshakeInterval (milliseconds : Int32) : OptionAction A Unit :=
  this.setSocketOption ZMQ_HANDSHAKE_IVL milliseconds
def setImmediate (immediate : Bool) : OptionAction A Unit :=
  this.setSocketOption ZMQ_IMMEDIATE (if immediate then 1 else 0 : Int32)
def setIoThreadAffinity (affinity : UInt64) : OptionAction A Unit :=
  this.setSocketOption ZMQ_AFFINITY affinity
def setIPv6 (ipv6 : Bool) : OptionAction A Unit :=
  this.setSocketOption ZMQ_IPV6 (if ipv6 then 1 else 0 : Int32)
def setMaxReconnectInterval (milliseconds : Int32) : OptionAction A Unit :=
  this.setSocketOption ZMQ_RECONNECT_IVL_MAX milliseconds
def setMulticastRate (kbps : Int32) : OptionAction A Unit := this.setSocketOption ZMQ_RATE kbps
def setMulticastRecoveryInterval (milliseconds : Int32) : OptionAction A Unit :=
  this.setSocketOption ZMQ_RECOVERY_IVL milliseconds
def setReconnectInterval (milliseconds : Int32) : OptionAction A Unit :=
  this.setSocketOption ZMQ_RECONNECT_IVL milliseconds

end Socket

namespace SendingSocket
variable {A : OptionApi} (this : Socket)

def getLingerPeriod : OptionAction A Int32 := this.getSocketOption Int32 ZMQ_LINGER
def getMulticastHops : OptionAction A Int32 := this.getSocketOption Int32 ZMQ_MULTICAST_HOPS
def getSendBufferSize : OptionAction A Int32 := this.getSocketOption Int32 ZMQ_SNDBUF
def getSendHighWaterMark : OptionAction A Int32 := this.getSocketOption Int32 ZMQ_SNDHWM
def getSendTimeout : OptionAction A Int32 := this.getSocketOption Int32 ZMQ_SNDTIMEO

def setLingerPeriod (milliseconds : Int32) : OptionAction A Unit :=
  this.setSocketOption ZMQ_LINGER milliseconds
def setMulticastHops (hops : Int32) : OptionAction A Unit :=
  this.setSocketOption ZMQ_MULTICAST_HOPS hops
def setSendBufferSize (size : Int32) : OptionAction A Unit :=
  this.setSocketOption ZMQ_SNDBUF size
def setSendHighWaterMark (hwm : Int32) : OptionAction A Unit :=
  this.setSocketOption ZMQ_SNDHWM hwm
def setSendTimeout (timeout : Int32) : OptionAction A Unit :=
  this.setSocketOption ZMQ_SNDTIMEO timeout

end SendingSocket

namespace ReceivingSocket
variable {A : OptionApi} (this : Socket)

def getMaxInboundMessageSize : OptionAction A Int32 := this.getSocketOption Int32 ZMQ_MAXMSGSIZE
def getReceiveBufferSize : OptionAction A Int32 := this.getSocketOption Int32 ZMQ_RCVBUF
def getReceiveHighWaterMark : OptionAction A Int32 := this.getSocketOption Int32 ZMQ_RCVHWM
def getReceiveTimeout : OptionAction A Int32 := this.getSocketOption Int32 ZMQ_RCVTIMEO

def setMaxInboundMessageSize (size : Int32) : OptionAction A Unit :=
  this.setSocketOption ZMQ_MAXMSGSIZE size
def setReceiveBufferSize (size : Int32) : OptionAction A Unit :=
  this.setSocketOption ZMQ_RCVBUF size
def setReceiveHighWaterMark (hwm : Int32) : OptionAction A Unit :=
  this.setSocketOption ZMQ_RCVHWM hwm
def setReceiveTimeout (timeout : Int32) : OptionAction A Unit :=
  this.setSocketOption ZMQ_RCVTIMEO timeout

end ReceivingSocket

/-! ### The options by name -/

/-- The options that have a pair of accessors. -/
inductive SocketOption where
  | backlog
  | handshakeInterval
  | immediate
  | ioThreadAffinity
  | ipv6
  | maxReconnectInterval
  | multicastRate
  | multicastRecoveryInterval
  | reconnectInterval
  | lingerPeriod
  | multicastHops
  | sendBufferSize
  | sendHighWaterMark
  | sendTimeout
  | maxInboundMessageSize
  | receiveBufferSize
  | receiveHighWaterMark
  | receiveTimeout
  deriving Repr, DecidableEq

namespace SocketOption

/-- The type the accessors give and take. -/
abbrev Value : SocketOption → Type
  | immediate | ipv6 => Bool
  | ioThreadAffinity => UInt64
  | _ => Int32

section Accessors
variable {A : OptionApi} (this : Socket)

def get : (o : SocketOption) → OptionAction A o.Value
  | backlog => this.getBacklog
  | handshakeInterval => this.getHandshakeInterval
  | immediate => this.getImmediate
  | ioThreadAffinity => this.getIoThreadAffinity
  | ipv6 => this.getIPv6
  | maxReconnectInterval => this.getMaxReconnectInterval
  | multicastRate => this.getMulticastRate
  | multicastRecoveryInterval => this.getMulticastRecoveryInterval
  | reconnectInterval => this.getReconnectInterval
  | lingerPeriod => SendingSocket.getLingerPeriod this
  | multicastHops => SendingSocket.getMulticastHops this
  | sendBufferSize => SendingSocket.getSendBufferSize this
  | sendHighWaterMark => SendingSocket.getSendHighWaterMark this
  | sendTimeout => SendingSocket.getSendTimeout this
  | maxInboundMessageSize => ReceivingSocket.getMaxInboundMessageSize this
  | receiveBufferSize => ReceivingSocket.getReceiveBufferSize this
  | receiveHighWaterMark => ReceivingSocket.getReceiveHighWaterMark this
  | receiveTimeout => ReceivingSocket.getReceiveTimeout this

def set : (o : SocketOption) → o.Value → OptionAction A Unit
  | backlog => this.setBacklog
  | handshakeInterval => this.setHandshakeInterval
  | immediate => this.setImmediate
  | ioThreadAffinity => this.setIoThreadAffinity
  | ipv6 => this.setIPv6
  | maxReconnectInterval => this.setMaxReconnectInterval
  | multicastRate => this.setMulticastRate
  | multicastRecoveryInterval => this.setMulticastRecoveryInterval
  | reconnectInterval => this.setReconnectInterval
  | lingerPeriod => SendingSocket.setLingerPeriod this
  | multicastHops => SendingSocket.setMulticastHops this
  | sendBufferSize => SendingSocket.setSendBufferSize this
  | sendHighWaterMark => SendingSocket.setSendHighWaterMark this
  | sendTimeout => SendingSocket.setSendTimeout this
  | maxInboundMessageSize => ReceivingSocket.setMaxInboundMessageSize this
  | receiveBufferSize => ReceivingSocket.setReceiveBufferSize this
  | receiveHighWaterMark => ReceivingSocket.setReceiveHighWaterMark this
  | receiveTimeout => ReceivingSocket.setReceiveTimeout this

end Accessors

/-! ### What libzmq keeps -/

/-- The C type of an option in libzmq. -/
inductive CellType where
  | int
  | int64
  | uint64
  deriving Repr, DecidableEq

def CellType.size : CellType → ℕ
  | int => 4
  | int64 => 8
  | uint64 => 8

/-- The number some bytes are when read as this type. -/
def CellType.value : CellType → Bytes → ℤ
  | int, bytes => (BitVec.ofNat 32 (numberOf bytes)).toInt
  | int64, bytes => (BitVec.ofNat 64 (numberOf bytes)).toInt
  | uint64, bytes => numberOf bytes

def cellType : SocketOption → CellType
  | ioThreadAffinity => .uint64
  | maxInboundMessageSize => .int64
  | _ => .int

/-- The option argument of libzmq's functions. -/
def code : SocketOption → ℤ
  | backlog => ZMQ_BACKLOG
  | handshakeInterval => ZMQ_HANDSHAKE_IVL
  | immediate => ZMQ_IMMEDIATE
  | ioThreadAffinity => ZMQ_AFFINITY
  | ipv6 => ZMQ_IPV6
  | maxReconnectInterval => ZMQ_RECONNECT_IVL_MAX
  | multicastRate => ZMQ_RATE
  | multicastRecoveryInterval => ZMQ_RECOVERY_IVL
  | reconnectInterval => ZMQ_RECONNECT_IVL
  | lingerPeriod => ZMQ_LINGER
  | multicastHops => ZMQ_MULTICAST_HOPS
  | sendBufferSize => ZMQ_SNDBUF
  | sendHighWaterMark => ZMQ_SNDHWM
  | sendTimeout => ZMQ_SNDTIMEO
  | maxInboundMessageSize => ZMQ_MAXMSGSIZE
  | receiveBufferSize => ZMQ_RCVBUF
  | receiveHighWaterMark => ZMQ_RCVHWM
  | receiveTimeout => ZMQ_RCVTIMEO

/-- The number a caller means by a value. -/
def number : (o : SocketOption) → o.Value → ℤ
  | immediate, b => if b then 1 else 0
  | ipv6, b => if b then 1 else 0
  | ioThreadAffinity, v => v.toNat
  | backlog, v | handshakeInterval, v | maxReconnectInterval, v | multicastRate, v
  | multicastRecoveryInterval, v | reconnectInterval, v | lingerPeriod, v | multicastHops, v
  | sendBufferSize, v | sendHighWaterMark, v | sendTimeout, v | maxInboundMessageSize, v
  | receiveBufferSize, v | receiveHighWaterMark, v | receiveTimeout, v => v.toInt

end SocketOption

namespace OptionApi
variable {A : OptionApi}

structure View (A : OptionApi) where
  isOpen : A.State → Handle → Prop
  cell : A.State → Handle → SocketOption → Bytes
  /-- The documented range of an option. -/
  inRange : SocketOption → ℤ → Prop

namespace View
variable (V : A.View)

/-- No socket was opened or closed and no option changed. -/
def Same (σ σ' : A.State) : Prop := V.isOpen σ' = V.isOpen σ ∧ V.cell σ' = V.cell σ

/-- One option of one socket was given these bytes, and nothing else changed. -/
def Stored (σ : A.State) (h : Handle) (o : SocketOption) (value : Bytes) (σ' : A.State) : Prop :=
  V.isOpen σ' = V.isOpen σ ∧
    ∀ g p, V.cell σ' g p = if g = h ∧ p = o then value else V.cell σ g p

/-- On an open socket, reading with the length of the option's type gives its bytes
and any other length is refused; writing stores the bytes, and fails only for
another length or a value out of range. A call that fails changes nothing. -/
structure Laws : Prop where
  get : ∀ (h : Handle) (o : SocketOption) (σ : A.State), V.isOpen σ h →
    ∃ σ', A.getsockopt (some h) o.code o.cellType.size σ = ((0, V.cell σ h o), σ') ∧ V.Same σ σ'
  getRefused : ∀ (h : Handle) (o : SocketOption) (n : ℕ) (σ : A.State), V.isOpen σ h →
    n ≠ o.cellType.size →
    ∃ rc bytes σ', A.getsockopt (some h) o.code n σ = ((rc, bytes), σ') ∧ rc ≠ 0 ∧ V.Same σ σ'
  set : ∀ (h : Handle) (o : SocketOption) (value : Bytes) (σ : A.State), V.isOpen σ h →
    (∃ σ', A.setsockopt (some h) o.code value σ = (0, σ') ∧ value.length = o.cellType.size ∧
      V.Stored σ h o value σ') ∨
    ∃ rc σ', A.setsockopt (some h) o.code value σ = (rc, σ') ∧ rc ≠ 0 ∧ V.Same σ σ' ∧
      ¬(value.length = o.cellType.size ∧ V.inRange o (o.cellType.value value))

end View
end OptionApi
end CpperoMQ
