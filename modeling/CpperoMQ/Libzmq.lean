import CpperoMQ.Framing
import Mathlib.Data.Multiset.Count
import Mathlib.Data.Multiset.ZeroCons

/-!
# The libzmq calls of the message classes

libzmq is not part of this repository. Its entry points are the fields of
`Libzmq`, functions on a state that holds everything libzmq keeps, and no
definition is given for them. What its manual says about them is `View.Laws`,
stated over quantities the binding never reads: which content block a
`zmq_msg_t` refers to, the reference count of each block, the frames held by
sockets, and the frames accepted from and still due to each socket. Every
result about messages and transfers takes these laws as a hypothesis.

The sockets meant are those that keep one copy of a frame they accept and that
hand frames out in the order in which they became due: sockets with one peer
each, as at the two ends of a connection. A frame that is copied to several
subscribers of the same process, or dropped for want of one, and messages of
several peers that a socket takes turns with are outside these laws.
-/
namespace CpperoMQ

abbrev Bytes := List UInt8

/-- A non-null `void*` that libzmq gave out for a socket. -/
abbrev Handle := ℕ

/-- A `Socket` object owns at most one handle; a moved-from one owns none. -/
structure Socket where
  mSocket : Option Handle
  deriving Repr, DecidableEq

def ZMQ_SNDMORE : ℤ := 2
def EAGAIN : ℤ := 11

/-- The libzmq functions that take a `zmq_msg_t`. Integer results are the C
return codes. `Msg` is the type of the bytes of one initialised `zmq_msg_t`;
a call that writes through its pointer returns the new bytes. -/
structure Libzmq where
  State : Type
  Msg : Type
  msgInit : State → ℤ × Msg × State
  msgInitSize : ℕ → State → ℤ × Msg × State
  msgSize : State → Msg → ℕ
  /-- The bytes `zmq_msg_data` points at. -/
  msgData : State → Msg → Bytes
  /-- `memcpy` to the address returned by `zmq_msg_data`. -/
  msgWrite : Msg → Bytes → State → Msg × State
  msgMore : State → Msg → ℤ
  /-- Destination first. libzmq may mark the source as shared. -/
  msgCopy : Msg → Msg → State → ℤ × Msg × Msg × State
  msgClose : Msg → State → ℤ × State
  msgSend : Msg → Handle → ℤ → State → ℤ × Msg × State
  msgRecv : Msg → Handle → ℤ → State → ℤ × Msg × State
  errno : State → ℤ
  /-- Something libzmq's own threads do between two calls; the number says which. -/
  transport : ℕ → State → State

/-- What libzmq's manual talks about and the binding cannot see. -/
structure Libzmq.View (Z : Libzmq) where
  /-- The type tag of the `zmq_msg_t` is that of an initialised message. -/
  initialised : Z.Msg → Prop
  /-- The shared content block referred to, if the content is not stored inline. -/
  block : Z.Msg → Option ℕ
  refs : Z.State → ℕ → ℕ
  /-- Frames accepted or arrived that no one has received yet. -/
  held : Z.State → Multiset Z.Msg
  /-- Every frame accepted for sending on a socket so far. -/
  accepted : Z.State → Handle → List (Frame Bytes)
  /-- The frames of the messages for a socket that are still to be handed out. -/
  incoming : Z.State → Handle → List (Frame Bytes)
  /-- The last frame handed out on the socket announced more. -/
  midMessage : Z.State → Handle → Bool
  /-- The socket at the other end of an inproc connection. -/
  peer : Handle → Option Handle

namespace Libzmq.View
variable {Z : Libzmq} (V : Z.View)

/-- One reference to a block, if this is the block. -/
def share (o : Option ℕ) (b : ℕ) : ℕ := if o = some b then 1 else 0

/-- Initialised, and its content has not been released. -/
def Valid (σ : Z.State) (m : Z.Msg) : Prop :=
  V.initialised m ∧ ∀ b, V.block m = some b → 0 < V.refs σ b

/-- Content with a reference before and after keeps its bytes. -/
def Stable (σ τ : Z.State) : Prop :=
  ∀ m, (∀ b, V.block m = some b → 0 < V.refs σ b ∧ 0 < V.refs τ b) →
    Z.msgData τ m = Z.msgData σ m

/-- No frame changed hands. -/
structure SameWire (σ τ : Z.State) : Prop where
  held : V.held τ = V.held σ
  accepted : V.accepted τ = V.accepted σ
  incoming : V.incoming τ = V.incoming σ
  midMessage : V.midMessage τ = V.midMessage σ

/-- Nothing the manual talks about changed. -/
structure Quiet (σ τ : Z.State) : Prop where
  wire : V.SameWire σ τ
  refs : V.refs τ = V.refs σ
  stable : V.Stable σ τ

/-- `zmq_msg_init` always succeeds and yields an empty message. -/
structure InitContract (σ : Z.State) (rc : ℤ) (m : Z.Msg) (τ : Z.State) : Prop where
  rc_eq : rc = 0
  initialised : V.initialised m
  block_eq : V.block m = none
  data_eq : Z.msgData τ m = []
  quiet : V.Quiet σ τ

/-- `zmq_msg_init_size` allocates fresh content or stores it inline. -/
structure InitSizeContract (size : ℕ) (σ : Z.State) (m : Z.Msg) (τ : Z.State) : Prop where
  initialised : V.initialised m
  length_eq : (Z.msgData τ m).length = size
  refs_eq : ∀ b, V.refs τ b = V.refs σ b + share (V.block m) b
  fresh : ∀ b, V.block m = some b → V.refs σ b = 0
  stable : V.Stable σ τ
  wire : V.SameWire σ τ

/-- Bytes written through the data pointer reach no other content. -/
structure WriteContract (m : Z.Msg) (bytes : Bytes) (σ : Z.State) (m' : Z.Msg)
    (τ : Z.State) : Prop where
  initialised : V.initialised m'
  block_eq : V.block m' = V.block m
  data_eq : Z.msgData τ m' = bytes
  refs_eq : V.refs τ = V.refs σ
  others : ∀ x, (∀ b, V.block x = some b → 0 < V.refs σ b ∧ V.block m ≠ some b) →
    Z.msgData τ x = Z.msgData σ x
  wire : V.SameWire σ τ

/-- `zmq_msg_copy` releases the old content of the destination and shares that of
the source. -/
structure CopyContract (dest src : Z.Msg) (σ : Z.State) (rc : ℤ) (dest' src' : Z.Msg)
    (τ : Z.State) : Prop where
  rc_eq : rc = 0
  dest_initialised : V.initialised dest'
  src_initialised : V.initialised src'
  dest_block : V.block dest' = V.block src
  src_block : V.block src' = V.block src
  dest_data : Z.msgData τ dest' = Z.msgData σ src
  src_data : Z.msgData τ src' = Z.msgData σ src
  refs_eq : ∀ b, V.refs τ b + share (V.block dest) b = V.refs σ b + share (V.block src) b
  stable : V.Stable σ τ
  wire : V.SameWire σ τ

/-- `zmq_msg_close` succeeds on a valid message and releases its content. -/
structure CloseContract (m : Z.Msg) (σ : Z.State) (rc : ℤ) (τ : Z.State) : Prop where
  rc_eq : rc = 0
  refs_eq : ∀ b, V.refs τ b + share (V.block m) b = V.refs σ b
  stable : V.Stable σ τ
  wire : V.SameWire σ τ

/-- A transfer that fails leaves the message and every frame where it was. -/
structure RejectContract (m : Z.Msg) (σ : Z.State) (m' : Z.Msg) (τ : Z.State) : Prop where
  initialised : V.initialised m'
  block_eq : V.block m' = V.block m
  data_eq : Z.msgData τ m' = Z.msgData σ m
  quiet : V.Quiet σ τ

/-- Frames due to each socket once `parts` is a complete message sent on `h`: the
message comes after those that were due to the peer before. -/
def deliver (incoming : Handle → List (Frame Bytes)) (h : Handle) (parts : List Bytes) :
    Handle → List (Frame Bytes) := fun g =>
  if V.peer h = some g then incoming g ++ Framing.message parts else incoming g

/-- An accepted frame moves from the message to the socket, which holds one copy of
it with the reference that the message had, and the message is emptied. Frames sent
with `ZMQ_SNDMORE` belong to the same message as the next accepted frame, and the peer
gets all parts of a message together. -/
structure AcceptContract (m : Z.Msg) (h : Handle) (flags : ℤ) (σ : Z.State) (m' : Z.Msg)
    (τ : Z.State) : Prop where
  initialised : V.initialised m'
  block_eq : V.block m' = none
  refs_eq : V.refs τ = V.refs σ
  held : ∃ f, V.held τ = f ::ₘ V.held σ ∧ V.initialised f ∧ V.block f = V.block m ∧
    Z.msgData τ f = Z.msgData σ m
  stable : V.Stable σ τ
  accepted : V.accepted τ = Function.update (V.accepted σ) h
    (V.accepted σ h ++ [⟨Z.msgData σ m, decide (flags = ZMQ_SNDMORE)⟩])
  incoming : V.incoming τ = if flags = ZMQ_SNDMORE then V.incoming σ else
    V.deliver (V.incoming σ) h (Framing.openParts (V.accepted σ h) ++ [Z.msgData σ m])
  midMessage : V.midMessage τ = V.midMessage σ

/-- A received frame moves from the socket to the message, whose old content is
released. Frames come in order and `zmq_msg_more` is nonzero exactly on those
that are not the last of their message. -/
structure FrameContract (m : Z.Msg) (h : Handle) (σ : Z.State) (m' : Z.Msg)
    (τ : Z.State) : Prop where
  initialised : V.initialised m'
  held : ∃ f, V.held σ = f ::ₘ V.held τ ∧ V.block m' = V.block f ∧
    Z.msgData τ m' = Z.msgData σ f
  refs_eq : ∀ b, V.refs τ b + share (V.block m) b = V.refs σ b
  stable : V.Stable σ τ
  accepted : V.accepted τ = V.accepted σ
  incoming : ∃ frame rest, V.incoming σ h = frame :: rest ∧
    frame.part = Z.msgData τ m' ∧ (Z.msgMore τ m' ≠ 0 ↔ frame.more = true) ∧
    V.incoming τ = Function.update (V.incoming σ) h rest ∧
    V.midMessage τ = Function.update (V.midMessage σ) h frame.more

/-- libzmq's threads drop a frame that has left, or take in one that arrived. A
message becomes due to a socket with all its parts, after those that were due before. -/
structure Background (σ τ : Z.State) : Prop where
  stable : V.Stable σ τ
  accepted : V.accepted τ = V.accepted σ
  midMessage : V.midMessage τ = V.midMessage σ
  incoming : ∀ g, ∃ messages : List (List Bytes), (∀ m ∈ messages, m ≠ []) ∧
    V.incoming τ g = V.incoming σ g ++ Framing.stream messages
  held : (V.held τ = V.held σ ∧ V.refs τ = V.refs σ) ∨
    (∃ f, V.held σ = f ::ₘ V.held τ ∧ ∀ b, V.refs τ b + share (V.block f) b = V.refs σ b) ∨
    ∃ f, V.held τ = f ::ₘ V.held σ ∧ V.initialised f ∧
      (∀ b, V.refs τ b = V.refs σ b + share (V.block f) b) ∧
      ∀ b, V.block f = some b → V.refs σ b = 0

/-- The behaviour of libzmq the message classes rely on. -/
structure Laws : Prop where
  size_eq : ∀ σ m, V.Valid σ m → Z.msgSize σ m = (Z.msgData σ m).length
  init : ∀ {σ rc m τ}, Z.msgInit σ = (rc, m, τ) → V.InitContract σ rc m τ
  initSize_ok : ∀ {size σ m τ}, Z.msgInitSize size σ = (0, m, τ) → V.InitSizeContract size σ m τ
  initSize_fail : ∀ {size σ rc m τ}, Z.msgInitSize size σ = (rc, m, τ) → rc ≠ 0 → V.Quiet σ τ
  write : ∀ {m bytes σ m' τ}, Z.msgWrite m bytes σ = (m', τ) → V.Valid σ m →
    bytes.length = (Z.msgData σ m).length → V.WriteContract m bytes σ m' τ
  copy : ∀ {dest src σ rc dest' src' τ}, Z.msgCopy dest src σ = (rc, dest', src', τ) →
    V.Valid σ dest → V.Valid σ src → V.CopyContract dest src σ rc dest' src' τ
  close : ∀ {m σ rc τ}, Z.msgClose m σ = (rc, τ) → V.Valid σ m → V.CloseContract m σ rc τ
  send_accept : ∀ {m h flags σ rc m' τ}, Z.msgSend m h flags σ = (rc, m', τ) →
    V.Valid σ m → 0 ≤ rc → V.AcceptContract m h flags σ m' τ
  send_reject : ∀ {m h flags σ rc m' τ}, Z.msgSend m h flags σ = (rc, m', τ) →
    V.Valid σ m → rc < 0 → V.RejectContract m σ m' τ
  recv_frame : ∀ {m h flags σ rc m' τ}, Z.msgRecv m h flags σ = (rc, m', τ) →
    V.Valid σ m → 0 ≤ rc → V.FrameContract m h σ m' τ
  /-- The binding only receives into messages without content. -/
  recv_reject : ∀ {m h flags σ rc m' τ}, Z.msgRecv m h flags σ = (rc, m', τ) →
    V.Valid σ m → Z.msgData σ m = [] → rc < 0 → V.RejectContract m σ m' τ
  transport : ∀ n σ, V.Background σ (Z.transport n σ)

/-- libzmq before any message or frame exists. -/
structure Initial (σ : Z.State) : Prop where
  refs : ∀ b, V.refs σ b = 0
  held : V.held σ = 0

end Libzmq.View
end CpperoMQ
