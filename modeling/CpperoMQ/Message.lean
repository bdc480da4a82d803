import CpperoMQ.Effects
import CpperoMQ.ObjectPool
import CpperoMQ.Libzmq

/-!
# Message objects

`Message`, `OutgoingMessage` and `IncomingMessage` as the headers define them.
Objects live in a pool, local variables included. The `zmq_msg_t` inside an
object is raw storage, an initialised message, or closed; every libzmq call on
it is recorded together with whether its argument was initialised then.
-/
namespace CpperoMQ
open Effects

/-- What a `CpperoMQ::Error` carries. -/
structure Error where
  mErrorNumber : ℤ
  deriving Repr, DecidableEq

/-- Result of one transfer call; a failure comes with its `zmq_errno`. -/
inductive Verdict where
  | ok
  | failed (errno : ℤ)
  deriving Repr, DecidableEq

/-- A libzmq call that was made. The flag says whether every `zmq_msg_t` passed
in was initialised. -/
inductive Call where
  | init (rc : ℤ)
  | initSize (rc : ℤ)
  | close (initialised : Bool) (rc : ℤ)
  | copy (initialised : Bool) (rc : ℤ)
  | send (initialised : Bool) (socket : Handle) (bytes : Bytes) (flags : ℤ) (verdict : Verdict)
  | recv (initialised : Bool) (socket : Handle) (verdict : Verdict)
  deriving Repr, DecidableEq

/-- State of the `zmq_msg_t` member of an object. -/
inductive MsgSlot (M : Type) where
  | raw
  | ready (m : M)
  | closed

inductive MessageKind where
  | outgoing
  | incoming
  deriving Repr, DecidableEq

structure Message (M : Type) where
  kind : MessageKind
  mMsg : MsgSlot M

abbrev ObjId := ℕ

/-- The state the message classes work on. -/
structure World (Z : Libzmq) where
  zmq : Z.State
  messages : ObjectPool (Message Z.Msg)
  calls : List Call

namespace World
variable {Z : Libzmq}

def initial (σ : Z.State) : World Z := ⟨σ, .empty, []⟩

def slot (w : World Z) (i : ObjId) : Option (MsgSlot Z.Msg) :=
  (w.messages.get i).map Message.mMsg

def kind (w : World Z) (i : ObjId) : Option MessageKind :=
  (w.messages.get i).map Message.kind

/-- Overwrite the `zmq_msg_t` of a live object. -/
def setSlot (w : World Z) (i : ObjId) (s : MsgSlot Z.Msg) : World Z :=
  match w.messages.get i with
  | some o => { w with messages := w.messages.put i (some ⟨o.kind, s⟩) }
  | none => w

/-- The state after a libzmq call. -/
def record (w : World Z) (σ : Z.State) (c : Call) : World Z :=
  { w with zmq := σ, calls := w.calls ++ [c] }

/-- The bytes a live message shows through `zmq_msg_data` and `zmq_msg_size`. -/
def payload (w : World Z) (i : ObjId) : Option Bytes :=
  match w.slot i with
  | some (.ready m) => some (Z.msgData w.zmq m)
  | _ => none

/-- What some live messages show, in order. -/
def payloads (w : World Z) (is : List ObjId) : List Bytes := is.map fun i => (w.payload i).getD []

end World

section Calls
variable {Z : Libzmq}

/-- A computation of the library. -/
abbrev Action (Z : Libzmq) (α : Type) := Exec (World Z) Error α

/-- `throw Error()`: the exception carries the current `zmq_errno`. -/
def raiseError {α : Type} : Action Z α := fun w => (.threw ⟨Z.errno w.zmq⟩, w)

def zmqErrno : Action Z ℤ := Exec.read fun w => Z.errno w.zmq

def zmqMsgInit (i : ObjId) : Action Z ℤ := fun w =>
  match Z.msgInit w.zmq with
  | (rc, m, σ) =>
    (.returned rc, (w.setSlot i (if rc = 0 then .ready m else .raw)).record σ (.init rc))

def zmqMsgInitSize (i : ObjId) (size : ℕ) : Action Z ℤ := fun w =>
  match Z.msgInitSize size w.zmq with
  | (rc, m, σ) =>
    (.returned rc, (w.setSlot i (if rc = 0 then .ready m else .raw)).record σ (.initSize rc))

/-- `memcpy(zmq_msg_data(msg), sourceData, size)`. -/
def zmqMsgFill (i : ObjId) (sourceData : Bytes) : Action Z Unit := fun w =>
  match w.slot i with
  | some (.ready m) =>
    match Z.msgWrite m sourceData w.zmq with
    | (m', σ) => (.returned (), { w.setSlot i (.ready m') with zmq := σ })
  | _ => (.returned (), w)

def zmqMsgClose (i : ObjId) : Action Z ℤ := fun w =>
  match w.slot i with
  | some (.ready m) =>
    match Z.msgClose m w.zmq with
    | (rc, σ) =>
      (.returned rc,
        (w.setSlot i (if rc = 0 then .closed else .ready m)).record σ (.close true rc))
  | _ => (.returned (-1), w.record w.zmq (.close false (-1)))

def zmqMsgCopy (dest src : ObjId) : Action Z ℤ := fun w =>
  match w.slot dest, w.slot src with
  | some (.ready d), some (.ready s) =>
    match Z.msgCopy d s w.zmq with
    | (rc, d', s', σ) =>
      (.returned rc,
        ((w.setSlot src (.ready s')).setSlot dest (.ready d')).record σ (.copy true rc))
  | _, _ => (.returned (-1), w.record w.zmq (.copy false (-1)))

/-- How a transfer call with this return code went. -/
def verdictOf (Z : Libzmq) (rc : ℤ) (σ : Z.State) : Verdict :=
  if 0 ≤ rc then .ok else .failed (Z.errno σ)

def zmqMsgSend (i : ObjId) (socket : Handle) (flags : ℤ) : Action Z ℤ := fun w =>
  match w.slot i with
  | some (.ready m) =>
    match Z.msgSend m socket flags w.zmq with
    | (rc, m', σ) =>
      (.returned rc, (w.setSlot i (.ready m')).record σ
        (.send true socket (Z.msgData w.zmq m) flags (verdictOf Z rc σ)))
  | _ => (.returned (-1), w.record w.zmq (.send false socket [] flags (.failed (Z.errno w.zmq))))

def zmqMsgRecv (i : ObjId) (socket : Handle) (flags : ℤ) : Action Z ℤ := fun w =>
  match w.slot i with
  | some (.ready m) =>
    match Z.msgRecv m socket flags w.zmq with
    | (rc, m', σ) =>
      (.returned rc, (w.setSlot i (.ready m')).record σ (.recv true socket (verdictOf Z rc σ)))
  | _ => (.returned (-1), w.record w.zmq (.recv false socket (.failed (Z.errno w.zmq))))

def zmqMsgMore (i : ObjId) : Action Z ℤ := Exec.read fun w =>
  match w.slot i with
  | some (.ready m) => Z.msgMore w.zmq m
  | _ => 0

end Calls

/-! ### `Message` -/

namespace Message
variable {Z : Libzmq}

/-- `Message::Message()` -/
def init (this : ObjId) : Action Z Unit := do
  let rc ← zmqMsgInit this
  if rc ≠ 0 then raiseError else pure ()

/-- `Message::Message(size, sourceData)`, `sourceData` being the `size` bytes there. -/
def initData (sourceData : Bytes) (this : ObjId) : Action Z Unit := do
  let rc ← zmqMsgInitSize this sourceData.length
  if rc ≠ 0 then raiseError else zmqMsgFill this sourceData

/-- `Message::~Message()` -/
def drop (this : ObjId) : Action Z Unit := do
  let rc ← zmqMsgClose this
  Exec.assert (rc = 0)

/-- `swap(Message&, Message&)` exchanges the two `zmq_msg_t` bitwise. -/
def swap (lhs rhs : ObjId) : Action Z Unit := Exec.modify fun w =>
  match w.slot lhs, w.slot rhs with
  | some a, some b => (w.setSlot lhs b).setSlot rhs a
  | _, _ => w

/-- `Message::Message(Message&&)` -/
def initMove (other this : ObjId) : Action Z Unit := do
  init this
  swap this other

/-- `Message::operator=(Message&&)` -/
def assignMove (this other : ObjId) : Action Z Unit := swap this other

/-- `Message::shallowCopy` -/
def shallowCopy (this dest : ObjId) : Action Z Unit := do
  let rc ← zmqMsgCopy dest this
  if rc ≠ 0 then raiseError else pure ()

/-- Storage for a new object and its constructor. If the constructor throws
there is no object, and no destructor runs. -/
def create (kind : MessageKind) (constructor : ObjId → Action Z Unit) : Action Z ObjId := fun w =>
  match constructor w.messages.next { w with messages := w.messages.alloc ⟨kind, .raw⟩ } with
  | (.returned _, w') => (.returned w.messages.next, w')
  | (.threw e, w') =>
    (.threw e, { w' with messages := w'.messages.put w.messages.next none })
  | (.aborted, w') => (.aborted, w')

/-- The destructor of an object and the end of its storage. -/
def destroy (this : ObjId) : Action Z Unit := do
  drop this
  Exec.modify fun w => { w with messages := w.messages.put this none }

end Message

/-! ### `OutgoingMessage` -/

namespace OutgoingMessage
variable {Z : Libzmq}

/-- The bytes a `const char*` denotes through `strlen`. -/
def cString (buffer : Bytes) : Bytes := buffer.takeWhile (· ≠ 0)

/-- `OutgoingMessage(size, sourceData)`, for `void` and for `char` data alike. -/
def newData (sourceData : Bytes) : Action Z ObjId :=
  Message.create .outgoing (Message.initData sourceData)

/-- `OutgoingMessage(const char*)` -/
def newCString (sourceData : Bytes) : Action Z ObjId :=
  Message.create .outgoing (Message.initData (cString sourceData))

/-- `OutgoingMessage()` -/
def new : Action Z ObjId := Message.create .outgoing Message.init

/-- `OutgoingMessage(OutgoingMessage&&)` -/
def newMove (other : ObjId) : Action Z ObjId :=
  Message.create .outgoing (Message.initMove other)

/-- `OutgoingMessage::send`: what is handed to libzmq is a shallow copy. -/
def send (this : ObjId) (socket : Socket) (moreToSend : Bool) : Action Z Bool :=
  match socket.mSocket with
  | none => fun w => (.aborted, w)
  | some handle => Exec.withLocal new Message.destroy fun message => do
    Message.shallowCopy this message
    let flags := if moreToSend then ZMQ_SNDMORE else 0
    let rc ← zmqMsgSend message handle flags
    if 0 ≤ rc then pure true
    else do
      let errno ← zmqErrno
      if errno = EAGAIN then pure false else raiseError

end OutgoingMessage

/-! ### `IncomingMessage` -/

namespace IncomingMessage
variable {Z : Libzmq}

/-- `IncomingMessage()` -/
def new : Action Z ObjId := Message.create .incoming Message.init

/-- `IncomingMessage(IncomingMessage&&)` -/
def newMove (other : ObjId) : Action Z ObjId :=
  Message.create .incoming (Message.initMove other)

/-- `IncomingMessage::receive`. The second component is the value left in the
`moreToReceive` reference. -/
def receive (this : ObjId) (socket : Socket) : Action Z (Bool × Bool) :=
  match socket.mSocket with
  | none => fun w => (.aborted, w)
  | some handle => do
    let rc ← zmqMsgClose this
    if rc ≠ 0 then raiseError
    else do
      let rc ← zmqMsgInit this
      if rc ≠ 0 then raiseError
      else do
        let rc ← zmqMsgRecv this handle 0
        if 0 ≤ rc then do
          let more ← zmqMsgMore this
          pure (true, decide (more ≠ 0))
        else do
          let errno ← zmqErrno
          if errno = EAGAIN then pure (false, false) else raiseError

/-- `IncomingMessage::size` -/
def size (w : World Z) (this : ObjId) : Option ℕ :=
  match w.slot this with
  | some (.ready m) => some (Z.msgSize w.zmq m)
  | _ => none

/-- `IncomingMessage::data`: the bytes behind the pointer. -/
def data (w : World Z) (this : ObjId) : Option Bytes := w.payload this

end IncomingMessage
end CpperoMQ
