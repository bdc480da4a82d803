import CpperoMQ.Runs
import CpperoMQ.SocketOwnership

/-!
# Poll items

A `PollItem` points at a `Socket` object and not at the handle that object owns,
so what it polls follows the moves of sockets. Moving an item takes everything out
of the old one. An item's origin is the construction it came from, however often
it was moved since; what the code keeps in an item is a function of its origin.
-/
namespace CpperoMQ
open Effects

def ZMQ_POLLIN : BitVec 32 := 1
def ZMQ_POLLOUT : BitVec 32 := 2

/-- The function object in a `std::function` that is not empty. -/
abbrev Callback := ℕ

/-- `zmq_pollitem_t` -/
structure ZmqPollItem where
  socket : Option Handle
  fd : ℤ
  events : BitVec 16
  revents : BitVec 16
  deriving Repr, DecidableEq

/-- `zmq_poll` reads an array and sets the `revents` of its elements, here given
by index. An element that was never written is `none`. -/
structure PollApi extends SocketApi where
  poll : List (Option ZmqPollItem) → ℤ → State → (ℤ × (ℕ → BitVec 16)) × State

structure PollItem where
  mEvents : BitVec 32
  mSocketPtr : Option ObjId
  mCallable : Option Callback
  deriving Repr, DecidableEq

/-- The state of sockets and poll items, and the calls of `zmq_poll` so far. -/
structure PollWorld (A : PollApi) where
  sockets : SocketWorld A.toSocketApi
  items : ObjectPool PollItem
  polls : List (List (Option ZmqPollItem) × ℤ)

abbrev PollAction (A : PollApi) (α : Type) := Exec (PollWorld A) Error α

/-- Sockets as they are, no poll items. -/
def PollWorld.start {A : PollApi} (sockets : SocketWorld A.toSocketApi) : PollWorld A :=
  ⟨sockets, .empty, []⟩

/-! ### Construction and moves -/

namespace PollItem
variable {A : PollApi}

/-- `PollItem(int, Socket*, Callback)` -/
def new (events : BitVec 32) (socket : Option ObjId) (callable : Option Callback) : PollItem :=
  ⟨events, socket, callable⟩

/-- `PollItem(int, Socket&, Callback)` -/
def newOnSocket (events : BitVec 32) (socket : ObjId) (callable : Option Callback) : PollItem :=
  new events (some socket) callable

/-- `PollItem(PollItem&&)`: a `PollItem(0, nullptr, Callback())` that swaps all its
members with those of `other`. The value of the new object. -/
def newMove (other : ObjId) : PollAction A PollItem := fun w =>
  match w.items.get other with
  | some o => (.returned o, { w with items := w.items.put other (some (new 0 none none)) })
  | none => (.returned (new 0 none none), w)

/-- Storage for a new object. -/
def place (item : PollItem) : PollAction A ObjId := fun w =>
  (.returned w.items.next, { w with items := w.items.alloc item })

/-- The move constructors of the three class templates. -/
def move (other : ObjId) : PollAction A ObjId := do
  let item ← newMove other
  place item

/-- The destructor, and the end of the storage. -/
def destroy (this : ObjId) : PollAction A Unit := fun w =>
  (.returned (), { w with items := w.items.put this none })

end PollItem

def IsReceiveReady.new (socket : ObjId) (callable : Option Callback) : PollItem :=
  PollItem.newOnSocket ZMQ_POLLIN socket callable

def IsSendReady.new (socket : ObjId) (callable : Option Callback) : PollItem :=
  PollItem.newOnSocket ZMQ_POLLOUT socket callable

def IsSendOrReceiveReady.new (socket : ObjId) (callable : Option Callback) : PollItem :=
  PollItem.newOnSocket (ZMQ_POLLIN ||| ZMQ_POLLOUT) socket callable

inductive PollKind where
  | receiveReady
  | sendReady
  | sendOrReceiveReady
  deriving Repr, DecidableEq

namespace PollKind
variable {A : PollApi}

def item (kind : PollKind) (socket : ObjId) (callable : Option Callback) : PollItem :=
  match kind with
  | .receiveReady => IsReceiveReady.new socket callable
  | .sendReady => IsSendReady.new socket callable
  | .sendOrReceiveReady => IsSendOrReceiveReady.new socket callable

/-- `isReceiveReady`, `isSendReady` and `isSendOrReceiveReady`. A local object that
is not elided is one more construction, move and destruction. -/
def make (kind : PollKind) (socket : ObjId) (callable : Option Callback) : PollAction A ObjId :=
  PollItem.place (kind.item socket callable)

/-- The socket types that the class templates' `static_assert`s admit. -/
def admits : PollKind → SocketType → Bool
  | .receiveReady, type => type ∈ [.dealer, .extendedSubscribe, .pull, .reply, .request,
      .router, .subscribe]
  | .sendReady, type => type ∈ [.dealer, .extendedPublish, .publish, .push, .reply, .request,
      .router]
  | .sendOrReceiveReady, type => type ∈ [.dealer, .reply, .request, .router]

/-- The events an item of this kind waits for. -/
def events : PollKind → BitVec 16
  | .receiveReady => 1
  | .sendReady => 2
  | .sendOrReceiveReady => 3

end PollKind

/-! ### Runs -/

inductive PollOp where
  | sockets (op : SocketOp)
  | make (kind : PollKind) (socket : ObjId) (callable : Option Callback)
  | move (other : ObjId)
  | destroy (this : ObjId)
  deriving Repr, DecidableEq

namespace PollOp
variable {A : PollApi}

def perform (w : PollWorld A) : PollOp → PollWorld A
  | .sockets op => { w with sockets := (op.perform w.sockets).2 }
  | .make kind socket callable => (kind.make socket callable w).2
  | .move other => (PollItem.move other w).2
  | .destroy this => (PollItem.destroy this w).2

/-- Objects named are alive, items are made for sockets of a type that has what is
waited for, and a socket outlives the items made for it. -/
def Allowed (w : PollWorld A) : PollOp → Prop
  | .sockets op => op.Allowed w.sockets ∧ ∀ this i item, op = .destroy this →
      w.items.get i = some item → item.mSocketPtr ≠ some this
  | .make kind socket _ => ∃ type, w.sockets.typeOf socket = some type ∧ kind.admits type = true
  | .move other => (w.items.get other).isSome = true
  | .destroy this => (w.items.get this).isSome = true

end PollOp

def pollMachine (A : PollApi) : Machine (PollWorld A) PollOp where
  step w op := op.perform w
  Allowed w op := op.Allowed w

/-! ### Origins -/

/-- The construction an item came from. -/
structure Origin where
  kind : PollKind
  socket : ObjId
  callable : Option Callback
  deriving Repr, DecidableEq

namespace Origin

/-- An item that was moved from has no origin. -/
def step (origins : ObjectPool (Option Origin)) : PollOp → ObjectPool (Option Origin)
  | .sockets _ => origins
  | .make kind socket callable => origins.alloc (some ⟨kind, socket, callable⟩)
  | .move other =>
    match origins.get other with
    | some o => (origins.put other (some none)).alloc o
    | none => origins
  | .destroy this => origins.put this none

/-- The origins of all items after some operations. -/
def after (ops : List PollOp) : ObjectPool (Option Origin) := ops.foldl step .empty

/-- What the code keeps in an item of this origin. -/
def item : Option Origin → PollItem
  | some o => o.kind.item o.socket o.callable
  | none => PollItem.new 0 none none

end Origin

section Provenance
variable {A : PollApi}

/-- One operation keeps every item what its origin says. -/
theorem items_step {w : PollWorld A} {origins : ObjectPool (Option Origin)} {op : PollOp}
    (hitems : w.items = origins.map Origin.item) (hop : op.Allowed w) :
    (op.perform w).items = (Origin.step origins op).map Origin.item := by
  cases op with
  | sockets op => exact hitems
  | make kind socket callable =>
    change w.items.alloc _ = _
    rw [hitems, Origin.step, ObjectPool.map_alloc]
    rfl
  | move other =>
    obtain ⟨item, hitem⟩ := Option.isSome_iff_exists.mp hop
    have hget := hitem
    rw [hitems, ObjectPool.get_map, Option.map_eq_some_iff] at hget
    obtain ⟨o, ho, rfl⟩ := hget
    have hmove : (PollItem.move other w).2.items =
        (w.items.put other (some (PollItem.new 0 none none))).alloc (Origin.item o) := by
      simp [PollItem.move, PollItem.newMove, PollItem.place, Exec.bind, hitem]
    change (PollItem.move other w).2.items = _
    rw [hmove, hitems]
    simp [Origin.step, ho, Origin.item]
  | destroy this =>
    change w.items.put this none = _
    rw [hitems, Origin.step, ObjectPool.map_put]
    rfl

/-- After any run an item is what the construction it came from made of it. -/
theorem items_run (sockets : SocketWorld A.toSocketApi) {ops : List PollOp}
    (hops : (pollMachine A).Admissible (.start sockets) ops) :
    ((pollMachine A).run (.start sockets) ops).items =
      (Origin.after ops).map Origin.item := by
  have hrun := Machine.run_simulates (M := pollMachine A)
    (N := ⟨Origin.step, fun _ _ => True⟩)
    (R := fun w origins => w.items = origins.map Origin.item)
    (fun w origins op hitems hop => items_step hitems hop)
    (s := .start sockets) (t := .empty) rfl hops
  exact hrun

end Provenance
end CpperoMQ
