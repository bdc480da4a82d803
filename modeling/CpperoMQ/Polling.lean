import CpperoMQ.PollItems

/-!
# Polling

`Poller::poll` fills two arrays from the back, one element for each argument,
calls `zmq_poll` on the first and then walks both from the front, calling back
for the elements that are ready. Put together, the callbacks of the ready
arguments run once each, the last argument first. Which ones is settled before
the first of them runs, so it does not matter what they do to sockets and items.
-/
namespace CpperoMQ
open Effects Effects.Exec

structure Poller where
  mTimeout : ℤ
  deriving Repr, DecidableEq

namespace PollWorld
variable {A : PollApi}

/-- `PollItem::getRawSocket` -/
def rawSocket (w : PollWorld A) (i : ObjId) : Option Handle :=
  match w.items.get i with
  | some item => item.mSocketPtr.bind w.sockets.mSocket
  | none => none

/-- `PollItem::getEvents` -/
def events (w : PollWorld A) (i : ObjId) : BitVec 32 :=
  match w.items.get i with
  | some item => item.mEvents
  | none => 0

/-- `PollItem::getCallback` -/
def callback (w : PollWorld A) (i : ObjId) : Option Callback :=
  (w.items.get i).bind PollItem.mCallable

/-- The state after a call of `zmq_poll`. -/
def polled (w : PollWorld A) (array : List (Option ZmqPollItem)) (timeout : ℤ)
    (σ : A.State) : PollWorld A :=
  { w with sockets := { w.sockets with zmq := σ }, polls := w.polls ++ [(array, timeout)] }

end PollWorld

section Poll
variable {A : PollApi}

/-- `throw Error()`: the exception carries the current `zmq_errno`. -/
def raisePollError {α : Type} : PollAction A α := fun w => (.threw ⟨A.errno w.sockets.zmq⟩, w)

/-- Set the `revents` of the elements of an array. -/
def setRevents (revents : ℕ → BitVec 16) (array : List (Option ZmqPollItem)) :
    List (Option ZmqPollItem) :=
  array.mapIdx fun i item => item.map fun item => { item with revents := revents i }

def zmqPoll (array : List (Option ZmqPollItem)) (timeout : ℤ) :
    PollAction A (ℤ × List (Option ZmqPollItem)) := fun w =>
  match A.poll array timeout w.sockets.zmq with
  | ((rc, revents), σ) => (.returned (rc, setRevents revents array), w.polled array timeout σ)

namespace Poller
variable (call : Callback → PollAction A Unit) (this : Poller)

/-- Some iterations of the loop over the arrays, from index `i` on. -/
def dispatch (pollItemArray : List (Option ZmqPollItem)) (callbackArray : List (Option Callback)) :
    ℕ → ℕ → PollAction A Unit
  | _, 0 => pure ()
  | i, n + 1 => do
    match callbackArray[i]?.join, pollItemArray[i]?.join with
    | some callback, some item =>
      if item.revents.signExtend 32 &&& ZMQ_POLLIN ≠ 0 then call callback
      else if item.revents.signExtend 32 &&& ZMQ_POLLOUT ≠ 0 then call callback
      else pure ()
    | _, _ => pure ()
    dispatch pollItemArray callbackArray (i + 1) n

/-- The overload of `Poller::poll` for no more items. -/
def pollArrays (pollItemArray : List (Option ZmqPollItem))
    (callbackArray : List (Option Callback)) : PollAction A Unit := do
  let result ← zmqPoll pollItemArray this.mTimeout
  if result.1 < 0 then raisePollError
  else dispatch call result.2 callbackArray 0 callbackArray.length

/-- The overload of `Poller::poll` that writes the element of its first item, at the
index that is the number of the other items. -/
def pollFrom : List ObjId → List (Option ZmqPollItem) → List (Option Callback) →
    PollAction A Unit
  | [], pollItemArray, callbackArray => pollArrays call this pollItemArray callbackArray
  | pollItem :: pollItems, pollItemArray, callbackArray => do
    let socket ← Exec.read fun w => w.rawSocket pollItem
    Exec.assert socket.isSome
    let events ← Exec.read fun w => w.events pollItem
    let callback ← Exec.read fun w => w.callback pollItem
    pollFrom pollItems
      (pollItemArray.set pollItems.length (some ⟨socket, 0, events.setWidth 16, 0⟩))
      (callbackArray.set pollItems.length callback)

/-- `Poller::poll(PollItem&, PollItemTypes&...)` for the arguments in `pollItems`. The
elements of the first array are not initialised, those of the second are empty. -/
def poll (pollItems : List ObjId) : PollAction A Unit :=
  pollFrom call this pollItems (List.replicate pollItems.length none)
    (List.replicate pollItems.length none)

end Poller

/-! ### Filling the arrays -/

/-- Writing the last element of the part not yet written. -/
theorem set_replicate {α : Type} (n : ℕ) (x y : α) (l : List α) :
    (List.replicate (n + 1) x ++ l).set n y = List.replicate n x ++ y :: l := by
  rw [List.replicate_succ', List.append_assoc,
    List.set_append_right n y (Nat.le_of_eq List.length_replicate), List.length_replicate,
    Nat.sub_self]
  rfl

/-- What is written for an item. -/
def PollWorld.entry (w : PollWorld A) (i : ObjId) : ZmqPollItem :=
  ⟨w.rawSocket i, 0, (w.events i).setWidth 16, 0⟩

variable {call : Callback → PollAction A Unit} {this : Poller} {w : PollWorld A}

/-- Both arrays end up with the elements of the items in reverse, before what was
there. -/
theorem pollFrom_apply {items : List ObjId}
    (hraw : ∀ i ∈ items, (w.rawSocket i).isSome = true)
    (entries : List (Option ZmqPollItem)) (callbacks : List (Option Callback)) :
    this.pollFrom call items (List.replicate items.length none ++ entries)
        (List.replicate items.length none ++ callbacks) w =
      this.pollArrays call ((items.map fun i => some (w.entry i)).reverse ++ entries)
        ((items.map w.callback).reverse ++ callbacks) w := by
  induction items generalizing entries callbacks with
  | nil => rfl
  | cons i items ih =>
    have hi := hraw i (by simp)
    rw [List.length_cons, Poller.pollFrom]
    simp only [bind_eq, Exec.bind, read_apply, hi, assert_true, set_replicate]
    change this.pollFrom call items
      (List.replicate items.length none ++ some (w.entry i) :: entries)
      (List.replicate items.length none ++ w.callback i :: callbacks) w = _
    rw [ih fun j hj => hraw j (by simp [hj])]
    simp

/-! ### Walking the arrays -/

/-- `ZMQ_POLLIN` or `ZMQ_POLLOUT` is set. -/
def ready (revents : BitVec 16) : Bool := revents.getLsbD 0 || revents.getLsbD 1

theorem pollIn_iff (revents : BitVec 16) :
    revents.signExtend 32 &&& ZMQ_POLLIN ≠ 0 ↔ revents.getLsbD 0 = true := by
  have hbit : (revents.signExtend 32).getLsbD 0 = revents.getLsbD 0 := by
    rw [BitVec.getLsbD_signExtend]
    rfl
  change revents.signExtend 32 &&& BitVec.twoPow 32 0 ≠ 0 ↔ _
  rw [BitVec.and_twoPow, hbit]
  cases revents.getLsbD 0 <;> decide

theorem pollOut_iff (revents : BitVec 16) :
    revents.signExtend 32 &&& ZMQ_POLLOUT ≠ 0 ↔ revents.getLsbD 1 = true := by
  have hbit : (revents.signExtend 32).getLsbD 1 = revents.getLsbD 1 := by
    rw [BitVec.getLsbD_signExtend]
    rfl
  change revents.signExtend 32 &&& BitVec.twoPow 32 1 ≠ 0 ↔ _
  rw [BitVec.and_twoPow, hbit]
  cases revents.getLsbD 1 <;> decide

/-- Call some functions one after the other, as long as they return. -/
def callAll (call : Callback → PollAction A Unit) : List Callback → PollAction A Unit
  | [] => pure ()
  | callback :: callbacks => do
    call callback
    callAll call callbacks

/-- The callbacks of an array to run, given the `revents` of every index. -/
def readyCallbacks (revents : ℕ → BitVec 16) (callbacks : List (Option Callback)) :
    List Callback :=
  callbacks.zipIdx.filterMap fun e => if ready (revents e.2) then e.1 else none

/-- From index `i` on, the loop calls the callbacks of the elements that are ready. -/
theorem dispatch_eq (revents : ℕ → BitVec 16) (entries : List ZmqPollItem)
    (callbacks : List (Option Callback)) (hlength : entries.length = callbacks.length)
    {i n : ℕ} (hin : i + n = callbacks.length) :
    Poller.dispatch call (setRevents revents (entries.map some)) callbacks i n =
      callAll call ((callbacks.zipIdx.drop i).filterMap fun e =>
        if ready (revents e.2) then e.1 else none) := by
  induction n generalizing i with
  | zero =>
    have hnone : callbacks.zipIdx.drop i = [] :=
      List.drop_eq_nil_of_le (by rw [List.length_zipIdx]; omega)
    rw [hnone]
    rfl
  | succ n ih =>
    have hi : i < callbacks.length := by omega
    have hentry : (setRevents revents (entries.map some))[i]?.join =
        some { entries[i] with revents := revents i } := by
      simp [setRevents, hlength, hi]
    have hcallback : callbacks[i]?.join = callbacks[i] := by simp [hi]
    have hdrop : callbacks.zipIdx.drop i =
        (callbacks[i], i) :: callbacks.zipIdx.drop (i + 1) := by
      rw [List.drop_eq_getElem_cons (by rwa [List.length_zipIdx]), List.getElem_zipIdx,
        Nat.zero_add]
    rw [Poller.dispatch, hentry, hcallback, hdrop, ih (by omega)]
    cases hc : callbacks[i] with
    | none =>
      simp only [List.filterMap_cons, ite_self]
    | some callback =>
      simp only [List.filterMap_cons, pollIn_iff, pollOut_iff, ready]
      by_cases hin' : (revents i).getLsbD 0 = true
      · simp only [hin', if_true, Bool.true_or]
        rfl
      · by_cases hout : (revents i).getLsbD 1 = true
        · simp only [hin', hout, if_true, Bool.or_true]
          rfl
        · simp only [hin', hout, Bool.or_false]
          rfl

/-- What `Poller::poll` does with items whose raw sockets are not null. -/
theorem poll_apply {items : List ObjId} (hraw : ∀ i ∈ items, (w.rawSocket i).isSome = true)
    {rc : ℤ} {revents : ℕ → BitVec 16} {σ : A.State}
    (hpoll : A.poll ((items.map w.entry).reverse.map some) this.mTimeout w.sockets.zmq =
      ((rc, revents), σ)) :
    this.poll call items w =
      if rc < 0 then
        (.threw ⟨A.errno σ⟩, w.polled ((items.map w.entry).reverse.map some) this.mTimeout σ)
      else
        callAll call (readyCallbacks revents (items.map w.callback).reverse)
          (w.polled ((items.map w.entry).reverse.map some) this.mTimeout σ) := by
  have hfill : this.pollFrom call items (List.replicate items.length none)
      (List.replicate items.length none) w =
      this.pollArrays call (items.map fun i => some (w.entry i)).reverse
        (items.map w.callback).reverse w := by
    simpa only [List.append_nil] using pollFrom_apply hraw [] []
  have hmap : (items.map fun i => some (w.entry i)).reverse =
      (items.map w.entry).reverse.map some := by
    rw [List.map_reverse, List.map_map]
    rfl
  rw [Poller.poll, hfill, hmap, Poller.pollArrays]
  simp only [bind_eq, Exec.bind, zmqPoll, hpoll]
  split_ifs with hrc
  · rfl
  · rw [dispatch_eq revents _ _ (by simp) (Nat.zero_add _), List.drop_zero]
    rfl

/-! ### Polling what was built -/

/-- What an argument of this origin asks of libzmq: the events of its kind, on the
handle that the socket object it was built from owns now. -/
def Origin.entry (w : PollWorld A) (o : Origin) : ZmqPollItem :=
  ⟨w.sockets.mSocket o.socket, 0, o.kind.events, 0⟩

theorem events_item (o : Origin) : (o.kind.item o.socket o.callable).mEvents.setWidth 16 =
    o.kind.events := by
  obtain ⟨kind, socket, callable⟩ := o
  cases kind <;> rfl

theorem item_eq (o : Origin) : Origin.item (some o) =
    ⟨(o.kind.item o.socket o.callable).mEvents, some o.socket, o.callable⟩ := by
  obtain ⟨kind, socket, callable⟩ := o
  cases kind <;> rfl

/-- An item is polled for what its origin says. -/
theorem entry_of_origin {origins : ObjectPool (Option Origin)}
    (hitems : w.items = origins.map Origin.item) {i : ObjId} {o : Origin}
    (ho : origins.get i = some (some o)) :
    w.rawSocket i = w.sockets.mSocket o.socket ∧ w.entry i = o.entry w ∧
      w.callback i = o.callable := by
  have hget : w.items.get i =
      some ⟨(o.kind.item o.socket o.callable).mEvents, some o.socket, o.callable⟩ := by
    rw [hitems, ObjectPool.get_map, ho, Option.map_some, item_eq]
  refine ⟨?_, ?_, ?_⟩
  · simp [PollWorld.rawSocket, hget]
  · simp [PollWorld.entry, PollWorld.rawSocket, PollWorld.events, Origin.entry, hget, events_item]
  · simp [PollWorld.callback, hget]

/-- The origins of some items that were all built and not moved from. -/
theorem entries_of_origins {origins : ObjectPool (Option Origin)}
    (hitems : w.items = origins.map Origin.item) {items : List ObjId}
    (horigins : ∀ i ∈ items, ∃ o, origins.get i = some (some o)) :
    let sources := items.filterMap fun i => (origins.get i).join
    items.map origins.get = sources.map (fun o => some (some o)) ∧
      items.map w.entry = sources.map (Origin.entry w) ∧
      items.map w.callback = sources.map Origin.callable := by
  induction items with
  | nil => exact ⟨rfl, rfl, rfl⟩
  | cons i items ih =>
    obtain ⟨o, ho⟩ := horigins i (by simp)
    obtain ⟨_, hentry, hcallback⟩ := entry_of_origin hitems ho
    obtain ⟨hgets, hentries, hcallbacks⟩ := ih fun j hj => horigins j (by simp [hj])
    have hcons : ((i :: items).filterMap fun i => (origins.get i).join) =
        o :: items.filterMap fun i => (origins.get i).join :=
      List.filterMap_cons_some (by rw [ho]; rfl)
    rw [hcons]
    simp only [List.map_cons, ho, hentry, hcallback, hgets, hentries, hcallbacks]
    exact ⟨trivial, trivial, trivial⟩

/-- After any run of moves of sockets and items and constructions of items, with
arguments whose socket objects have handles, `poll` asks `zmq_poll` once about the
handle and the events of each of its arguments; if
that fails it throws and calls nothing back, and if not it calls back, last argument
first, for exactly the arguments that have a callback and are ready. -/
theorem poll_dispatches (sockets : SocketWorld A.toSocketApi) {ops : List PollOp}
    (hops : (pollMachine A).Admissible (.start sockets) ops)
    (call : Callback → PollAction A Unit) (this : Poller) {items : List ObjId}
    (hraw : ∀ i ∈ items, ∃ o, (Origin.after ops).get i = some (some o) ∧
      (((pollMachine A).run (.start sockets) ops).sockets.mSocket o.socket).isSome = true) :
    let w := (pollMachine A).run (.start sockets) ops
    let sources := items.filterMap fun i => ((Origin.after ops).get i).join
    let array := (sources.map (Origin.entry w)).reverse.map some
    let answer := A.poll array this.mTimeout w.sockets.zmq
    let w' := w.polled array this.mTimeout answer.2
    items.map (Origin.after ops).get = sources.map (fun o => some (some o)) ∧
      array.length = items.length ∧
      this.poll call items w =
        if answer.1.1 < 0 then (.threw ⟨A.errno answer.2⟩, w')
        else callAll call (readyCallbacks answer.1.2 (sources.map Origin.callable).reverse) w' := by
  intro w sources array answer w'
  have hitems := items_run sockets hops
  obtain ⟨horigins, hentries, hcallbacks⟩ := entries_of_origins hitems fun i hi =>
    (hraw i hi).imp fun _ ho => ho.1
  have hsome : ∀ i ∈ items, (w.rawSocket i).isSome = true := by
    intro i hi
    obtain ⟨o, ho, hm⟩ := hraw i hi
    rwa [(entry_of_origin hitems ho).1]
  have harray : array = (items.map w.entry).reverse.map some := by
    change (sources.map (Origin.entry w)).reverse.map some = _
    rw [hentries]
  refine ⟨horigins, by simp [harray], ?_⟩
  have hpoll : A.poll ((items.map w.entry).reverse.map some) this.mTimeout w.sockets.zmq =
      ((answer.1.1, answer.1.2), answer.2) := by
    rw [← harray]
  rw [poll_apply hsome hpoll, hcallbacks, ← harray]

end Poll

/-! ### A table of sockets that are always ready -/

namespace PollTable

/-- Every element of the array is ready for all it asks. -/
def api : PollApi := { SocketTable.api with
  poll := fun array _ σ =>
    ((array.length, fun i => ((array[i]?.join).map ZmqPollItem.events).getD 0), σ) }

/-- Two dealers, with the handles 1 and 2. -/
def dealers : SocketWorld api.toSocketApi :=
  ⟨(⟨[1, 2], 9⟩ : SocketTable.State), ⟨[some ⟨⟨some 1⟩, .dealer⟩, some ⟨⟨some 2⟩, .dealer⟩]⟩, []⟩

/-- The first item is moved, and the sockets exchange their handles. -/
def tour : List PollOp :=
  [.make .receiveReady 0 (some 5), .make .sendOrReceiveReady 1 (some 6), .move 0,
    .sockets (.assignMove 0 1), .make .sendReady 1 none]

/-- One callback throws, the other takes the handle of the first socket away. -/
def call (callback : Callback) : PollAction api Unit :=
  if callback = 6 then Exec.throw ⟨6⟩
  else Exec.modify fun w => { w with sockets := w.sockets.setSocket 0 none }

def tourEnd : PollWorld api := (pollMachine api).run (.start dealers) tour

theorem tour_admissible : (pollMachine api).Admissible (.start dealers) tour :=
  ⟨⟨.dealer, rfl, rfl⟩, ⟨.dealer, rfl, rfl⟩, rfl, ⟨⟨rfl, rfl⟩, by simp⟩, ⟨.dealer, rfl, rfl⟩,
    trivial⟩

end PollTable

theorem poll_dispatches_tour :
    ((Poller.mk (-1)).poll PollTable.call [2, 1, 3, 2] PollTable.tourEnd).1 = .threw ⟨6⟩ := by
  have hraw : ∀ i ∈ [2, 1, 3, 2], ∃ o, (Origin.after PollTable.tour).get i = some (some o) ∧
      (PollTable.tourEnd.sockets.mSocket o.socket).isSome = true := by
    intro i hi
    simp only [List.mem_cons, List.not_mem_nil, or_false] at hi
    rcases hi with rfl | rfl | rfl | rfl <;> exact ⟨_, rfl, by decide +kernel⟩
  have hpoll := poll_dispatches PollTable.dealers PollTable.tour_admissible PollTable.call ⟨-1⟩
    hraw
  have heq := congrArg Prod.fst hpoll.2.2
  refine Eq.trans heq ?_
  decide +kernel

end CpperoMQ
