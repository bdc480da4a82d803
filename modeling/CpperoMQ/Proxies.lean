import CpperoMQ.ObjectOperations
import Mathlib.Data.List.Induction

/-!
# Proxies

A `Proxy` keeps the bare pointers of the sockets it was given to capture traffic and
to be controlled by, and hands them to `zmq_proxy_steerable` later. By then the socket
objects may have been moved from, assigned to or destroyed, and a pointer that was
given back may belong to another socket. The operations on sockets and proxies, and
what somebody knows who follows the objects alone.
-/
namespace CpperoMQ
open Effects OwnedValues

/-- The libzmq functions that open and close sockets and run proxies. -/
structure ProxyApi extends SocketApi where
  /-- With the pointers of `frontend`, `backend`, `capture` and `control`. -/
  proxySteerable : Option Handle → Option Handle → Option Handle → Option Handle → State →
    ℤ × State

/-- Where it returns, a proxy between open sockets has opened and closed none. -/
structure ProxyApi.Laws {A : ProxyApi} (V : A.toSocketApi.View) : Prop extends V.Laws where
  proxySteerable : ∀ frontend backend capture control σ,
    (∀ h, some h ∈ [frontend, backend, capture, control] → V.isOpen σ h) →
    V.isOpen (A.proxySteerable frontend backend capture control σ).2 = V.isOpen σ

structure Proxy where
  mCaptureSocketPtr : Option Handle
  mControlSocketPtr : Option Handle
  deriving Repr, DecidableEq

/-- A call of `zmq_proxy_steerable` that was made. -/
structure ProxyCall where
  frontend : Option Handle
  backend : Option Handle
  capture : Option Handle
  control : Option Handle
  result : ℤ
  deriving Repr, DecidableEq

structure ProxyWorld (A : ProxyApi) where
  zmq : A.State
  sockets : ObjectPool SocketObject
  socketCalls : List SocketCall
  proxies : ObjectPool Proxy
  proxyCalls : List ProxyCall

abbrev ProxyAction (A : ProxyApi) (α : Type) := Exec (ProxyWorld A) Error α

namespace ProxyWorld
variable {A : ProxyApi}

def initial (σ : A.State) : ProxyWorld A := ⟨σ, .empty, [], .empty, []⟩

def socketWorld (w : ProxyWorld A) : SocketWorld A.toSocketApi :=
  ⟨w.zmq, w.sockets, w.socketCalls⟩

def setSockets (w : ProxyWorld A) (u : SocketWorld A.toSocketApi) : ProxyWorld A :=
  { w with zmq := u.zmq, sockets := u.sockets, socketCalls := u.calls }

/-- `static_cast<void*>(socket)` -/
def mSocket (w : ProxyWorld A) (i : ObjId) : Option Handle := w.socketWorld.mSocket i

def captureOf (w : ProxyWorld A) (i : ObjId) : Option Handle :=
  (w.proxies.get i).bind Proxy.mCaptureSocketPtr

def controlOf (w : ProxyWorld A) (i : ObjId) : Option Handle :=
  (w.proxies.get i).bind Proxy.mControlSocketPtr

/-- Write the `mCaptureSocketPtr` of a live object. -/
def setCapture (w : ProxyWorld A) (i : ObjId) (m : Option Handle) : ProxyWorld A :=
  match w.proxies.get i with
  | some p => { w with proxies := w.proxies.put i (some { p with mCaptureSocketPtr := m }) }
  | none => w

/-- Write the `mControlSocketPtr` of a live object. -/
def setControl (w : ProxyWorld A) (i : ObjId) (m : Option Handle) : ProxyWorld A :=
  match w.proxies.get i with
  | some p => { w with proxies := w.proxies.put i (some { p with mControlSocketPtr := m }) }
  | none => w

/-- The state after a call of `zmq_proxy_steerable`. -/
def ran (w : ProxyWorld A) (σ : A.State) (c : ProxyCall) : ProxyWorld A :=
  { w with zmq := σ, proxyCalls := w.proxyCalls ++ [c] }

end ProxyWorld

/-! ### The member functions -/

namespace Proxy
variable {A : ProxyApi}

/-- `Proxy::Proxy()` -/
def new : Proxy := ⟨none, none⟩

def place (p : Proxy) : ProxyAction A ObjId := fun w =>
  (.returned w.proxies.next, { w with proxies := w.proxies.alloc p })

def construct : ProxyAction A ObjId := place new

/-- `swap(Proxy&, Proxy&)` -/
def swap (lhs rhs : ObjId) : ProxyAction A Unit := do
  Exec.modify fun w => (w.setCapture lhs (w.captureOf rhs)).setCapture rhs (w.captureOf lhs)
  Exec.modify fun w => (w.setControl lhs (w.controlOf rhs)).setControl rhs (w.controlOf lhs)

/-- `Proxy::Proxy(Proxy&&)` -/
def newMove (other : ObjId) : ProxyAction A ObjId := do
  let this ← construct
  swap this other
  pure this

/-- `Proxy::operator=(Proxy&&)` -/
def assignMove (this other : ObjId) : ProxyAction A Unit := swap this other

/-- The destructor is defaulted. -/
def destroy (this : ObjId) : ProxyAction A Unit :=
  Exec.modify fun w => { w with proxies := w.proxies.put this none }

def setCaptureSocket (this socket : ObjId) : ProxyAction A Unit :=
  Exec.modify fun w => w.setCapture this (w.mSocket socket)

def setControlSocket (this socket : ObjId) : ProxyAction A Unit :=
  Exec.modify fun w => w.setControl this (w.mSocket socket)

def zmqProxySteerable (frontend backend capture control : Option Handle) : ProxyAction A ℤ :=
  fun w =>
    match A.proxySteerable frontend backend capture control w.zmq with
    | (result, σ) => (.returned result, w.ran σ ⟨frontend, backend, capture, control, result⟩)

/-- `Proxy::run`. Without a control socket the result of libzmq is not looked at. -/
def run (this frontend backend : ObjId) : ProxyAction A Bool := do
  let frontendPtr ← Exec.read fun w => w.mSocket frontend
  let backendPtr ← Exec.read fun w => w.mSocket backend
  let mCaptureSocketPtr ← Exec.read fun w => w.captureOf this
  let mControlSocketPtr ← Exec.read fun w => w.controlOf this
  let result ← zmqProxySteerable frontendPtr backendPtr mCaptureSocketPtr mControlSocketPtr
  pure (if mControlSocketPtr.isSome then decide (result = 0) else true)

/-! ### The types that are accepted -/

/-- The `static_assert` of `run`. -/
def connects : SocketType → SocketType → Bool
  | .router, .dealer | .dealer, .router => true
  | .extendedSubscribe, .extendedPublish | .extendedPublish, .extendedSubscribe => true
  | .pull, .push | .push, .pull => true
  | _, _ => false

/-- The `static_assert` of `setCaptureSocket`. -/
def captures : SocketType → Bool
  | .dealer | .publish | .push => true
  | _ => false

/-- The `static_assert` of `setControlSocket`. -/
def controls : SocketType → Bool
  | .pull | .subscribe => true
  | _ => false

end Proxy

/-! ### Operations -/

inductive ProxyOp where
  | socket (op : SocketOp)
  | construct
  | newMove (other : ObjId)
  | assignMove (this other : ObjId)
  | swap (lhs rhs : ObjId)
  | destroy (this : ObjId)
  | setCaptureSocket (this socket : ObjId)
  | setControlSocket (this socket : ObjId)
  | run (this frontend backend : ObjId)
  deriving Repr, DecidableEq

namespace ProxyOp
variable {A : ProxyApi}

def perform (w : ProxyWorld A) : ProxyOp → Outcome Error Unit × ProxyWorld A
  | socket op => (op.perform w.socketWorld).map id w.setSockets
  | construct => Exec.discard Proxy.construct w
  | newMove other => Exec.discard (Proxy.newMove other) w
  | assignMove this other => Proxy.assignMove this other w
  | swap lhs rhs => Proxy.swap lhs rhs w
  | destroy this => Proxy.destroy this w
  | setCaptureSocket this i => Proxy.setCaptureSocket this i w
  | setControlSocket this i => Proxy.setControlSocket this i w
  | run this frontend backend => Exec.discard (Proxy.run this frontend backend) w

/-- The objects named are alive, and of types that the code compiles for. -/
def Allowed (w : ProxyWorld A) : ProxyOp → Prop
  | socket op => op.Allowed w.socketWorld
  | construct => True
  | newMove other => (w.proxies.get other).isSome = true
  | assignMove this other | swap this other =>
    (w.proxies.get this).isSome = true ∧ (w.proxies.get other).isSome = true
  | destroy this => (w.proxies.get this).isSome = true
  | setCaptureSocket this i => (w.proxies.get this).isSome = true ∧
    ∃ type, w.socketWorld.typeOf i = some type ∧ Proxy.captures type = true
  | setControlSocket this i => (w.proxies.get this).isSome = true ∧
    ∃ type, w.socketWorld.typeOf i = some type ∧ Proxy.controls type = true
  | run this frontend backend => (w.proxies.get this).isSome = true ∧
    ∃ type type', w.socketWorld.typeOf frontend = some type ∧
      w.socketWorld.typeOf backend = some type' ∧ Proxy.connects type type' = true

end ProxyOp

/-! ### Sockets by number -/

/-- Sockets are numbered in the order they are opened in. -/
structure Serials where
  /-- The socket that is behind a handle. -/
  of : Handle → Option ℕ
  next : ℕ

namespace Serials

def after (r : Serials) : SocketCall → Serials
  | .socket _ (some h) => ⟨Function.update r.of h (some r.next), r.next + 1⟩
  | .socket _ none => r
  | .close h rc => if rc = 0 then ⟨Function.update r.of h none, r.next⟩ else r

def ofCalls (calls : List SocketCall) : Serials := calls.foldl after ⟨fun _ => none, 0⟩

@[simp] theorem ofCalls_append (calls : List SocketCall) (c : SocketCall) :
    ofCalls (calls ++ [c]) = (ofCalls calls).after c := by simp [ofCalls]

/-- Only numbers that were given out are in use, and no two handles have the same. -/
structure Proper (r : Serials) : Prop where
  lt_next : ∀ h n, r.of h = some n → n < r.next
  distinct : ∀ h h' n, r.of h = some n → r.of h' = some n → h = h'

/-- Numbers from before are behind no other handles than before. -/
structure Extends (r r' : Serials) : Prop where
  next_le : r.next ≤ r'.next
  old : ∀ h n, n < r.next → r'.of h = some n → r.of h = some n

theorem Extends.refl (r : Serials) : r.Extends r := ⟨le_rfl, fun _ _ _ hh => hh⟩

theorem after_opened (r : Serials) (type : ℤ) (h g : Handle) :
    (r.after (.socket type (some h))).of g = if g = h then some r.next else r.of g :=
  Function.update_apply r.of h _ g

theorem after_closed (r : Serials) (h g : Handle) :
    (r.after (.close h 0)).of g = if g = h then none else r.of g :=
  Function.update_apply r.of h _ g

theorem Proper.after {r : Serials} (hr : r.Proper) (c : SocketCall) :
    (r.after c).Proper ∧ r.Extends (r.after c) := by
  cases c with
  | socket type result =>
    cases result with
    | none => exact ⟨hr, .refl r⟩
    | some h =>
      refine ⟨⟨?_, ?_⟩, Nat.le_succ _, ?_⟩
      · intro g n hg
        rw [after_opened] at hg
        split_ifs at hg
        · exact Option.some.inj hg ▸ Nat.lt_succ_self _
        · exact Nat.lt_succ_of_lt (hr.lt_next g n hg)
      · intro g g' n hg hg'
        rw [after_opened] at hg hg'
        split_ifs at hg hg' with hh hh' hh'
        · rw [hh, hh']
        · exact absurd (hr.lt_next g' n hg') (by simp [← Option.some.inj hg])
        · exact absurd (hr.lt_next g n hg) (by simp [← Option.some.inj hg'])
        · exact hr.distinct g g' n hg hg'
      · intro g n hn hg
        rw [after_opened] at hg
        split_ifs at hg
        · exact absurd hn (by simp [← Option.some.inj hg])
        · exact hg
  | close h rc =>
    by_cases hrc : rc = 0
    · subst hrc
      have hof : ∀ g n, (r.after (.close h 0)).of g = some n → r.of g = some n := by
        intro g n hg
        rw [after_closed] at hg
        split_ifs at hg
        exact hg
      exact ⟨⟨fun g n hg => hr.lt_next g n (hof g n hg),
        fun g g' n hg hg' => hr.distinct g g' n (hof g n hg) (hof g' n hg')⟩,
        Nat.le_refl _, fun g n _ hg => hof g n hg⟩
    · have hsame : r.after (.close h rc) = r := if_neg hrc
      rw [hsame]
      exact ⟨hr, .refl r⟩

/-- Whatever the calls were. -/
theorem proper (calls : List SocketCall) : (ofCalls calls).Proper := by
  induction calls using List.reverseRecOn with
  | nil =>
    constructor
    · intro h n hn
      cases hn
    · intro h h' n hn
      cases hn
  | append_singleton calls c ih =>
    rw [ofCalls_append]
    exact (ih.after c).1

end Serials

/-- The sockets a proxy was given, by number. -/
structure Designation where
  capture : Option ℕ
  control : Option ℕ
  deriving Repr, DecidableEq

/-- Which socket every object has or was given, for somebody who follows the objects. -/
structure Roster where
  sockets : ObjectPool (Option ℕ)
  proxies : ObjectPool Designation
  born : ℕ

namespace Roster

/-- The socket that an object has. -/
def socketOf (l : Roster) (i : ObjId) : Option ℕ := (l.sockets.get i).join

/-- What is noted of an operation that returned. -/
def note (l : Roster) : ProxyOp → Roster
  | .socket (.create _ _ elided) =>
    ⟨(valueMachine ℕ).run l.sockets (creationEvents l.sockets.next elided l.born), l.proxies,
      l.born + 1⟩
  | .socket (.newMove other) => { l with sockets := (Event.moved other).apply l.sockets }
  | .socket (.assignMove this other) =>
    { l with sockets := (Event.exchanged this other).apply l.sockets }
  | .socket (.destroy this) => { l with sockets := (Event.destroyed this).apply l.sockets }
  | .construct => { l with proxies := l.proxies.alloc ⟨none, none⟩ }
  | .newMove other =>
    match l.proxies.get other with
    | some d => { l with proxies := (l.proxies.put other (some ⟨none, none⟩)).alloc d }
    | none => l
  | .assignMove this other | .swap this other =>
    match l.proxies.get this, l.proxies.get other with
    | some d, some e => { l with proxies := (l.proxies.put this (some e)).put other (some d) }
    | _, _ => l
  | .destroy this => { l with proxies := l.proxies.put this none }
  | .setCaptureSocket this socket =>
    match l.proxies.get this with
    | some d =>
      { l with proxies := l.proxies.put this (some { d with capture := l.socketOf socket }) }
    | none => l
  | .setControlSocket this socket =>
    match l.proxies.get this with
    | some d =>
      { l with proxies := l.proxies.put this (some { d with control := l.socketOf socket }) }
    | none => l
  | .run _ _ _ => l

end Roster

structure ProxyRun (A : ProxyApi) where
  world : ProxyWorld A
  roster : Roster

namespace ProxyRun
variable {A : ProxyApi}

def initial (σ : A.State) : ProxyRun A := ⟨.initial σ, ⟨.empty, .empty, 0⟩⟩

def step (s : ProxyRun A) (op : ProxyOp) : ProxyRun A :=
  match op.perform s.world with
  | (.returned _, w) => ⟨w, s.roster.note op⟩
  | (_, w) => ⟨w, s.roster⟩

/-- Some object has the socket. -/
def Lives (s : ProxyRun A) (n : ℕ) : Prop := ∃ j, s.roster.sockets.get j = some (some n)

/-- When a proxy runs, objects have the sockets it was given. -/
def DesignatesLive (s : ProxyRun A) : ProxyOp → Prop
  | .run this _ _ => ∀ d, s.roster.proxies.get this = some d →
    (∀ n, d.capture = some n → s.Lives n) ∧ ∀ n, d.control = some n → s.Lives n
  | _ => True

/-- When a proxy runs, the sockets it was given are still behind the pointers it has. -/
def PassesDesignated (s : ProxyRun A) : ProxyOp → Prop
  | .run this _ _ => ∀ d, s.roster.proxies.get this = some d →
    (s.world.captureOf this).map (Serials.ofCalls s.world.socketCalls).of =
      d.capture.map some ∧
    (s.world.controlOf this).map (Serials.ofCalls s.world.socketCalls).of =
      d.control.map some
  | _ => True

end ProxyRun

def proxyMachine (A : ProxyApi) : Machine (ProxyRun A) ProxyOp where
  step s op := s.step op
  Allowed s op := op.Allowed s.world

end CpperoMQ
