import CpperoMQ.HandleLedger
import CpperoMQ.Runs
import CpperoMQ.SocketObjects

/-!
# Ownership of context handles

`Context` acquires its handle in the constructor and configures it there. When
`zmq_ctx_set` fails, the constructor throws with the handle in hand: the object
never existed, so `~Context` does not run, and nobody else knows the handle.
Runs in which this does not happen keep the ledger of context handles balanced,
and no other runs do.
-/
namespace CpperoMQ
open Effects Effects.Exec

def ZMQ_IO_THREADS : ℤ := 1
def ZMQ_MAX_SOCKETS : ℤ := 2

/-- The libzmq functions that create, configure and terminate contexts. -/
structure ContextApi where
  State : Type
  ctxNew : State → Option ContextHandle × State
  ctxSet : ContextHandle → ℤ → ℤ → State → ℤ × State
  ctxTerm : ContextHandle → State → ℤ × State
  errno : State → ℤ

structure ContextApi.View (A : ContextApi) where
  isOpen : A.State → ContextHandle → Prop

/-- `zmq_ctx_new` gives out a handle that is not open, or `NULL`; `zmq_ctx_set`
frees nothing, whatever it returns; `zmq_ctx_term` succeeds on an open context. -/
structure ContextApi.View.Laws {A : ContextApi} (V : A.View) : Prop where
  fresh : ∀ σ c σ', A.ctxNew σ = (some c, σ') →
    ¬V.isOpen σ c ∧ ∀ g, V.isOpen σ' g ↔ V.isOpen σ g ∨ g = c
  null : ∀ σ σ', A.ctxNew σ = (none, σ') → ∀ g, V.isOpen σ' g ↔ V.isOpen σ g
  set : ∀ c name value σ g, V.isOpen (A.ctxSet c name value σ).2 g ↔ V.isOpen σ g
  term : ∀ c σ, V.isOpen σ c →
    ∃ σ', A.ctxTerm c σ = (0, σ') ∧ ∀ g, V.isOpen σ' g ↔ V.isOpen σ g ∧ g ≠ c

/-- A libzmq call that was made. -/
inductive ContextCall where
  | new (result : Option ContextHandle)
  | set (context : ContextHandle) (name value rc : ℤ)
  | term (context : ContextHandle) (rc : ℤ)
  deriving Repr, DecidableEq

structure Context where
  mContext : Option ContextHandle
  deriving Repr, DecidableEq

structure ContextWorld (A : ContextApi) where
  zmq : A.State
  contexts : ObjectPool Context
  calls : List ContextCall

abbrev ContextAction (A : ContextApi) (α : Type) := Exec (ContextWorld A) Error α

namespace ContextWorld
variable {A : ContextApi}

def initial (σ : A.State) : ContextWorld A := ⟨σ, .empty, []⟩

/-- The state after a libzmq call. -/
def record (w : ContextWorld A) (σ : A.State) (c : ContextCall) : ContextWorld A :=
  { w with zmq := σ, calls := w.calls ++ [c] }

/-- What the object's `mContext` points at, null for an object that is gone. -/
def mContext (w : ContextWorld A) (i : ObjId) : Option ContextHandle :=
  (w.contexts.get i).bind Context.mContext

/-- Write the `mContext` of a live object. -/
def setContext (w : ContextWorld A) (i : ObjId) (m : Option ContextHandle) : ContextWorld A :=
  match w.contexts.get i with
  | some _ => { w with contexts := w.contexts.put i (some ⟨m⟩) }
  | none => w

end ContextWorld

section Calls
variable {A : ContextApi}

/-- `throw Error()`: the exception carries the current `zmq_errno`. -/
def raiseContextError {α : Type} : ContextAction A α := fun w => (.threw ⟨A.errno w.zmq⟩, w)

def zmqCtxNew : ContextAction A (Option ContextHandle) := fun w =>
  match A.ctxNew w.zmq with
  | (result, σ) => (.returned result, w.record σ (.new result))

def zmqCtxSet (context : ContextHandle) (name value : ℤ) : ContextAction A ℤ := fun w =>
  match A.ctxSet context name value w.zmq with
  | (rc, σ) => (.returned rc, w.record σ (.set context name value rc))

def zmqCtxTerm (context : ContextHandle) : ContextAction A ℤ := fun w =>
  match A.ctxTerm context w.zmq with
  | (rc, σ) => (.returned rc, w.record σ (.term context rc))

end Calls

namespace Context
variable {A : ContextApi}

/-- `Context::setContextSetting` -/
def setContextSetting (mContext : ContextHandle) (settingName settingValue : ℤ) :
    ContextAction A Unit := do
  let rc ← zmqCtxSet mContext settingName settingValue
  if rc ≠ 0 then raiseContextError else pure ()

/-- `Context::Context(int, int)`; the value of the new object. -/
def new (ioThreadCount maxSocketCount : ℤ) : ContextAction A Context := do
  let mContext ← zmqCtxNew
  match mContext with
  | none => raiseContextError
  | some context => do
    setContextSetting context ZMQ_IO_THREADS ioThreadCount
    setContextSetting context ZMQ_MAX_SOCKETS maxSocketCount
    pure ⟨some context⟩

/-- `Context::Context(Context&&)` -/
def newMove (other : ObjId) : ContextAction A Context := fun w =>
  (.returned ⟨w.mContext other⟩, w.setContext other none)

/-- `Context::operator=(Context&&)` -/
def assignMove (this other : ObjId) : ContextAction A Unit := fun w =>
  (.returned (), (w.setContext this (w.mContext other)).setContext other (w.mContext this))

/-- `Context::~Context()` -/
def drop (this : ObjId) : ContextAction A Unit := do
  let mContext ← Exec.read fun w => w.mContext this
  match mContext with
  | some context => do
    let result ← zmqCtxTerm context
    Exec.assert (result = 0)
    Exec.modify fun w => w.setContext this none
  | none => pure ()

/-- Storage for a new object. -/
def place (base : Context) : ContextAction A ObjId := fun w =>
  (.returned w.contexts.next, { w with contexts := w.contexts.alloc base })

/-- A constructor and the storage its object is put in. If the constructor
throws there is no object, and no destructor runs. -/
def construct (constructor : ContextAction A Context) : ContextAction A ObjId := do
  let base ← constructor
  place base

/-- The destructor of an object and the end of its storage. -/
def destroy (this : ObjId) : ContextAction A Unit := do
  drop this
  Exec.modify fun w => { w with contexts := w.contexts.put this none }

end Context

/-! ### The ledger of a pool of contexts -/

namespace ContextCall

def creates (c : ContextHandle) : ContextCall → Bool
  | .new result => result = some c
  | _ => false

def terminates (c : ContextHandle) : ContextCall → Bool
  | .term context _ => context = c
  | _ => false

end ContextCall

namespace ContextWorld
variable {A : ContextApi}

/-- How often `zmq_ctx_new` returned the handle. -/
def created (w : ContextWorld A) (c : ContextHandle) : ℕ :=
  w.calls.countP (ContextCall.creates c)

/-- How often `zmq_ctx_term` was called on the handle. -/
def terminated (w : ContextWorld A) (c : ContextHandle) : ℕ :=
  w.calls.countP (ContextCall.terminates c)

def ledger (w : ContextWorld A) : HandleLedger Context.mContext :=
  ⟨w.contexts, w.created, w.terminated⟩

/-- Every handle returned by `zmq_ctx_new` is owned until it is terminated, and
terminating it succeeds. -/
structure NeverLeaked (w : ContextWorld A) : Prop where
  accounted : w.ledger.Accounted
  terminating : ∀ c rc, ContextCall.term c rc ∈ w.calls → rc = 0

/-- `zmq_ctx_new` fails, or both settings are accepted. -/
def Configures (w : ContextWorld A) (ioThreadCount maxSocketCount : ℤ) : Prop :=
  ∀ c σ, A.ctxNew w.zmq = (some c, σ) →
    (A.ctxSet c ZMQ_IO_THREADS ioThreadCount σ).1 = 0 ∧
      (A.ctxSet c ZMQ_MAX_SOCKETS maxSocketCount
        (A.ctxSet c ZMQ_IO_THREADS ioThreadCount σ).2).1 = 0

/-- The ledger is balanced, what was not terminated is open, and every
termination succeeded. -/
structure Sound (V : A.View) (w : ContextWorld A) : Prop where
  balanced : w.ledger.Balanced
  backed : ∀ c, w.ledger.Outstanding c → V.isOpen w.zmq c
  terminating : ∀ c rc, ContextCall.term c rc ∈ w.calls → rc = 0

/-- The call made on destruction of an object that owns this. -/
def termCalls : Option ContextHandle → List ContextCall
  | some c => [.term c 0]
  | none => []

/-- Settings made on a context: name, value and return code. -/
def setCalls (c : ContextHandle) (settings : List (ℤ × ℤ × ℤ)) : List ContextCall :=
  settings.map fun s => .set c s.1 s.2.1 s.2.2

section Steps
variable {V : A.View} {w : ContextWorld A} {i j : ObjId} {o p : Context} {c : ContextHandle}

theorem Sound.neverLeaked (hw : Sound V w) : w.NeverLeaked :=
  ⟨hw.balanced.accounted, hw.terminating⟩

theorem Sound.isOpen (hw : Sound V w) (ho : w.ledger.Owns i c) : V.isOpen w.zmq c :=
  hw.backed c (hw.balanced.outstanding ho)

theorem sound_initial (V : A.View) (σ : A.State) : Sound V (initial σ : ContextWorld A) := by
  constructor
  case balanced => exact HandleLedger.Balanced.empty
  case backed =>
    intro c hout
    cases hout
  case terminating =>
    intro c rc hmem
    cases hmem

theorem mContext_of_get (hi : w.contexts.get i = some o) : w.mContext i = o.mContext := by
  simp [mContext, hi]

theorem setContext_of_get (hi : w.contexts.get i = some o) (m : Option ContextHandle) :
    w.setContext i m = { w with contexts := w.contexts.put i (some ⟨m⟩) } := by
  simp [setContext, hi]

/-! ### Counting calls -/

theorem ledger_refused (w : ContextWorld A) (σ : A.State) :
    (w.record σ (.new none)).ledger = w.ledger := by
  have hcreated : (w.record σ (.new none)).created = w.created := by
    funext g
    simp [created, record, ContextCall.creates]
  have hterminated : (w.record σ (.new none)).terminated = w.terminated := by
    funext g
    simp [terminated, record, ContextCall.terminates]
  rw [ledger, hcreated, hterminated]
  rfl

/-- Settings count for nothing. -/
theorem ledger_created (w : ContextWorld A) (σ : A.State) (q : ObjectPool Context)
    (c : ContextHandle) (settings : List (ℤ × ℤ × ℤ)) :
    (⟨σ, q, w.calls ++ .new (some c) :: setCalls c settings⟩ : ContextWorld A).ledger =
      ⟨q, HandleLedger.bump w.created c, w.terminated⟩ := by
  have hcreated : (⟨σ, q, w.calls ++ .new (some c) :: setCalls c settings⟩ :
      ContextWorld A).created = HandleLedger.bump w.created c := by
    funext g
    simp [created, HandleLedger.bump, setCalls, List.countP_cons, List.countP_map,
      Function.comp_def, ContextCall.creates, eq_comm]
  have hterminated : (⟨σ, q, w.calls ++ .new (some c) :: setCalls c settings⟩ :
      ContextWorld A).terminated = w.terminated := by
    funext g
    simp [terminated, setCalls, List.countP_map, Function.comp_def, ContextCall.terminates]
  rw [ledger, hcreated, hterminated]

theorem ledger_dropped_some (w : ContextWorld A) (i : ObjId) (c : ContextHandle) (σ : A.State) :
    (⟨σ, w.contexts.put i none, w.calls ++ termCalls (some c)⟩ : ContextWorld A).ledger =
      w.ledger.release i c := by
  have hterminated : (⟨σ, w.contexts.put i none, w.calls ++ termCalls (some c)⟩ :
      ContextWorld A).terminated = HandleLedger.bump w.terminated c := by
    funext g
    simp [terminated, HandleLedger.bump, termCalls, ContextCall.terminates, List.countP_cons,
      eq_comm]
  have hcreated : (⟨σ, w.contexts.put i none, w.calls ++ termCalls (some c)⟩ :
      ContextWorld A).created = w.created := by
    funext g
    simp [created, termCalls, ContextCall.creates]
  rw [ledger, hcreated, hterminated]
  rfl

theorem ledger_dropped_none (w : ContextWorld A) (i : ObjId) (σ : A.State) :
    (⟨σ, w.contexts.put i none, w.calls ++ termCalls none⟩ : ContextWorld A).ledger =
      w.ledger.retire i := by
  rw [termCalls, List.append_nil]
  rfl

theorem ledger_dropped (w : ContextWorld A) (i : ObjId) (m : Option ContextHandle)
    (σ : A.State) : (⟨σ, w.contexts.put i none, w.calls ++ termCalls m⟩ :
      ContextWorld A).ledger = w.ledger.discharge i m := by
  cases m with
  | none => exact ledger_dropped_none w i σ
  | some c => exact ledger_dropped_some w i c σ

/-! ### What the special member functions do -/

theorem newMove_apply (hi : w.contexts.get i = some o) :
    Context.construct (Context.newMove i) w = (.returned w.contexts.next,
      { w with contexts := (w.contexts.put i (some ⟨none⟩)).alloc o }) := by
  simp [Context.construct, Context.place, Context.newMove, Exec.bind, setContext_of_get hi,
    mContext_of_get hi]

theorem assignMove_apply (hi : w.contexts.get i = some o) (hj : w.contexts.get j = some p) :
    Context.assignMove i j w = (.returned (),
      ⟨w.zmq, (w.contexts.put i (some ⟨p.mContext⟩)).put j (some ⟨o.mContext⟩), w.calls⟩) := by
  have hget : (w.setContext i p.mContext).contexts.get j =
      some (if j = i then ⟨p.mContext⟩ else p) := by
    rw [setContext_of_get hi]
    change (w.contexts.put i _).get j = _
    rw [ObjectPool.get_put (ObjectPool.lt_next_of_get hi), hj]
    split_ifs with hji <;> rfl
  rw [Context.assignMove, mContext_of_get hi, mContext_of_get hj, setContext_of_get hget,
    setContext_of_get hi]

theorem destroy_apply (hV : V.Laws) (hw : Sound V w) (hi : w.contexts.get i = some o) :
    ∃ σ, Context.destroy i w = (.returned (),
        ⟨σ, w.contexts.put i none, w.calls ++ termCalls o.mContext⟩) ∧
      ∀ g, V.isOpen σ g ↔ V.isOpen w.zmq g ∧ o.mContext ≠ some g := by
  cases hm : o.mContext with
  | none =>
    refine ⟨w.zmq, ?_, fun g => by simp⟩
    simp [Context.destroy, Context.drop, Exec.bind, mContext_of_get hi, hm, termCalls]
  | some c =>
    obtain ⟨σ, hterm, hopen⟩ := hV.term c w.zmq (hw.isOpen ⟨o, hi, hm⟩)
    refine ⟨σ, ?_, fun g => by rw [hopen g, ne_eq, ne_eq, Option.some.injEq, eq_comm]⟩
    have hset : (w.record σ (.term c 0)).setContext i none =
        ⟨σ, w.contexts.put i (some ⟨none⟩), w.calls ++ [.term c 0]⟩ := by
      have hget : (w.record σ (.term c 0)).contexts.get i = some o := hi
      exact setContext_of_get hget none
    simp [Context.destroy, Context.drop, Exec.bind, zmqCtxTerm, hterm, mContext_of_get hi, hm,
      hset, termCalls]

/-- Where `zmq_ctx_new` gives out a handle, the constructor returns with an object
that owns it if both settings are accepted, and throws without one if not. -/
theorem construct_of_some (hV : V.Laws) (io max : ℤ) {σ : A.State}
    (hnew : A.ctxNew w.zmq = (some c, σ)) :
    ∃ σ' settings, (∀ g, V.isOpen σ' g ↔ V.isOpen σ g) ∧
      ((w.Configures io max ∧ Context.construct (Context.new io max) w =
        (.returned w.contexts.next,
          ⟨σ', w.contexts.alloc ⟨some c⟩, w.calls ++ .new (some c) :: setCalls c settings⟩)) ∨
      (¬w.Configures io max ∧ ∃ e, Context.construct (Context.new io max) w =
        (.threw e, ⟨σ', w.contexts, w.calls ++ .new (some c) :: setCalls c settings⟩))) := by
  rcases hio : A.ctxSet c ZMQ_IO_THREADS io σ with ⟨rc, σ₁⟩
  have hopen₁ : ∀ g, V.isOpen σ₁ g ↔ V.isOpen σ g := by
    have hset := hV.set c ZMQ_IO_THREADS io σ
    rwa [hio] at hset
  by_cases hrc : rc = 0
  · rcases hmax : A.ctxSet c ZMQ_MAX_SOCKETS max σ₁ with ⟨rc', σ₂⟩
    have hopen₂ : ∀ g, V.isOpen σ₂ g ↔ V.isOpen σ g := by
      have hset := hV.set c ZMQ_MAX_SOCKETS max σ₁
      rw [hmax] at hset
      exact fun g => (hset g).trans (hopen₁ g)
    refine ⟨σ₂, [(ZMQ_IO_THREADS, io, rc), (ZMQ_MAX_SOCKETS, max, rc')], hopen₂, ?_⟩
    by_cases hrc' : rc' = 0
    · refine .inl ⟨?_, ?_⟩
      · intro c' σ' hnew'
        cases hnew.symm.trans hnew'
        rw [hio, hmax]
        exact ⟨hrc, hrc'⟩
      · simp [Context.construct, Context.place, Context.new, Context.setContextSetting,
          Exec.bind, zmqCtxNew, zmqCtxSet, record, setCalls, hnew, hio, hmax, hrc, hrc']
    · refine .inr ⟨fun hconf => ?_, ⟨A.errno σ₂⟩, ?_⟩
      · have hboth := hconf c σ hnew
        rw [hio, hmax] at hboth
        exact hrc' hboth.2
      · simp [Context.construct, Context.new, Context.setContextSetting, raiseContextError,
          Exec.bind, zmqCtxNew, zmqCtxSet, record, setCalls, hnew, hio, hmax, hrc, hrc']
  · refine ⟨σ₁, [(ZMQ_IO_THREADS, io, rc)], hopen₁, .inr ⟨fun hconf => ?_, ⟨A.errno σ₁⟩, ?_⟩⟩
    · have hboth := hconf c σ hnew
      rw [hio] at hboth
      exact hrc hboth.1
    · simp [Context.construct, Context.new, Context.setContextSetting, raiseContextError,
        Exec.bind, zmqCtxNew, zmqCtxSet, record, setCalls, hnew, hio, hrc]

/-! ### Which of them keep the ledger balanced -/

theorem Sound.refused (hV : V.Laws) (hw : Sound V w) {σ : A.State}
    (hnew : A.ctxNew w.zmq = (none, σ)) : Sound V (w.record σ (.new none)) := by
  constructor
  case balanced =>
    rw [ledger_refused]
    exact hw.balanced
  case backed =>
    rw [ledger_refused]
    exact HandleLedger.Backed.congr hw.backed (hV.null w.zmq σ hnew)
  case terminating =>
    intro c rc hmem
    apply hw.terminating c rc
    simpa [record] using hmem

theorem Sound.constructed (hV : V.Laws) (hw : Sound V w) {σ σ' : A.State}
    (hnew : A.ctxNew w.zmq = (some c, σ)) (hopen : ∀ g, V.isOpen σ' g ↔ V.isOpen σ g)
    (settings : List (ℤ × ℤ × ℤ)) :
    Sound V ⟨σ', w.contexts.alloc ⟨some c⟩, w.calls ++ .new (some c) :: setCalls c settings⟩ := by
  obtain ⟨hfresh, hadds⟩ := hV.fresh w.zmq c σ hnew
  constructor
  case balanced =>
    rw [ledger_created]
    exact hw.balanced.acquire (fun hout => hfresh (hw.backed c hout)) rfl
  case backed =>
    rw [ledger_created]
    have hacquired : (w.ledger.acquire ⟨some c⟩ c).Backed (V.isOpen σ) :=
      HandleLedger.Backed.acquire hw.backed hadds
    exact hacquired.congr hopen
  case terminating =>
    intro g rc hmem
    apply hw.terminating g rc
    simpa [setCalls] using hmem

/-- A constructor that throws after `zmq_ctx_new` leaves a handle nobody owns. -/
theorem Sound.leaked (hV : V.Laws) (hw : Sound V w) {σ σ' : A.State}
    (hnew : A.ctxNew w.zmq = (some c, σ)) (settings : List (ℤ × ℤ × ℤ)) :
    ¬(⟨σ', w.contexts, w.calls ++ .new (some c) :: setCalls c settings⟩ :
      ContextWorld A).NeverLeaked := by
  intro hnever
  have hacc := hnever.accounted
  rw [ledger_created] at hacc
  have hfresh := (hV.fresh w.zmq c σ hnew).1
  exact hw.balanced.not_accounted_of_lose (fun hout => hfresh (hw.backed c hout)) hacc

theorem Sound.moved (hw : Sound V w) (hi : w.contexts.get i = some o) :
    Sound V (Context.construct (Context.newMove i) w).2 := by
  rw [newMove_apply hi]
  have hbalanced : (w.ledger.transfer i ⟨none⟩ o).Balanced := hw.balanced.transfer hi rfl rfl
  exact ⟨hbalanced, hw.backed, hw.terminating⟩

theorem Sound.assigned (hw : Sound V w) (hi : w.contexts.get i = some o)
    (hj : w.contexts.get j = some p) : Sound V (Context.assignMove i j w).2 := by
  rw [assignMove_apply hi hj]
  exact ⟨hw.balanced.exchange hi hj rfl rfl, hw.backed, hw.terminating⟩

theorem Sound.destroyed (hV : V.Laws) (hw : Sound V w) (hi : w.contexts.get i = some o) :
    Sound V (Context.destroy i w).2 := by
  obtain ⟨σ, hdestroy, hopen⟩ := destroy_apply hV hw hi
  rw [hdestroy]
  constructor
  case balanced =>
    rw [ledger_dropped]
    exact hw.balanced.discharge hi
  case backed =>
    rw [ledger_dropped]
    exact HandleLedger.Backed.discharge hw.balanced hw.backed hopen
  case terminating =>
    intro g rc hmem
    rcases List.mem_append.mp hmem with hmem | hmem
    · exact hw.terminating g rc hmem
    · cases hm : o.mContext with
      | none => simp [hm, termCalls] at hmem
      | some c =>
        simp only [hm, termCalls, List.mem_singleton, ContextCall.term.injEq] at hmem
        exact hmem.2

end Steps
end ContextWorld

/-! ### Runs -/

inductive ContextOp where
  | construct (ioThreadCount maxSocketCount : ℤ)
  | newMove (other : ObjId)
  | assignMove (this other : ObjId)
  | destroy (this : ObjId)
  deriving Repr, DecidableEq

namespace ContextOp
variable {A : ContextApi}

def perform (w : ContextWorld A) : ContextOp → Outcome Error Unit × ContextWorld A
  | .construct ioThreadCount maxSocketCount =>
    Exec.discard (Context.construct (Context.new ioThreadCount maxSocketCount)) w
  | .newMove other => Exec.discard (Context.construct (Context.newMove other)) w
  | .assignMove this other => Context.assignMove this other w
  | .destroy this => Context.destroy this w

/-- The objects named are alive. -/
def Allowed (w : ContextWorld A) : ContextOp → Prop
  | .construct _ _ => True
  | .newMove other => (w.contexts.get other).isSome = true
  | .assignMove this other =>
    (w.contexts.get this).isSome = true ∧ (w.contexts.get other).isSome = true
  | .destroy this => (w.contexts.get this).isSome = true

/-- No constructor throws after `zmq_ctx_new` gave out a handle. -/
def Configures (w : ContextWorld A) : ContextOp → Prop
  | .construct ioThreadCount maxSocketCount => w.Configures ioThreadCount maxSocketCount
  | _ => True

end ContextOp

def contextMachine (A : ContextApi) : Machine (ContextWorld A) ContextOp where
  step w op := (op.perform w).2
  Allowed w op := op.Allowed w

namespace ContextWorld
variable {A : ContextApi} {V : A.View} {w : ContextWorld A}

theorem sound_step (hV : V.Laws) (hw : Sound V w) {op : ContextOp} (hop : op.Allowed w)
    (hconf : op.Configures w) : Sound V (op.perform w).2 := by
  cases op with
  | construct io max =>
    rcases hnew : A.ctxNew w.zmq with ⟨_ | c, σ⟩
    · have hx : Context.construct (Context.new io max) w =
          (.threw ⟨A.errno σ⟩, w.record σ (.new none)) := by
        simp [Context.construct, Context.new, raiseContextError, Exec.bind, zmqCtxNew, record,
          hnew]
      rw [ContextOp.perform, discard_of_threw hx]
      exact hw.refused hV hnew
    · obtain ⟨σ', settings, hopen, ⟨_, hx⟩ | ⟨hfails, _⟩⟩ := construct_of_some hV io max hnew
      · rw [ContextOp.perform, discard_of_returned hx]
        exact hw.constructed hV hnew hopen settings
      · exact absurd hconf hfails
  | newMove other =>
    obtain ⟨o, ho⟩ := Option.isSome_iff_exists.mp hop
    have hmoved := hw.moved ho
    rw [newMove_apply ho] at hmoved
    rw [ContextOp.perform, discard_of_returned (newMove_apply ho)]
    exact hmoved
  | assignMove this other =>
    obtain ⟨o, ho⟩ := Option.isSome_iff_exists.mp hop.1
    obtain ⟨p, hp⟩ := Option.isSome_iff_exists.mp hop.2
    exact hw.assigned ho hp
  | destroy this =>
    obtain ⟨o, ho⟩ := Option.isSome_iff_exists.mp hop
    exact hw.destroyed hV ho

theorem leaked_step (hV : V.Laws) (hw : Sound V w) {op : ContextOp}
    (hfails : ¬op.Configures w) : ¬(op.perform w).2.NeverLeaked := by
  cases op with
  | construct io max =>
    rcases hnew : A.ctxNew w.zmq with ⟨_ | c, σ⟩
    · refine absurd (fun c σ' hnew' => ?_) hfails
      cases hnew.symm.trans hnew'
    · obtain ⟨σ', settings, _, ⟨hconf, _⟩ | ⟨_, e, hx⟩⟩ := construct_of_some hV io max hnew
      · exact absurd hconf hfails
      · rw [ContextOp.perform, discard_of_threw hx]
        exact hw.leaked hV hnew settings
  | newMove other => exact absurd trivial hfails
  | assignMove this other => exact absurd trivial hfails
  | destroy this => exact absurd trivial hfails

/-- All along a run every handle returned by `zmq_ctx_new` is owned by exactly one
`Context` until it is terminated, once, if and only if in no construction of the
run `zmq_ctx_new` succeeds and a `zmq_ctx_set` then fails. -/
theorem contexts_never_leaked_iff (hV : V.Laws) (σ : A.State) {ops : List ContextOp}
    (hops : (contextMachine A).Admissible (initial σ) ops) :
    (∀ pre, pre <+: ops → ((contextMachine A).run (initial σ) pre).NeverLeaked) ↔
      ((contextMachine A).restrict fun w op => op.Configures w).Admissible (initial σ) ops := by
  apply Machine.always_iff_restrict (I := Sound V) ?_ ?_ ?_ (sound_initial V σ) hops
  · exact fun w hw => hw.neverLeaked
  · exact fun w op hw hop hconf => sound_step hV hw hop hconf
  · exact fun w op hw _ hfails => leaked_step hV hw hfails

end ContextWorld

/-! ### A table of open contexts -/

namespace ContextTable
open HandleLedger (unused)

/-- The open handles, and how many there may be. -/
structure State where
  opened : List ContextHandle
  limit : ℕ
  deriving Repr, DecidableEq

/-- A negative number of threads and less than one socket are refused. -/
def accepts (name value : ℤ) : Bool :=
  (name = ZMQ_IO_THREADS ∧ 0 ≤ value) ∨ (name = ZMQ_MAX_SOCKETS ∧ 1 ≤ value)

def api : ContextApi where
  State := State
  ctxNew σ :=
    if σ.limit ≤ σ.opened.length then (none, σ)
    else (some (unused σ.opened), { σ with opened := unused σ.opened :: σ.opened })
  ctxSet c name value σ := if c ∈ σ.opened ∧ accepts name value then (0, σ) else (-1, σ)
  ctxTerm c σ :=
    if c ∈ σ.opened then (0, { σ with opened := σ.opened.filter (· ≠ c) }) else (-1, σ)
  errno σ := if σ.limit ≤ σ.opened.length then 12 else 22

def view : api.View := ⟨fun σ c => c ∈ σ.opened⟩

theorem laws : view.Laws := by
  constructor
  case fresh =>
    intro σ c σ' hnew
    simp only [api] at hnew
    split_ifs at hnew
    · cases congrArg Prod.fst hnew
    · obtain rfl : unused σ.opened = c := Option.some.inj (congrArg Prod.fst hnew)
      obtain rfl : { σ with opened := unused σ.opened :: σ.opened } = σ' :=
        congrArg Prod.snd hnew
      constructor
      · intro (hmem : unused σ.opened ∈ σ.opened)
        exact HandleLedger.unused_not_mem σ.opened hmem
      · intro g
        simp [view, or_comm]
  case null =>
    intro σ σ' hnew g
    simp only [api] at hnew
    split_ifs at hnew
    · cases hnew
      rfl
    · cases congrArg Prod.fst hnew
  case set =>
    intro c name value σ g
    simp only [api]
    split_ifs <;> rfl
  case term =>
    intro c σ hopen
    refine ⟨_, if_pos hopen, fun g => ?_⟩
    simp [view]

/-- With values in range no constructor throws after `zmq_ctx_new`. -/
theorem configures (w : ContextWorld api) {io max : ℤ} (hio : 0 ≤ io) (hmax : 1 ≤ max) :
    w.Configures io max := by
  intro c σ hnew
  simp only [api] at hnew
  split_ifs at hnew
  · cases congrArg Prod.fst hnew
  · cases hnew
    simp [api, accepts, hio, hmax]

def tour : List ContextOp :=
  [.construct 1 1023, .construct 0 1, .construct 1 1023, .newMove 0, .assignMove 2 2,
    .assignMove 0 1, .destroy 1, .destroy 0, .destroy 2]

/-- A run from no open context, of which there may be two. -/
def after (ops : List ContextOp) : ContextWorld api :=
  (contextMachine api).run (.initial ⟨[], 2⟩) ops

end ContextTable

/-- The constructor refuses `-1` threads and throws; no object is alive, and the
handle it got is open. -/
theorem ContextWorld.context_leaked :
    (ContextTable.after [.construct (-1) 1023]).contexts = .empty ∧
      (ContextTable.after [.construct (-1) 1023]).created 1 = 1 ∧
      (ContextTable.after [.construct (-1) 1023]).terminated 1 = 0 ∧
      ¬(ContextTable.after [.construct (-1) 1023]).NeverLeaked := by
  have hempty : (ContextTable.after [.construct (-1) 1023]).contexts = .empty := by
    decide +kernel
  have hcreated : (ContextTable.after [.construct (-1) 1023]).created 1 = 1 := by
    decide +kernel
  have hterminated : (ContextTable.after [.construct (-1) 1023]).terminated 1 = 0 := by
    decide +kernel
  refine ⟨hempty, hcreated, hterminated, fun hnever => ?_⟩
  have hended := hnever.accounted.ended (fun i => by
    change (ContextTable.after [.construct (-1) 1023]).contexts.get i = none
    rw [hempty]
    rfl) 1
  change ContextWorld.terminated _ 1 = ContextWorld.created _ 1 at hended
  omega

theorem ContextWorld.contexts_never_leaked_iff_tour :
    (ContextTable.after ContextTable.tour).NeverLeaked := by
  have hops : (contextMachine ContextTable.api).Admissible (.initial ⟨[], 2⟩)
      ContextTable.tour :=
    ⟨trivial, trivial, trivial, rfl, ⟨rfl, rfl⟩, ⟨rfl, rfl⟩, rfl, rfl, rfl, trivial⟩
  have hiff := ContextWorld.contexts_never_leaked_iff ContextTable.laws ⟨[], 2⟩ hops
  apply hiff.mpr ?_ ContextTable.tour (List.prefix_refl _)
  exact ⟨⟨trivial, ContextTable.configures _ (by decide) (by decide)⟩,
    ⟨trivial, ContextTable.configures _ (by decide) (by decide)⟩,
    ⟨trivial, ContextTable.configures _ (by decide) (by decide)⟩, ⟨rfl, trivial⟩,
    ⟨⟨rfl, rfl⟩, trivial⟩, ⟨⟨rfl, rfl⟩, trivial⟩, ⟨rfl, trivial⟩, ⟨rfl, trivial⟩,
    ⟨rfl, trivial⟩, trivial⟩

end CpperoMQ
