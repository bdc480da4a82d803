import CpperoMQ.HandleLedger
import CpperoMQ.Runs
import CpperoMQ.SocketObjects

/-!
# Ownership of socket handles

Socket objects of any type are created, moved, assigned and destroyed in any
order. Counting, for each handle, how often `zmq_socket` returned it and how
often `zmq_close` was called on it makes the pool a handle ledger; each
operation of the code is an operation on that ledger, so that the ledger is
balanced all along.
-/
namespace CpperoMQ
open Effects Effects.Exec

/-! ### The ledger of a pool of sockets -/

namespace SocketCall

def opens (h : Handle) : SocketCall → Bool
  | .socket _ result => result = some h
  | .close _ _ => false

def closes (h : Handle) : SocketCall → Bool
  | .socket _ _ => false
  | .close handle _ => handle = h

end SocketCall

namespace SocketWorld
variable {A : SocketApi}

/-- How often `zmq_socket` returned the handle. -/
def opened (w : SocketWorld A) (h : Handle) : ℕ := w.calls.countP (SocketCall.opens h)

/-- How often `zmq_close` was called on the handle. -/
def closed (w : SocketWorld A) (h : Handle) : ℕ := w.calls.countP (SocketCall.closes h)

def ledger (w : SocketWorld A) : HandleLedger fun o : SocketObject => o.mSocket :=
  ⟨w.sockets, w.opened, w.closed⟩

/-- The call made on destruction of an object that owns this. -/
def closeCalls : Option Handle → List SocketCall
  | some h => [.close h 0]
  | none => []

/-- The ledger is balanced, and what was not closed is open. -/
structure Sound (V : A.View) (w : SocketWorld A) : Prop where
  balanced : w.ledger.Balanced
  backed : ∀ h, w.ledger.Outstanding h → V.isOpen w.zmq h
  closing : ∀ h rc, SocketCall.close h rc ∈ w.calls → rc = 0

section Steps
variable {V : A.View} {w w' : SocketWorld A} {i j : ObjId} {o p : SocketObject} {h : Handle}

theorem mSocket_of_get (hi : w.sockets.get i = some o) : w.mSocket i = o.mSocket := by
  simp [mSocket, hi]

theorem setSocket_of_get (hi : w.sockets.get i = some o) (m : Option Handle) :
    w.setSocket i m = { w with sockets := w.sockets.put i (some ⟨⟨m⟩, o.type⟩) } := by
  simp [setSocket, hi]

theorem sound_initial (V : A.View) (σ : A.State) : Sound V (initial σ : SocketWorld A) := by
  constructor
  case balanced => exact HandleLedger.Balanced.empty
  case backed =>
    intro h hout
    cases hout
  case closing =>
    intro h rc hmem
    cases hmem

theorem Sound.isOpen (hw : Sound V w) (ho : w.ledger.Owns i h) : V.isOpen w.zmq h :=
  hw.backed h (hw.balanced.outstanding ho)

theorem opened_socket (w : SocketWorld A) (type : ℤ) (h : Handle) :
    (fun g => (w.calls ++ [SocketCall.socket type (some h)]).countP (SocketCall.opens g)) =
      HandleLedger.bump w.opened h := by
  funext g
  simp [HandleLedger.bump, opened, SocketCall.opens, List.countP_append, List.countP_cons,
    eq_comm]

theorem closed_close (w : SocketWorld A) (h : Handle) (rc : ℤ) :
    (fun g => (w.calls ++ [SocketCall.close h rc]).countP (SocketCall.closes g)) =
      HandleLedger.bump w.closed h := by
  funext g
  simp [HandleLedger.bump, closed, SocketCall.closes, List.countP_append, List.countP_cons,
    eq_comm]

/-! ### What the special member functions do -/

/-- A new object that owns the handle just opened. -/
def opening (w : SocketWorld A) (type : SocketType) (h : Handle) (σ : A.State) :
    SocketWorld A :=
  ⟨σ, w.sockets.alloc ⟨⟨some h⟩, type⟩, w.calls ++ [.socket type.typeId (some h)]⟩

/-- A new object took over what `other` owned. -/
def moved (w : SocketWorld A) (other : ObjId) (o : SocketObject) : SocketWorld A :=
  { w with sockets := (w.sockets.put other (some ⟨⟨none⟩, o.type⟩)).alloc o }

/-- The object is gone, and its handle with it. -/
def dropped (w : SocketWorld A) (this : ObjId) (m : Option Handle) (σ : A.State) :
    SocketWorld A := ⟨σ, w.sockets.put this none, w.calls ++ closeCalls m⟩

theorem construct_new (w : SocketWorld A) (type : SocketType) (c : ContextHandle) :
    (∃ σ, A.socket (some c) type.typeId w.zmq = (none, σ) ∧
      SocketObject.construct type (type.members.new (some c)) w =
        (.threw ⟨A.errno σ⟩, w.record σ (.socket type.typeId none))) ∨
    ∃ h σ, A.socket (some c) type.typeId w.zmq = (some h, σ) ∧
      SocketObject.construct type (type.members.new (some c)) w =
        (.returned w.sockets.next, w.opening type h σ) := by
  rcases hr : A.socket (some c) type.typeId w.zmq with ⟨_ | h, σ⟩
  · refine .inl ⟨σ, rfl, ?_⟩
    simp [SocketObject.construct, Socket.new, Exec.bind, zmqSocket, hr, record, raiseSocketError]
  · refine .inr ⟨h, σ, rfl, ?_⟩
    simp [SocketObject.construct, Socket.new, Exec.bind, zmqSocket, hr, record,
      SocketObject.place, opening]

theorem construct_null (w : SocketWorld A) (type : SocketType) :
    SocketObject.construct type (type.members.new none) w = (.aborted, w) := by
  simp [SocketObject.construct, Socket.new, Exec.bind]

theorem newMove_apply (hi : w.sockets.get i = some o) :
    SocketObject.newMove o.type i w = (.returned w.sockets.next, w.moved i o) := by
  simp [SocketObject.newMove, SocketObject.construct, SocketObject.place, Socket.newMove,
    Exec.bind, setSocket_of_get hi, mSocket_of_get hi, moved]

theorem assignMove_apply (hi : w.sockets.get i = some o) (hj : w.sockets.get j = some p) :
    Socket.assignMove i j w = (.returned (), { w with sockets :=
      (w.sockets.put i (some ⟨⟨p.mSocket⟩, o.type⟩)).put j (some ⟨⟨o.mSocket⟩, p.type⟩) }) := by
  have hget : (w.setSocket i p.mSocket).sockets.get j =
      some (if j = i then ⟨⟨p.mSocket⟩, o.type⟩ else p) := by
    rw [setSocket_of_get hi]
    change (w.sockets.put i _).get j = _
    rw [ObjectPool.get_put (ObjectPool.lt_next_of_get hi), hj]
    split_ifs with hji <;> rfl
  have htype : (if j = i then (⟨⟨p.mSocket⟩, o.type⟩ : SocketObject) else p).type = p.type := by
    split_ifs with hji
    · rw [hji, hi] at hj
      cases hj
      rfl
    · rfl
  rw [Socket.assignMove, mSocket_of_get hi, mSocket_of_get hj, setSocket_of_get hget, htype,
    setSocket_of_get hi]

theorem destroy_apply (hV : V.Laws) (hw : Sound V w) (hi : w.sockets.get i = some o) :
    ∃ σ, SocketObject.destroy o.type i w = (.returned (), w.dropped i o.mSocket σ) ∧
      ∀ g, V.isOpen σ g ↔ V.isOpen w.zmq g ∧ o.mSocket ≠ some g := by
  cases hm : o.mSocket with
  | none =>
    refine ⟨w.zmq, ?_, fun g => by simp⟩
    simp [SocketObject.destroy, Socket.drop, Exec.bind, mSocket_of_get hi, hm, dropped,
      closeCalls]
  | some h =>
    obtain ⟨σ, hclose, hopen⟩ := hV.close h w.zmq (hw.isOpen ⟨o, hi, hm⟩)
    refine ⟨σ, ?_, fun g => by rw [hopen g, ne_eq, ne_eq, Option.some.injEq, eq_comm]⟩
    have hset : (w.record σ (.close h 0)).setSocket i none =
        ⟨σ, w.sockets.put i (some ⟨⟨none⟩, o.type⟩), w.calls ++ [.close h 0]⟩ := by
      have hget : (w.record σ (.close h 0)).sockets.get i = some o := hi
      exact setSocket_of_get hget none
    simp [SocketObject.destroy, Socket.drop, Exec.bind, zmqClose, hclose, mSocket_of_get hi, hm,
      hset, dropped, closeCalls]

/-! ### Every one of them keeps the ledger balanced -/

theorem ledger_refused (w : SocketWorld A) (type : ℤ) (σ : A.State) :
    (w.record σ (.socket type none)).ledger = w.ledger := by
  have hopened : (w.record σ (.socket type none)).opened = w.opened := by
    funext h
    simp [opened, record, SocketCall.opens]
  have hclosed : (w.record σ (.socket type none)).closed = w.closed := by
    funext h
    simp [closed, record, SocketCall.closes]
  rw [ledger, hopened, hclosed]
  rfl

theorem ledger_opening (w : SocketWorld A) (type : SocketType) (h : Handle) (σ : A.State) :
    (w.opening type h σ).ledger = w.ledger.acquire ⟨⟨some h⟩, type⟩ h := by
  have hopened : (w.opening type h σ).opened = HandleLedger.bump w.opened h :=
    opened_socket w type.typeId h
  have hclosed : (w.opening type h σ).closed = w.closed := by
    funext g
    simp [closed, opening, SocketCall.closes]
  rw [ledger, hopened, hclosed]
  rfl

theorem ledger_dropped_some (w : SocketWorld A) (i : ObjId) (h : Handle) (σ : A.State) :
    (w.dropped i (some h) σ).ledger = w.ledger.release i h := by
  have hclosed : (w.dropped i (some h) σ).closed = HandleLedger.bump w.closed h :=
    closed_close w h 0
  have hopened : (w.dropped i (some h) σ).opened = w.opened := by
    funext g
    simp [opened, dropped, closeCalls, SocketCall.opens]
  rw [ledger, hopened, hclosed]
  rfl

theorem ledger_dropped_none (w : SocketWorld A) (i : ObjId) (σ : A.State) :
    (w.dropped i none σ).ledger = w.ledger.retire i := by
  have hopened : (w.dropped i none σ).opened = w.opened := by
    funext g
    simp [opened, dropped, closeCalls]
  have hclosed : (w.dropped i none σ).closed = w.closed := by
    funext g
    simp [closed, dropped, closeCalls]
  rw [ledger, hopened, hclosed]
  rfl

theorem ledger_dropped (w : SocketWorld A) (i : ObjId) (m : Option Handle) (σ : A.State) :
    (w.dropped i m σ).ledger = w.ledger.discharge i m := by
  cases m with
  | none => exact ledger_dropped_none w i σ
  | some h => exact ledger_dropped_some w i h σ

/-- A handle that is not open is not outstanding. -/
theorem Sound.not_outstanding (hw : Sound V w) (hopen : ¬V.isOpen w.zmq h) :
    ¬w.ledger.Outstanding h := fun hout => hopen (hw.backed h hout)

theorem Sound.refused (hV : V.Laws) (hw : Sound V w) {context : Option ContextHandle}
    {type : ℤ} {σ : A.State} (hr : A.socket context type w.zmq = (none, σ)) :
    Sound V (w.record σ (.socket type none)) := by
  constructor
  case balanced =>
    rw [ledger_refused]
    exact hw.balanced
  case backed =>
    rw [ledger_refused]
    exact HandleLedger.Backed.congr hw.backed (hV.null context type w.zmq σ hr)
  case closing =>
    intro h rc hmem
    apply hw.closing h rc
    simpa [record] using hmem

theorem Sound.opening (hV : V.Laws) (hw : Sound V w) {context : Option ContextHandle}
    {type : SocketType} {σ : A.State}
    (hr : A.socket context type.typeId w.zmq = (some h, σ)) : Sound V (w.opening type h σ) := by
  obtain ⟨hfresh, hopen⟩ := hV.fresh context type.typeId w.zmq h σ hr
  constructor
  case balanced =>
    rw [ledger_opening]
    exact hw.balanced.acquire (hw.not_outstanding hfresh) rfl
  case backed =>
    rw [ledger_opening]
    exact HandleLedger.Backed.acquire hw.backed hopen
  case closing =>
    intro g rc hmem
    apply hw.closing g rc
    simpa [SocketWorld.opening] using hmem

theorem Sound.moved (hw : Sound V w) (hi : w.sockets.get i = some o) :
    Sound V (w.moved i o) := by
  have hbalanced : (w.ledger.transfer i ⟨⟨none⟩, o.type⟩ o).Balanced :=
    hw.balanced.transfer hi rfl rfl
  exact ⟨hbalanced, hw.backed, hw.closing⟩

theorem Sound.assigned (hw : Sound V w) (hi : w.sockets.get i = some o)
    (hj : w.sockets.get j = some p) : Sound V (Socket.assignMove i j w).2 := by
  rw [assignMove_apply hi hj]
  exact ⟨hw.balanced.exchange hi hj rfl rfl, hw.backed, hw.closing⟩

theorem Sound.dropped (hw : Sound V w) (hi : w.sockets.get i = some o) {σ : A.State}
    (hopen : ∀ g, V.isOpen σ g ↔ V.isOpen w.zmq g ∧ o.mSocket ≠ some g) :
    Sound V (w.dropped i o.mSocket σ) := by
  constructor
  case balanced =>
    rw [ledger_dropped]
    exact hw.balanced.discharge hi
  case backed =>
    rw [ledger_dropped]
    exact HandleLedger.Backed.discharge hw.balanced hw.backed hopen
  case closing =>
    intro g rc hmem
    rcases List.mem_append.mp hmem with hmem | hmem
    · exact hw.closing g rc hmem
    · cases hm : o.mSocket with
      | none => simp [hm, closeCalls] at hmem
      | some h =>
        simp only [hm, closeCalls, List.mem_singleton, SocketCall.close.injEq] at hmem
        exact hmem.2

/-! ### Creation from a context -/

/-- Whether or not the local object of the function is elided, one socket is
opened and one new object owns it, or `zmq_socket` failed and there is none. -/
theorem createSocket_cases (hV : V.Laws) (hw : Sound V w) (type : SocketType)
    (c : ContextHandle) (elided : Bool) :
    (∃ σ, A.socket (some c) type.typeId w.zmq = (none, σ) ∧
      Context.createSocket type (some c) elided w =
        (.threw ⟨A.errno σ⟩, w.record σ (.socket type.typeId none))) ∨
    ∃ h σ i w', A.socket (some c) type.typeId w.zmq = (some h, σ) ∧
      Context.createSocket type (some c) elided w = (.returned i, w') ∧
      Sound V w' ∧ w'.mSocket i = some h ∧
      w'.calls = w.calls ++ [.socket type.typeId (some h)] := by
  obtain ⟨σ, hr, hx⟩ | ⟨h, σ, hr, hx⟩ := construct_new w type c
  · refine .inl ⟨σ, hr, ?_⟩
    cases elided with
    | true => exact hx
    | false => exact withLocal_of_threw hx _ _
  · have hopened : Sound V (w.opening type h σ) := Sound.opening hV hw hr
    have hlocal : (w.opening type h σ).sockets.get w.sockets.next = some ⟨⟨some h⟩, type⟩ :=
      ObjectPool.get_alloc_self w.sockets _
    cases elided with
    | true => exact .inr ⟨h, σ, _, _, hr, hx, hopened, mSocket_of_get hlocal, rfl⟩
    | false =>
      -- the caller's object is built from the local, which is destroyed empty
      have hmove := newMove_apply hlocal
      have hmoved := hopened.moved hlocal
      generalize hw₁ : w.opening type h σ = w₁ at hx hmove hmoved hlocal
      have hlt := ObjectPool.lt_next_of_get hlocal
      have hempty : (w₁.moved w.sockets.next ⟨⟨some h⟩, type⟩).sockets.get w.sockets.next =
          some ⟨⟨none⟩, type⟩ := by
        change ((w₁.sockets.put _ _).alloc _).get _ = _
        rw [ObjectPool.get_alloc_of_ne _ _ (by simpa using Nat.ne_of_lt hlt),
          ObjectPool.get_put_self hlt]
      obtain ⟨σ', hdestroy, hopen⟩ := destroy_apply hV hmoved hempty
      refine .inr ⟨h, σ, w₁.sockets.next, _, hr,
        withLocal_of_leave hx hmove (by simp) hdestroy, hmoved.dropped hempty hopen, ?_, ?_⟩
      · apply mSocket_of_get (o := ⟨⟨some h⟩, type⟩)
        change (((w₁.sockets.put _ _).alloc _).put _ none).get _ = _
        rw [ObjectPool.get_put_of_ne _ (Nat.ne_of_gt hlt)]
        simpa using ObjectPool.get_alloc_self (w₁.sockets.put w.sockets.next _) _
      · rw [← hw₁]
        exact List.append_nil _

end Steps
end SocketWorld

/-! ### Runs -/

inductive SocketOp where
  | create (type : SocketType) (context : Option ContextHandle) (elided : Bool)
  | newMove (other : ObjId)
  | assignMove (this other : ObjId)
  | destroy (this : ObjId)
  deriving Repr, DecidableEq

namespace SocketOp
variable {A : SocketApi}

def perform (w : SocketWorld A) : SocketOp → Outcome Error Unit × SocketWorld A
  | .create type context elided => Exec.discard (Context.createSocket type context elided) w
  | .newMove other =>
    match w.typeOf other with
    | some type => Exec.discard (SocketObject.newMove type other) w
    | none => (.returned (), w)
  | .assignMove this other =>
    match w.typeOf this with
    | some type => type.members.assignMove this other w
    | none => (.returned (), w)
  | .destroy this =>
    match w.typeOf this with
    | some type => SocketObject.destroy type this w
    | none => (.returned (), w)

/-- The objects named are alive, and assignment is between objects of one type. -/
def Allowed (w : SocketWorld A) : SocketOp → Prop
  | .create _ _ _ => True
  | .newMove other => (w.typeOf other).isSome = true
  | .assignMove this other =>
    (w.typeOf this).isSome = true ∧ w.typeOf other = w.typeOf this
  | .destroy this => (w.typeOf this).isSome = true

/-- The handle owned by the object that the operation destroys. -/
def releases (w : SocketWorld A) : SocketOp → Option Handle
  | .destroy this => w.mSocket this
  | _ => none

end SocketOp

def socketMachine (A : SocketApi) : Machine (SocketWorld A) SocketOp where
  step w op := (op.perform w).2
  Allowed w op := op.Allowed w

namespace SocketWorld
variable {A : SocketApi} {V : A.View} {w : SocketWorld A}

/-- What one operation does. -/
structure StepSpec (V : A.View) (w : SocketWorld A) (op : SocketOp) : Prop where
  sound : Sound V (op.perform w).2
  closes : ∀ h, (op.perform w).2.closed h =
    w.closed h + if op.releases w = some h then 1 else 0
  threw : ∀ e, (op.perform w).1 = .threw e → (op.perform w).2.sockets = w.sockets ∧
    ∀ h, (op.perform w).2.opened h = w.opened h ∧
      (V.isOpen (op.perform w).2.zmq h ↔ V.isOpen w.zmq h)
  aborts : (op.perform w).1 = .aborted ↔ ∃ type elided, op = .create type none elided

theorem get_of_typeOf {i : ObjId} (h : (w.typeOf i).isSome = true) :
    ∃ o, w.sockets.get i = some o ∧ w.typeOf i = some o.type := by
  obtain ⟨type, htype⟩ := Option.isSome_iff_exists.mp h
  obtain ⟨o, ho, rfl⟩ := Option.map_eq_some_iff.mp htype
  exact ⟨o, ho, htype⟩

/-- An operation that returns and makes no call but the one it may. -/
theorem StepSpec.of_returned {op : SocketOp} {w' : SocketWorld A}
    (hx : op.perform w = (.returned (), w')) (hw' : Sound V w')
    (hcloses : ∀ h, w'.closed h = w.closed h + if op.releases w = some h then 1 else 0)
    (hop : ∀ type elided, op ≠ .create type none elided) : StepSpec V w op := by
  constructor
  case sound => rwa [hx]
  case closes => rwa [hx]
  case threw =>
    intro e he
    rw [hx] at he
    cases he
  case aborts =>
    rw [hx]
    constructor
    · intro h
      cases h
    · rintro ⟨type, elided, h⟩
      exact absurd h (hop type elided)

theorem closed_append_socket {w w' : SocketWorld A} {type : ℤ} {result : Option Handle}
    (hcalls : w'.calls = w.calls ++ [.socket type result]) (h : Handle) :
    w'.closed h = w.closed h := by
  simp [closed, hcalls, SocketCall.closes]

theorem closed_dropped (w : SocketWorld A) (i : ObjId) (m : Option Handle) (σ : A.State)
    (h : Handle) : (w.dropped i m σ).closed h = w.closed h + if m = some h then 1 else 0 := by
  cases m with
  | none => simp [closed, dropped, closeCalls]
  | some g => simp [closed, dropped, closeCalls, SocketCall.closes, List.countP_cons]

/-- Creation from a null context stops at the assertion. -/
theorem step_create_null (hw : Sound V w) (type : SocketType) (elided : Bool) :
    StepSpec V w (.create type none elided) := by
  have hx : (SocketOp.create type none elided).perform w = (.aborted, w) := by
    apply discard_of_aborted
    cases elided with
    | true => exact construct_null w type
    | false => exact withLocal_of_aborted (construct_null w type) _ _
  constructor
  case sound => rwa [hx]
  case closes =>
    intro h
    rw [hx]
    rfl
  case threw =>
    intro e he
    rw [hx] at he
    cases he
  case aborts =>
    rw [hx]
    exact iff_of_true rfl ⟨type, elided, rfl⟩

theorem step_create (hV : V.Laws) (hw : Sound V w) (type : SocketType)
    (context : Option ContextHandle) (elided : Bool) :
    StepSpec V w (.create type context elided) := by
  cases context with
  | none => exact step_create_null hw type elided
  | some c =>
    obtain ⟨σ, hr, hx⟩ | ⟨h, σ, i, w', hr, hx, hw', _, hcalls⟩ :=
      createSocket_cases hV hw type c elided
    · have hx' : (SocketOp.create type (some c) elided).perform w =
          (.threw ⟨A.errno σ⟩, w.record σ (.socket type.typeId none)) := discard_of_threw hx
      constructor
      case sound =>
        rw [hx']
        exact Sound.refused hV hw hr
      case closes =>
        intro h
        rw [hx', closed_append_socket (w := w) rfl h]
        rfl
      case threw =>
        intro e _
        rw [hx']
        refine ⟨rfl, fun h => ⟨?_, hV.null _ _ _ _ hr h⟩⟩
        exact congrFun (congrArg HandleLedger.acquired (ledger_refused w type.typeId σ)) h
      case aborts =>
        rw [hx']
        simp
    · have hx' : (SocketOp.create type (some c) elided).perform w = (.returned (), w') :=
        discard_of_returned hx
      apply StepSpec.of_returned hx' hw'
      · intro g
        rw [closed_append_socket hcalls g]
        rfl
      · intro type' elided' h
        cases h

theorem step_spec (hV : V.Laws) (hw : Sound V w) {op : SocketOp} (hop : op.Allowed w) :
    StepSpec V w op := by
  cases op with
  | create type context elided => exact step_create hV hw type context elided
  | newMove other =>
    obtain ⟨o, ho, htype⟩ := get_of_typeOf hop
    have hx : (SocketOp.newMove other).perform w = (.returned (), w.moved other o) := by
      simp only [SocketOp.perform, htype]
      exact discard_of_returned (newMove_apply ho)
    exact .of_returned hx (hw.moved ho) (fun h => rfl) (by simp)
  | assignMove this other =>
    obtain ⟨o, ho, htype⟩ := get_of_typeOf hop.1
    obtain ⟨p, hp, _⟩ := get_of_typeOf (hop.2 ▸ hop.1 : (w.typeOf other).isSome = true)
    have hassigned := hw.assigned ho hp
    have happly := assignMove_apply ho hp
    have hx : (SocketOp.assignMove this other).perform w =
        (.returned (), (Socket.assignMove this other w).2) := by
      simp only [SocketOp.perform, htype, SocketType.members_assignMove]
      rw [happly]
    refine .of_returned hx hassigned (fun h => ?_) (by simp)
    rw [happly]
    rfl
  | destroy this =>
    obtain ⟨o, ho, htype⟩ := get_of_typeOf hop
    obtain ⟨σ, hdestroy, hopen⟩ := destroy_apply hV hw ho
    have hx : (SocketOp.destroy this).perform w = (.returned (), w.dropped this o.mSocket σ) := by
      simp only [SocketOp.perform, htype]
      exact hdestroy
    refine .of_returned hx (hw.dropped ho hopen) (fun h => ?_) (by simp)
    rw [closed_dropped, SocketOp.releases, mSocket_of_get ho]

theorem sound_run (hV : V.Laws) (hw : Sound V w) {ops : List SocketOp}
    (hops : (socketMachine A).Admissible w ops) : Sound V ((socketMachine A).run w ops) := by
  apply Machine.run_invariant (I := Sound V) ?_ hw hops
  intro s op hs hop
  exact (step_spec hV hs hop).sound

/-- Along every run of creations, moves, assignments and destructions of sockets
of any type, every open handle has exactly one owner, `zmq_close` is called once
per handle, on destruction of its owner, and succeeds, and a creation that threw
left nothing open. -/
theorem socket_handles_owned_once (hV : V.Laws) (σ : A.State) {ops : List SocketOp}
    (hops : (socketMachine A).Admissible (initial σ) ops) :
    let w := (socketMachine A).run (initial σ) ops
    w.ledger.Accounted ∧ (∀ h, w.ledger.Outstanding h → V.isOpen w.zmq h) ∧
      (∀ h rc, .close h rc ∈ w.calls → rc = 0) ∧
      ∀ op : SocketOp, op.Allowed w →
        (∀ h, (op.perform w).2.closed h = w.closed h + if op.releases w = some h then 1 else 0) ∧
        (∀ e, (op.perform w).1 = .threw e → (op.perform w).2.sockets = w.sockets ∧
          ∀ h, (op.perform w).2.opened h = w.opened h ∧
            (V.isOpen (op.perform w).2.zmq h ↔ V.isOpen w.zmq h)) ∧
        ((op.perform w).1 = .aborted ↔ ∃ type elided, op = .create type none elided) := by
  intro w
  have hw : Sound V w := sound_run hV (sound_initial V σ) hops
  refine ⟨hw.balanced.accounted, hw.backed, hw.closing, ?_⟩
  intro op hop
  have hstep := step_spec hV hw hop
  exact ⟨hstep.closes, hstep.threw, hstep.aborts⟩

end SocketWorld

/-! ### A table of open sockets -/

namespace SocketTable
open HandleLedger (unused)

/-- The open handles, and how many there may be. -/
structure State where
  opened : List Handle
  limit : ℕ
  deriving Repr, DecidableEq

def api : SocketApi where
  State := State
  socket context _ σ :=
    if context = none ∨ σ.limit ≤ σ.opened.length then (none, σ)
    else (some (unused σ.opened), { σ with opened := unused σ.opened :: σ.opened })
  close h σ :=
    if h ∈ σ.opened then (0, { σ with opened := σ.opened.filter (· ≠ h) }) else (-1, σ)
  errno σ := if σ.limit ≤ σ.opened.length then 24 else 14

def view : api.View := ⟨fun σ h => h ∈ σ.opened⟩

theorem laws : view.Laws := by
  constructor
  case fresh =>
    intro context type σ h σ' hr
    simp only [api] at hr
    split_ifs at hr
    · cases congrArg Prod.fst hr
    · obtain rfl : unused σ.opened = h := Option.some.inj (congrArg Prod.fst hr)
      obtain rfl : { σ with opened := unused σ.opened :: σ.opened } = σ' := congrArg Prod.snd hr
      constructor
      · intro (hmem : unused σ.opened ∈ σ.opened)
        exact HandleLedger.unused_not_mem σ.opened hmem
      · intro g
        simp [view, or_comm]
  case null =>
    intro context type σ σ' hr g
    simp only [api] at hr
    split_ifs at hr
    · cases hr
      rfl
    · cases congrArg Prod.fst hr
  case close =>
    intro h σ hopen
    refine ⟨_, if_pos hopen, fun g => ?_⟩
    simp [view]

/-- Two handles at a time: creation with and without elision, a creation that
fails, self-assignment, assignment from and to a moved-from object. -/
def tour : List SocketOp :=
  [.create .dealer (some 7) true, .create .dealer (some 7) false, .create .push (some 7) true,
    .newMove 0, .assignMove 3 3, .assignMove 0 2, .destroy 0, .create .push (some 7) true,
    .assignMove 2 3, .destroy 2, .destroy 3, .destroy 4]

/-- The state at the end of the tour. -/
def tourEnd : SocketWorld api := (socketMachine api).run (.initial ⟨[], 2⟩) tour

theorem tour_admissible : (socketMachine api).Admissible (.initial ⟨[], 2⟩) tour :=
  ⟨trivial, trivial, trivial, rfl, ⟨rfl, rfl⟩, ⟨rfl, rfl⟩, rfl, trivial, ⟨rfl, rfl⟩, rfl, rfl,
    rfl, trivial⟩

end SocketTable

theorem SocketWorld.socket_handles_owned_once_tour :
    SocketTable.tourEnd.ledger.Accounted ∧ SocketTable.tourEnd.opened 2 = 2 ∧
      SocketTable.tourEnd.closed 2 = SocketTable.tourEnd.opened 2 := by
  have hrun := SocketWorld.socket_handles_owned_once SocketTable.laws ⟨[], 2⟩
    SocketTable.tour_admissible
  have hnone : SocketTable.tourEnd.sockets = ⟨List.replicate 5 none⟩ := by decide +kernel
  have hgone : ∀ i, SocketTable.tourEnd.sockets.get i = none := by
    intro i
    rw [hnone, ObjectPool.get_replicate_none]
  exact ⟨hrun.1, by decide +kernel, hrun.1.ended hgone 2⟩

end CpperoMQ
