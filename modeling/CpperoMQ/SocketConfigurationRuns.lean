import CpperoMQ.SocketConfiguration
import CpperoMQ.ObjectOperations
import Mathlib.Data.Multiset.Filter

/-!
# Runs over sockets and their configurations

Socket objects of all types are created, moved, assigned, destroyed, configured
and asked in any order. All along, an object behaves as one that holds the
configuration of its socket itself: it moves with it, is exchanged by assignment
and changes only by calls on the object that has it.
-/
namespace CpperoMQ
open Effects Effects.Exec OwnedValues

/-! ### Calls -/

/-- A call that sets something up. -/
inductive SocketSetter where
  | option (o : SocketOption) (v : o.Value)
  | mode (m : SocketMode) (value : Bool)
  | identity (buffer : CharPointer)
  | identityLength (length : ℕ) (buffer : CharPointer)
  | bind (address : Bytes)
  | unbind (address : Bytes)
  | connect (address : Bytes)
  | disconnect (address : Bytes)

namespace SocketSetter
variable {A : ConfigApi} (this : Socket)

def perform : SocketSetter → ConfigAction A Unit
  | option o v => o.set this v
  | mode m value => m.set this value
  | identity buffer => IdentifyingSocket.setIdentity this buffer
  | identityLength length buffer => IdentifyingSocket.setIdentityLength this length buffer
  | bind address => this.bind address
  | unbind address => this.unbind address
  | connect address => this.connect address
  | disconnect address => this.disconnect address

/-- What the call is to change, unless its buffer is null. Without a length, an identity
ends before the first NUL. -/
def change : SocketSetter → Option SocketChange
  | option o v => some (.option o (o.bytes v))
  | mode m value => some (.mode m value)
  | identity buffer => buffer.map fun b => .identity (OutgoingMessage.cString b)
  | identityLength length buffer => buffer.map fun b => .identity (b.take length)
  | bind address => some (.bind address)
  | unbind address => some (.unbind address)
  | connect address => some (.connect address)
  | disconnect address => some (.disconnect address)

/-- Every setter is one checked libzmq call, after the assertions about its buffer. -/
theorem perform_eq (setter : SocketSetter) : (setter.perform this : ConfigAction A Unit) =
    setter.change.elim (Exec.assert false) fun c => checked (c.call this.mSocket) := by
  cases setter with
  | option o v => exact SocketOption.set_eq this o v
  | mode m value => exact m.set_eq this value
  | identity buffer =>
    cases buffer with
    | none => rfl
    | some b =>
      simp only [change, Option.map_some, Option.elim_some, ← take_strlen]
      rfl
  | identityLength length buffer => cases buffer <;> rfl
  | bind address => rfl
  | unbind address => rfl
  | connect address => rfl
  | disconnect address => rfl

end SocketSetter

/-- A call that asks for something. -/
inductive SocketQuery where
  | option (o : SocketOption)
  | lastEndpoint (length : ℕ) (buffer : CharPointer)

inductive SocketAnswer where
  | value (o : SocketOption) (v : o.Value)
  | buffer (bytes : Bytes)

namespace SocketQuery
variable {A : ConfigApi} (this : Socket)

def ask : SocketQuery → ConfigAction A SocketAnswer
  | option o => do
    let v ← o.get this
    pure (.value o v)
  | lastEndpoint length buffer => do
    let bytes ← this.getLastEndpoint length buffer
    pure (.buffer bytes)

/-- The assertion about the buffer fails. -/
def Stops : SocketQuery → Prop
  | option _ => False
  | lastEndpoint _ buffer => buffer = none

/-- What a query gives for a configuration, where it does not fail: an option whose
accessor has the size of libzmq's, and an endpoint that has room in the buffer. -/
def answer (c : SocketConfig) : SocketQuery → Option SocketAnswer
  | option o =>
    if Scalar.size o.Value = o.cellType.size then some (.value o (Scalar.load (c.options o)))
    else none
  | lastEndpoint length _ =>
    if c.lastEndpoint.length < length then
      some (.buffer (c.lastEndpoint ++ List.replicate (length - c.lastEndpoint.length) 0))
    else none

end SocketQuery

/-- A call of a member function on an object of the pool. -/
def SocketObject.call {A : ConfigApi} {α : Type} (this : ObjId)
    (f : Socket → ConfigAction A α) : SocketAction A.toSocketApi α := fun w =>
  match f ⟨w.mSocket this⟩ w.zmq with
  | (result, σ) => (result, { w with zmq := σ })

def SocketObject.set {A : ConfigApi} (this : ObjId) (setter : SocketSetter) :
    SocketAction A.toSocketApi Unit := SocketObject.call (A := A) this fun s => setter.perform s

def SocketObject.ask {A : ConfigApi} (this : ObjId) (query : SocketQuery) :
    SocketAction A.toSocketApi SocketAnswer :=
  SocketObject.call (A := A) this fun s => query.ask s

/-! ### What a call does -/

section Calls
variable {A : ConfigApi} {V : A.View} {this : Socket} {h : Handle} {σ : A.State}

/-- A setter makes its change and returns, or throws and changes nothing. -/
theorem setter_of_open (hV : V.Laws) (hs : this.mSocket = some h) (hopen : V.isOpen σ h)
    {setter : SocketSetter} {c : SocketChange} (hc : setter.change = some c) :
    (∃ σ' config, setter.perform this σ = (.returned (), σ') ∧
      V.Result c (V.config σ h) config ∧ V.Updated σ h config σ') ∨
    ∃ e σ', setter.perform this σ = (.threw e, σ') ∧ V.Refusable c ∧ V.Same σ σ' := by
  have hperform := setter.perform_eq (A := A) this
  rw [hc, Option.elim_some, hs] at hperform
  obtain ⟨σ', config, hcall, hresult, hupdated⟩ | ⟨rc, σ', hcall, hrc, hwhy, hsame⟩ :=
    hV.change h c σ hopen
  · exact .inl ⟨σ', config, hperform ▸ checked_of_done hcall, hresult, hupdated⟩
  · exact .inr ⟨_, σ', hperform ▸ checked_of_failed hcall hrc, hwhy, hsame⟩

/-- On a moved-from object a setter throws. -/
theorem setter_of_null (hV : V.Laws) (hs : this.mSocket = none) {setter : SocketSetter}
    {c : SocketChange} (hc : setter.change = some c) (σ : A.State) :
    ∃ e σ', setter.perform this σ = (.threw e, σ') ∧ V.Same σ σ' := by
  have hperform := setter.perform_eq (A := A) this
  rw [hc, Option.elim_some, hs] at hperform
  obtain ⟨rc, σ', hcall, hrc, hsame⟩ := hV.changeNull c σ
  exact ⟨_, σ', hperform ▸ checked_of_failed hcall hrc, hsame⟩

theorem setter_of_stopped {setter : SocketSetter} (hc : setter.change = none) (this : Socket)
    (σ : A.State) : setter.perform this σ = (.aborted, σ) := by
  rw [setter.perform_eq, hc]
  rfl

theorem getSocketOptionBytes_of_get {option : ℤ} {n : ℕ} {bytes : Bytes} {σ' : A.State}
    (hget : A.getsockopt this.mSocket option n σ = ((0, bytes), σ')) :
    (this.getSocketOptionBytes option n : ConfigAction A Bytes) σ = (.returned bytes, σ') := by
  simp [Socket.getSocketOptionBytes, Exec.bind, zmqGetsockopt, hget]

theorem getSocketOptionBytes_of_refused {option : ℤ} {n : ℕ} {rc : ℤ} {bytes : Bytes}
    {σ' : A.State} (hget : A.getsockopt this.mSocket option n σ = ((rc, bytes), σ'))
    (hrc : rc ≠ 0) : (this.getSocketOptionBytes option n : ConfigAction A Bytes) σ =
      (.threw ⟨A.errno σ'⟩, σ') := by
  simp [Socket.getSocketOptionBytes, Exec.bind, zmqGetsockopt, hget, hrc, raiseOptionError]

/-- Every query is one read, and what is made of its bytes. -/
theorem SocketQuery.ask_option (o : SocketOption) :
    ((option o).ask this : ConfigAction A SocketAnswer) =
      (this.getSocketOptionBytes o.code (Scalar.size o.Value)).bind fun bytes =>
        pure (.value o (Scalar.load bytes)) := by
  have hget := o.get_eq (A := A.toOptionApi) this
  rw [ask, hget]
  exact Exec.bind_assoc _ _ _

theorem SocketQuery.ask_lastEndpoint (n : ℕ) (buffer : Bytes) :
    ((lastEndpoint n (some buffer)).ask this : ConfigAction A SocketAnswer) =
      (this.getSocketOptionBytes ZMQ_LAST_ENDPOINT n).bind fun bytes =>
        pure (.buffer (bytes ++ List.replicate (n - bytes.length) 0)) :=
  Exec.bind_assoc _ _ _

/-- A query changes nothing; it gives its answer, or throws if there is none. -/
theorem ask_of_open (hV : V.Laws) (hs : this.mSocket = some h) (hopen : V.isOpen σ h)
    {query : SocketQuery} (hq : ¬query.Stops) :
    (∃ a σ', query.ask this σ = (.returned a, σ') ∧ query.answer (V.config σ h) = some a ∧
      V.Same σ σ') ∨
    ∃ e σ', query.ask this σ = (.threw e, σ') ∧ query.answer (V.config σ h) = none ∧
      V.Same σ σ' := by
  cases query with
  | option o =>
    rw [SocketQuery.ask_option]
    by_cases hsize : Scalar.size o.Value = o.cellType.size
    · obtain ⟨σ', hget, hsame⟩ := hV.get h o σ hopen
      rw [← hs, ← hsize] at hget
      refine .inl ⟨_, σ', bind_of_returned (getSocketOptionBytes_of_get hget) _, ?_, hsame⟩
      rw [SocketQuery.answer, if_pos hsize]
    · obtain ⟨rc, bytes, σ', hget, hrc, hsame⟩ := hV.getRefused h o _ σ hopen hsize
      rw [← hs] at hget
      refine .inr ⟨_, σ', bind_of_threw (getSocketOptionBytes_of_refused hget hrc) _, ?_, hsame⟩
      rw [SocketQuery.answer, if_neg hsize]
  | lastEndpoint n buffer =>
    obtain ⟨buffer, rfl⟩ := Option.ne_none_iff_exists'.mp hq
    rw [SocketQuery.ask_lastEndpoint]
    by_cases hroom : (V.config σ h).lastEndpoint.length < n
    · obtain ⟨σ', hget, hsame⟩ := hV.getLast h n σ hopen hroom
      rw [← hs] at hget
      refine .inl ⟨_, σ', bind_of_returned (getSocketOptionBytes_of_get hget) _, ?_, hsame⟩
      rw [SocketQuery.answer, if_pos hroom, List.append_assoc, List.singleton_append,
        ← List.replicate_succ, List.length_append, List.length_singleton]
      congr 4
      omega
    · obtain ⟨rc, bytes, σ', hget, hrc, hsame⟩ :=
        hV.getLastRefused h n σ hopen (Nat.le_of_not_lt hroom)
      rw [← hs] at hget
      refine .inr ⟨_, σ', bind_of_threw (getSocketOptionBytes_of_refused hget hrc) _, ?_, hsame⟩
      rw [SocketQuery.answer, if_neg hroom]

theorem ask_of_null (hV : V.Laws) (hs : this.mSocket = none) {query : SocketQuery}
    (hq : ¬query.Stops) (σ : A.State) :
    ∃ e σ', query.ask this σ = (.threw e, σ') ∧ V.Same σ σ' := by
  cases query with
  | option o =>
    obtain ⟨rc, bytes, σ', hget, hrc, hsame⟩ := hV.getNull o.code (Scalar.size o.Value) σ
    rw [← hs] at hget
    rw [SocketQuery.ask_option]
    exact ⟨_, σ', bind_of_threw (getSocketOptionBytes_of_refused hget hrc) _, hsame⟩
  | lastEndpoint n buffer =>
    obtain ⟨buffer, rfl⟩ := Option.ne_none_iff_exists'.mp hq
    obtain ⟨rc, bytes, σ', hget, hrc, hsame⟩ := hV.getNull ZMQ_LAST_ENDPOINT n σ
    rw [← hs] at hget
    rw [SocketQuery.ask_lastEndpoint]
    exact ⟨_, σ', bind_of_threw (getSocketOptionBytes_of_refused hget hrc) _, hsame⟩

theorem ask_of_stopped {query : SocketQuery} (hq : query.Stops) (this : Socket) (σ : A.State) :
    query.ask this σ = (.aborted, σ) := by
  cases query with
  | option o => cases hq
  | lastEndpoint n buffer =>
    obtain rfl : buffer = none := hq
    rfl

end Calls

/-! ### Runs -/

inductive ConfigOp where
  | object (op : SocketOp)
  | set (this : ObjId) (setter : SocketSetter)
  | ask (this : ObjId) (query : SocketQuery)

namespace ConfigOp
variable {A : ConfigApi}

def perform (w : SocketWorld A.toSocketApi) : ConfigOp → SocketWorld A.toSocketApi
  | object op => (op.perform w).2
  | set this setter => (SocketObject.set (A := A) this setter w).2
  | ask this query => (SocketObject.ask (A := A) this query w).2

/-- The objects named are alive; they may have been moved from. -/
def Allowed (w : SocketWorld A.toSocketApi) : ConfigOp → Prop
  | object op => op.Allowed w
  | set this _ | ask this _ => (w.typeOf this).isSome = true

end ConfigOp

def configMachine (A : ConfigApi) : Machine (SocketWorld A.toSocketApi) ConfigOp where
  step w op := op.perform (A := A) w
  Allowed w op := op.Allowed (A := A) w

section Runs
variable {A : ConfigApi} {V : A.View} {w w' : SocketWorld A.toSocketApi} {this : ObjId}
  {h : Handle} {q : ObjectPool (Option SocketConfig)}

/-- Every socket object with the configuration of the socket it owns. -/
def SocketWorld.values (V : A.View) (w : SocketWorld A.toSocketApi) :
    ObjectPool (Option SocketConfig) :=
  seen (fun o : SocketObject => o.mSocket) w.sockets (V.config w.zmq)

/-- What an operation came to, given how it ended. -/
inductive ConfigExplains (V : A.View) (w : SocketWorld A.toSocketApi) :
    ConfigOp → List (Event SocketConfig) → Prop where
  | created {type : SocketType} {context : ContextHandle} {elided : Bool} {c : SocketConfig} :
    ((SocketOp.create type (some context) elided).perform w).1 = .returned () →
    c.Fresh type.typeId →
    ConfigExplains V w (.object (.create type (some context) elided))
      (creationEvents w.sockets.next elided c)
  | uncreated {type : SocketType} {context : ContextHandle} {elided : Bool} {e : Error} :
    ((SocketOp.create type (some context) elided).perform w).1 = .threw e →
    (A.socket (some context) type.typeId w.zmq).1 = none →
    ConfigExplains V w (.object (.create type (some context) elided)) []
  | contextless {type : SocketType} {elided : Bool} :
    ((SocketOp.create type none elided).perform w).1 = .aborted →
    ConfigExplains V w (.object (.create type none elided)) []
  | moved {other : ObjId} : ((SocketOp.newMove other).perform w).1 = .returned () →
    ConfigExplains V w (.object (.newMove other)) [.moved other]
  | assigned {this other : ObjId} :
    ((SocketOp.assignMove this other).perform w).1 = .returned () →
    ConfigExplains V w (.object (.assignMove this other)) [.exchanged this other]
  | destroyed {this : ObjId} : ((SocketOp.destroy this).perform w).1 = .returned () →
    ConfigExplains V w (.object (.destroy this)) [.destroyed this]
  | changed {this : ObjId} {setter : SocketSetter} {change : SocketChange}
    {c c' : SocketConfig} :
    (SocketObject.set (A := A) this setter w).1 = .returned () →
    setter.change = some change → V.Result change c c' →
    ConfigExplains V w (.set this setter) [.changed this c c']
  | refused {this : ObjId} {setter : SocketSetter} {change : SocketChange} {c : SocketConfig}
    {e : Error} :
    (SocketObject.set (A := A) this setter w).1 = .threw e →
    setter.change = some change → V.Refusable change →
    ConfigExplains V w (.set this setter) [.observed this (some c)]
  | unset {this : ObjId} {setter : SocketSetter} {e : Error} :
    (SocketObject.set (A := A) this setter w).1 = .threw e →
    ConfigExplains V w (.set this setter) [.observed this none]
  | stopped {this : ObjId} {setter : SocketSetter} :
    (SocketObject.set (A := A) this setter w).1 = .aborted →
    setter.change = none → ConfigExplains V w (.set this setter) []
  | answered {this : ObjId} {query : SocketQuery} {a : SocketAnswer} {c : SocketConfig} :
    (SocketObject.ask (A := A) this query w).1 = .returned a →
    query.answer c = some a → ConfigExplains V w (.ask this query) [.observed this (some c)]
  | unanswered {this : ObjId} {query : SocketQuery} {c : SocketConfig} {e : Error} :
    (SocketObject.ask (A := A) this query w).1 = .threw e →
    query.answer c = none → ConfigExplains V w (.ask this query) [.observed this (some c)]
  | unasked {this : ObjId} {query : SocketQuery} {e : Error} :
    (SocketObject.ask (A := A) this query w).1 = .threw e →
    ConfigExplains V w (.ask this query) [.observed this none]
  | unread {this : ObjId} {query : SocketQuery} :
    (SocketObject.ask (A := A) this query w).1 = .aborted →
    query.Stops → ConfigExplains V w (.ask this query) []

/-- The invariant of runs: how the sockets there are look. -/
abbrev SocketWorld.Tracks (V : A.View) (w : SocketWorld A.toSocketApi)
    (q : ObjectPool (Option SocketConfig)) : Prop :=
  SocketsTrack (fun type c => c.type = type.typeId) (V.isOpen w.zmq) (V.config w.zmq) w.sockets q

/-- Some steps of the machine of values explain the operation. -/
def ConfigStep (V : A.View) (w : SocketWorld A.toSocketApi)
    (q : ObjectPool (Option SocketConfig)) (op : ConfigOp) : Prop :=
  ∃ events, ConfigExplains V w op events ∧ (valueMachine SocketConfig).Admissible q events ∧
    (op.perform (A := A) w).Tracks V ((valueMachine SocketConfig).run q events)

/-! ### Creation, moves and destruction -/

theorem configStep_create_refused (hV : V.Laws) (hw : w.Tracks V q) {type : SocketType}
    {context : ContextHandle} {σ : A.State}
    (hr : A.socket (some context) type.typeId w.zmq = (none, σ)) (elided : Bool) :
    ConfigStep V w q (.object (.create type (some context) elided)) := by
  have hx := SocketWorld.perform_create_refused hr elided
  obtain ⟨hopen, hconfig⟩ := hV.null (some context) type.typeId w.zmq σ hr
  refine ⟨[], .uncreated (congrArg Prod.fst hx) (congrArg Prod.fst hr), trivial, ?_⟩
  rw [ConfigOp.perform, hx]
  exact hw.kept (.of_eq hopen hconfig)

theorem configStep_create_opened (hV : V.Laws) (hw : w.Tracks V q) {type : SocketType}
    {context : ContextHandle} {σ : A.State}
    (hr : A.socket (some context) type.typeId w.zmq = (some h, σ)) (elided : Bool) :
    ConfigStep V w q (.object (.create type (some context) elided)) := by
  have hx := SocketWorld.perform_create_opened hr elided
  obtain ⟨hfresh, hopen, hconfig, hothers⟩ := hV.fresh (some context) type.typeId w.zmq h σ hr
  have hkept : Kept (V.isOpen w.zmq) (V.config w.zmq) (V.isOpen σ) (V.config σ) := by
    intro g hg
    have hgh : g ≠ h := by
      rintro rfl
      exact hfresh hg
    exact ⟨(hopen g).mpr (.inl hg), hothers g hgh⟩
  obtain ⟨hadm, hcreated⟩ :=
    tracks_created hw hkept hfresh ((hopen h).mpr (.inr rfl)) hconfig.type σ elided
  refine ⟨_, .created (congrArg Prod.fst hx) hconfig, hadm, ?_⟩
  rw [ConfigOp.perform, hx]
  cases elided <;> exact hcreated

theorem configStep_create (hV : V.Laws) (hw : w.Tracks V q) (type : SocketType)
    (context : Option ContextHandle) (elided : Bool) :
    ConfigStep V w q (.object (.create type context elided)) := by
  cases context with
  | none =>
    have hx := SocketWorld.perform_create_null w type elided
    refine ⟨[], .contextless (congrArg Prod.fst hx), trivial, ?_⟩
    rw [ConfigOp.perform, hx]
    exact hw
  | some c =>
    rcases hr : A.socket (some c) type.typeId w.zmq with ⟨_ | h, σ⟩
    · exact configStep_create_refused hV hw hr elided
    · exact configStep_create_opened hV hw hr elided

theorem configStep_move (hw : w.Tracks V q) {other : ObjId}
    (hlive : (w.typeOf other).isSome = true) : ConfigStep V w q (.object (.newMove other)) := by
  obtain ⟨o, ho, hx⟩ := SocketWorld.perform_newMove hlive
  refine ⟨[.moved other], .moved (congrArg Prod.fst hx), ⟨hw.isSome ho, trivial⟩, ?_⟩
  rw [ConfigOp.perform, hx]
  exact tracks_moved hw ho

theorem configStep_assign (hw : w.Tracks V q) {this other : ObjId}
    (hlive : (w.typeOf this).isSome = true) (hsame : w.typeOf other = w.typeOf this) :
    ConfigStep V w q (.object (.assignMove this other)) := by
  obtain ⟨o, u, ho, hu, htype, hx⟩ := SocketWorld.perform_assignMove hlive hsame
  refine ⟨[.exchanged this other], .assigned (congrArg Prod.fst hx),
    ⟨⟨hw.isSome ho, hw.isSome hu⟩, trivial⟩, ?_⟩
  rw [ConfigOp.perform, hx]
  exact tracks_exchanged hw ho hu htype

/-- The destructor closes the socket of its object, and no other. -/
theorem configStep_destroy (hV : V.Laws) (hw : w.Tracks V q)
    (hlive : (w.typeOf this).isSome = true) : ConfigStep V w q (.object (.destroy this)) := by
  obtain ⟨o, ho, hperform⟩ := SocketWorld.perform_destroy hlive
  cases hm : o.mSocket with
  | none =>
    have hx := hperform.trans (SocketWorld.destroy_of_null ho hm)
    refine ⟨[.destroyed this], .destroyed (congrArg Prod.fst hx), ⟨hw.isSome ho, trivial⟩, ?_⟩
    rw [ConfigOp.perform, hx]
    exact hw.destroyed ho fun g hg _ => ⟨hg, rfl⟩
  | some h =>
    obtain ⟨σ, hclose, hopen, hconfig⟩ := hV.close h w.zmq (hw.isOpen h ⟨this, o, ho, hm⟩)
    have hx := hperform.trans (SocketWorld.destroy_of_some ho hm hclose)
    refine ⟨[.destroyed this], .destroyed (congrArg Prod.fst hx), ⟨hw.isSome ho, trivial⟩, ?_⟩
    rw [ConfigOp.perform, hx]
    refine hw.destroyed ho fun g hg hne => ?_
    have hgh : g ≠ h := by
      rintro rfl
      exact hne hm
    exact ⟨(hopen g).mpr ⟨hg, hgh⟩, hconfig g hgh⟩

/-! ### Setters and queries -/

theorem set_of {setter : SocketSetter} {r : Outcome Error Unit} {σ : A.State}
    (hset : setter.perform ⟨w.mSocket this⟩ w.zmq = (r, σ)) :
    SocketObject.set (A := A) this setter w = (r, { w with zmq := σ }) := by
  rw [SocketObject.set, SocketObject.call, hset]

theorem ask_of {query : SocketQuery} {r : Outcome Error SocketAnswer} {σ : A.State}
    (hask : query.ask ⟨w.mSocket this⟩ w.zmq = (r, σ)) :
    SocketObject.ask (A := A) this query w = (r, { w with zmq := σ }) := by
  rw [SocketObject.ask, SocketObject.call, hask]

theorem type_of_result {change : SocketChange} {c c' : SocketConfig}
    (hresult : V.Result change c c') : c'.type = c.type := by
  cases change with
  | option o value => rw [hresult.2]
  | mode m value => rw [(hresult : c' = _)]
  | identity value => rw [hresult.2.2]
  | bind address | connect address =>
    obtain ⟨name, last, _, _, rfl⟩ := hresult
    rfl
  | unbind address | disconnect address =>
    obtain ⟨gone, rest, _, _, _, rfl⟩ := hresult
    rfl

theorem configStep_set (hV : V.Laws) (hw : w.Tracks V q)
    (hlive : (w.typeOf this).isSome = true) (setter : SocketSetter) :
    ConfigStep V w q (.set this setter) := by
  obtain ⟨o, ho, _⟩ := SocketWorld.get_of_typeOf hlive
  have hm := SocketWorld.mSocket_of_get ho
  cases hc : setter.change with
  | none =>
    have hx := set_of (setter_of_stopped (A := A) hc ⟨w.mSocket this⟩ w.zmq)
    refine ⟨[], .stopped (congrArg Prod.fst hx) hc, trivial, ?_⟩
    rw [ConfigOp.perform, hx]
    exact hw
  | some change =>
    cases hs : o.mSocket with
    | none =>
      obtain ⟨e, σ, hset, hsame⟩ := setter_of_null hV (hm.trans hs) hc w.zmq
      have hx := set_of hset
      refine ⟨[.observed this none], .unset (congrArg Prod.fst hx), ⟨?_, trivial⟩, ?_⟩
      · exact (hw.get ho).trans (by rw [hs]; rfl)
      · rw [ConfigOp.perform, hx]
        exact hw.kept (.of_eq hsame.1 hsame.2)
    | some h =>
      have hget : q.get this = some (some (V.config w.zmq h)) :=
        (hw.get ho).trans (by rw [hs]; rfl)
      obtain ⟨σ, config, hset, hresult, hopen, hconfig⟩ | ⟨e, σ, hset, hwhy, hsame⟩ :=
        setter_of_open hV (hm.trans hs)
          (hw.isOpen h ⟨this, o, ho, hs⟩) hc
      · have hx := set_of hset
        refine ⟨[.changed this (V.config w.zmq h) config],
          .changed (congrArg Prod.fst hx) hc hresult, ⟨hget, trivial⟩, ?_⟩
        rw [ConfigOp.perform, hx]
        exact hw.changed ho hs hopen hconfig
          ((type_of_result hresult).trans (hw.fits this o h ho hs))
      · have hx := set_of hset
        refine ⟨[.observed this (some (V.config w.zmq h))],
          .refused (congrArg Prod.fst hx) hc hwhy, ⟨hget, trivial⟩, ?_⟩
        rw [ConfigOp.perform, hx]
        exact hw.kept (.of_eq hsame.1 hsame.2)

theorem configStep_ask (hV : V.Laws) (hw : w.Tracks V q)
    (hlive : (w.typeOf this).isSome = true) (query : SocketQuery) :
    ConfigStep V w q (.ask this query) := by
  obtain ⟨o, ho, _⟩ := SocketWorld.get_of_typeOf hlive
  have hm := SocketWorld.mSocket_of_get ho
  by_cases hq : query.Stops
  · have hx := ask_of (ask_of_stopped (A := A) hq ⟨w.mSocket this⟩ w.zmq)
    refine ⟨[], .unread (congrArg Prod.fst hx) hq, trivial, ?_⟩
    rw [ConfigOp.perform, hx]
    exact hw
  · cases hs : o.mSocket with
    | none =>
      obtain ⟨e, σ, hask, hsame⟩ :=
        ask_of_null hV (hm.trans hs) hq w.zmq
      have hx := ask_of hask
      refine ⟨[.observed this none], .unasked (congrArg Prod.fst hx), ⟨?_, trivial⟩, ?_⟩
      · exact (hw.get ho).trans (by rw [hs]; rfl)
      · rw [ConfigOp.perform, hx]
        exact hw.kept (.of_eq hsame.1 hsame.2)
    | some h =>
      have hget : q.get this = some (some (V.config w.zmq h)) :=
        (hw.get ho).trans (by rw [hs]; rfl)
      obtain ⟨a, σ, hask, hanswer, hsame⟩ | ⟨e, σ, hask, hanswer, hsame⟩ :=
        ask_of_open hV (hm.trans hs)
          (hw.isOpen h ⟨this, o, ho, hs⟩) hq
      · have hx := ask_of hask
        refine ⟨[.observed this (some (V.config w.zmq h))],
          .answered (congrArg Prod.fst hx) hanswer, ⟨hget, trivial⟩, ?_⟩
        rw [ConfigOp.perform, hx]
        exact hw.kept (.of_eq hsame.1 hsame.2)
      · have hx := ask_of hask
        refine ⟨[.observed this (some (V.config w.zmq h))],
          .unanswered (congrArg Prod.fst hx) hanswer, ⟨hget, trivial⟩, ?_⟩
        rw [ConfigOp.perform, hx]
        exact hw.kept (.of_eq hsame.1 hsame.2)

theorem configStep (hV : V.Laws) (hw : w.Tracks V q) {op : ConfigOp}
    (hop : op.Allowed (A := A) w) : ConfigStep V w q op := by
  cases op with
  | object op =>
    cases op with
    | create type context elided => exact configStep_create hV hw type context elided
    | newMove other => exact configStep_move hw hop
    | assignMove this other => exact configStep_assign hw hop.1 hop.2
    | destroy this => exact configStep_destroy hV hw hop
  | set this setter => exact configStep_set hV hw hop setter
  | ask this query => exact configStep_ask hV hw hop query

/-- In every run of creations, moves, assignments, destructions and calls of the setters
and getters, sockets behave as objects that hold their configurations themselves, and
every object holds a socket of its own type: a setter makes its change to its object or
throws and changes nothing, a getter gives what its object holds where it can be read,
and a moved-from object refuses both. -/
theorem sockets_hold_configurations (hV : V.Laws) (σ : A.State) {ops : List ConfigOp}
    (hops : (configMachine A).Admissible (.initial σ) ops) :
    let w := (configMachine A).run (.initial σ) ops
    (∃ events, (configMachine A).Explained (ConfigExplains V) (.initial σ) ops events ∧
      (valueMachine SocketConfig).batch.Admissible .empty events ∧
      w.values V = (valueMachine SocketConfig).batch.run .empty events) ∧
    ∀ i o h, w.sockets.get i = some o → o.mSocket = some h →
      (V.config w.zmq h).type = o.type.typeId := by
  intro w
  have hstep : ∀ (w : SocketWorld A.toSocketApi) (q : ObjectPool (Option SocketConfig))
      (op : ConfigOp), w.Tracks V q → (configMachine A).Allowed w op →
      ∃ events, ConfigExplains V w op events ∧
        (valueMachine SocketConfig).batch.Allowed q events ∧
        ((configMachine A).step w op).Tracks V
          ((valueMachine SocketConfig).batch.step q events) := by
    intro w q op hw hop
    exact configStep hV hw hop
  have hinit : (SocketWorld.initial σ : SocketWorld A.toSocketApi).Tracks V .empty := .empty
  obtain ⟨events, hexplained, hadm, hrun⟩ := Machine.run_explained hstep hinit hops
  exact ⟨⟨events, hexplained, hadm, hrun.seen⟩, hrun.fits⟩

end Runs

/-! ### A table of configurations -/

namespace ConfigTable

/-- The open sockets, and what is configured on them. -/
structure State where
  sockets : SocketTable.State
  configs : Handle → SocketConfig

def State.put (σ : State) (h : Handle) (c : SocketConfig) : State :=
  { σ with configs := Function.update σ.configs h c }

def fresh (type : ℤ) : SocketConfig where
  type := type
  options := OptionTable.start.zmq
  modes _ := false
  identity := []
  endpoints := 0
  lastEndpoint := []

/-- The change that setting an option comes to. -/
def decode (option : ℤ) (value : Bytes) : Option SocketChange :=
  match OptionTable.ofCode option, modeOf option with
  | some o, _ => some (.option o value)
  | none, some m =>
    if value = SocketMode.bytes true then some (.mode m true)
    else if value = SocketMode.bytes false then some (.mode m false) else none
  | none, none => if option = ZMQ_IDENTITY then some (.identity value) else none
where
  modeOf (option : ℤ) : Option SocketMode :=
    [SocketMode.conflate, .requestCorrelation, .relaxed, .routerProbing, .handover,
      .mandatoryRouting, .rawMode].find? fun m => m.code = option

def add (kind : EndpointKind) (name : Bytes) (c : SocketConfig) : Option SocketConfig :=
  if name = [] then none
  else some { c with endpoints := ⟨kind, name⟩ ::ₘ c.endpoints, lastEndpoint := name }

def remove (name : Bytes) (c : SocketConfig) : Option SocketConfig :=
  if name ∈ c.endpoints.map Endpoint.name then
    some { c with endpoints := c.endpoints.filter fun e => e.name ≠ name }
  else none

def apply : SocketChange → SocketConfig → Option SocketConfig
  | .option o value, c =>
    if OptionTable.accepts o value then
      some { c with options := Function.update c.options o value }
    else none
  | .mode m value, c => some { c with modes := Function.update c.modes m value }
  | .identity value, c =>
    if 1 ≤ value.length ∧ value.length ≤ 255 then some { c with identity := value } else none
  | .bind address, c => add .bound address c
  | .unbind address, c => remove address c
  | .connect address, c => add .connected address c
  | .disconnect address, c => remove address c

def perform (m : Option Handle) (change : Option SocketChange) (σ : State) : ℤ × State :=
  match m, change with
  | some h, some change =>
    if h ∈ σ.sockets.opened then
      match apply change (σ.configs h) with
      | some c => (0, σ.put h c)
      | none => (-1, σ)
    else (-1, σ)
  | _, _ => (-1, σ)

def read (c : SocketConfig) (option : ℤ) (n : ℕ) : ℤ × Bytes :=
  match OptionTable.ofCode option with
  | some o => if n = o.cellType.size then (0, c.options o) else (-1, [])
  | none =>
    if option = ZMQ_LAST_ENDPOINT ∧ c.lastEndpoint.length < n then (0, c.lastEndpoint ++ [0])
    else (-1, [])

def api : ConfigApi where
  State := State
  socket context type σ :=
    match SocketTable.api.socket context type σ.sockets with
    | (some h, sockets) => (some h, ⟨sockets, Function.update σ.configs h (fresh type)⟩)
    | (none, sockets) => (none, ⟨sockets, σ.configs⟩)
  close h σ :=
    ((SocketTable.api.close h σ.sockets).1, ⟨(SocketTable.api.close h σ.sockets).2, σ.configs⟩)
  errno σ := SocketTable.api.errno σ.sockets
  setsockopt m option value σ := perform m (decode option value) σ
  getsockopt m option n σ :=
    match m with
    | some h => if h ∈ σ.sockets.opened then (read (σ.configs h) option n, σ) else ((-1, []), σ)
    | none => ((-1, []), σ)
  bind m address σ := perform m (some (.bind address)) σ
  unbind m address σ := perform m (some (.unbind address)) σ
  connect m address σ := perform m (some (.connect address)) σ
  disconnect m address σ := perform m (some (.disconnect address)) σ

def view : api.View where
  isOpen σ h := h ∈ σ.sockets.opened
  config σ h := σ.configs h
  inRange o x := OptionTable.inRange o x = true
  names address name := address = name

theorem call_eq (change : SocketChange) (m : Option Handle) (σ : State) :
    change.call (A := api) m σ = perform m (some change) σ := by
  cases change with
  | option o value =>
    have hdecode : decode o.code value = some (.option o value) := by
      rw [decode, OptionTable.ofCode_code]
    exact congrArg (perform m · σ) hdecode
  | mode k value =>
    have hdecode : decode k.code (SocketMode.bytes value) = some (.mode k value) := by
      cases k <;> cases value <;> rfl
    exact congrArg (perform m · σ) hdecode
  | identity value => rfl
  | bind address => rfl
  | unbind address => rfl
  | connect address => rfl
  | disconnect address => rfl

theorem add_result {kind : EndpointKind} {name : Bytes} {c c' : SocketConfig}
    (h : add kind name c = some c') : view.Added kind name c c' := by
  rw [add] at h
  split_ifs at h
  exact ⟨name, name, rfl, .inl rfl, (Option.some.inj h).symm⟩

theorem remove_result {name : Bytes} {c c' : SocketConfig} (h : remove name c = some c') :
    view.Removed name c c' := by
  rw [remove] at h
  split_ifs at h with hmem
  refine ⟨c.endpoints.filter fun e => ¬e.name ≠ name, c.endpoints.filter fun e => e.name ≠ name,
    ?_, ?_, ?_, (Option.some.inj h).symm⟩
  · obtain ⟨e, he, hname⟩ := Multiset.mem_map.mp hmem
    intro hnone
    have hin : e ∈ c.endpoints.filter fun e => ¬e.name ≠ name :=
      Multiset.mem_filter.mpr ⟨he, fun hne => hne hname⟩
    rw [hnone] at hin
    exact Multiset.notMem_zero e hin
  · intro e he
    exact (not_not.mp (Multiset.mem_filter.mp he).2).symm
  · rw [Multiset.add_comm, Multiset.filter_add_not]

theorem apply_result {change : SocketChange} {c c' : SocketConfig}
    (h : apply change c = some c') : view.Result change c c' := by
  cases change with
  | option o value =>
    rw [apply] at h
    split_ifs at h with hacc
    exact ⟨(of_decide_eq_true hacc).1, (Option.some.inj h).symm⟩
  | mode m value => exact (Option.some.inj h).symm
  | identity value =>
    rw [apply] at h
    split_ifs at h with hlength
    exact ⟨hlength.1, hlength.2, (Option.some.inj h).symm⟩
  | bind address => exact add_result h
  | unbind address => exact remove_result h
  | connect address => exact add_result h
  | disconnect address => exact remove_result h

theorem apply_none {change : SocketChange} {c : SocketConfig} (h : apply change c = none) :
    view.Refusable change := by
  cases change with
  | option o value =>
    rw [apply] at h
    split_ifs at h with hacc
    exact fun hh => hacc (decide_eq_true hh)
  | _ => trivial

theorem perform_open {h : Handle} {σ : State} (hopen : h ∈ σ.sockets.opened)
    (change : SocketChange) :
    (∃ c, perform (some h) (some change) σ = (0, σ.put h c) ∧
      view.Result change (σ.configs h) c) ∨
    perform (some h) (some change) σ = (-1, σ) ∧ view.Refusable change := by
  cases happly : apply change (σ.configs h) with
  | some c => exact .inl ⟨c, by simp [perform, hopen, happly], apply_result happly⟩
  | none => exact .inr ⟨by simp [perform, hopen, happly], apply_none happly⟩

theorem socket_some {context : Option ContextHandle} {type : ℤ} {σ σ' : State} {h : Handle}
    (hr : api.socket context type σ = (some h, σ')) :
    SocketTable.api.socket context type σ.sockets = (some h, σ'.sockets) ∧
      σ'.configs = Function.update σ.configs h (fresh type) := by
  simp only [api] at hr
  split at hr
  · cases hr
    exact ⟨by assumption, rfl⟩
  · cases hr

theorem socket_none {context : Option ContextHandle} {type : ℤ} {σ σ' : State}
    (hr : api.socket context type σ = (none, σ')) :
    SocketTable.api.socket context type σ.sockets = (none, σ'.sockets) ∧
      σ'.configs = σ.configs := by
  simp only [api] at hr
  split at hr
  · cases hr
  · cases hr
    exact ⟨by assumption, rfl⟩

theorem ofCode_lastEndpoint : OptionTable.ofCode ZMQ_LAST_ENDPOINT = none := rfl

theorem laws : view.Laws := by
  constructor
  case fresh =>
    intro context type σ h σ' hr
    obtain ⟨hsocket, hconfigs⟩ := socket_some hr
    obtain ⟨hfresh, hopen⟩ := SocketTable.laws.fresh _ _ _ _ _ hsocket
    refine ⟨hfresh, hopen, ?_, fun g hg => ?_⟩
    · change (σ'.configs h).Fresh type
      rw [hconfigs, Function.update_self]
      exact ⟨rfl, rfl, rfl, rfl⟩
    · change σ'.configs g = σ.configs g
      rw [hconfigs, Function.update_of_ne hg]
  case null =>
    intro context type σ σ' hr
    obtain ⟨hsocket, hconfigs⟩ := socket_none hr
    exact ⟨funext fun g => propext (SocketTable.laws.null _ _ _ _ hsocket g), hconfigs⟩
  case close =>
    intro h σ hopen
    obtain ⟨sockets, hclose, hopens⟩ := SocketTable.laws.close h σ.sockets hopen
    refine ⟨⟨sockets, σ.configs⟩, ?_, hopens, fun g _ => rfl⟩
    simp only [api, hclose]
  case change =>
    intro h change σ hopen
    obtain ⟨c, hperform, hresult⟩ | ⟨hperform, hwhy⟩ := perform_open hopen change
    · exact .inl ⟨State.put σ h c, c, (call_eq change (some h) σ).trans hperform, hresult, rfl,
        rfl⟩
    · exact .inr ⟨-1, σ, (call_eq change (some h) σ).trans hperform, by decide, hwhy, rfl, rfl⟩
  case get =>
    intro h o σ hopen
    have hopen' : h ∈ σ.sockets.opened := hopen
    exact ⟨σ, by simp [api, hopen', read, OptionTable.ofCode_code, view], rfl, rfl⟩
  case getRefused =>
    intro h o n σ hopen hn
    have hopen' : h ∈ σ.sockets.opened := hopen
    refine ⟨-1, [], σ, ?_, by decide, rfl, rfl⟩
    simp [api, hopen', read, OptionTable.ofCode_code, hn]
  case getLast =>
    intro h n σ hopen hroom
    have hopen' : h ∈ σ.sockets.opened := hopen
    have hroom' : (σ.configs h).lastEndpoint.length < n := hroom
    refine ⟨σ, ?_, rfl, rfl⟩
    simp [api, hopen', read, ofCode_lastEndpoint, hroom', view]
  case getLastRefused =>
    intro h n σ hopen hroom
    have hopen' : h ∈ σ.sockets.opened := hopen
    have hroom' : ¬(σ.configs h).lastEndpoint.length < n := Nat.not_lt.mpr hroom
    refine ⟨-1, [], σ, ?_, by decide, rfl, rfl⟩
    simp [api, hopen', read, ofCode_lastEndpoint, hroom']
  case changeNull =>
    intro change σ
    exact ⟨-1, σ, call_eq change none σ, by decide, rfl, rfl⟩
  case getNull => exact fun option n σ => ⟨-1, [], σ, rfl, by decide, rfl, rfl⟩

/-- `"inproc://a"` -/
def address : Bytes := [105, 110, 112, 114, 111, 99, 58, 47, 47, 97]

/-- A router set up before and after it is moved, with endpoints that are there and not,
an identity that is refused, and calls on the object moved from. -/
def tour : List ConfigOp :=
  [.object (.create .router (some 7) true), .object (.create .router (some 7) false),
    .set 0 (.bind address), .set 0 (.mode .handover true), .set 2 (.identity (some [])),
    .set 2 (.identityLength 2 (some [97, 98, 99])), .object (.newMove 0), .set 0 (.bind address),
    .ask 3 (.lastEndpoint 16 (some [])), .object (.assignMove 2 3), .set 2 (.unbind address),
    .set 2 (.unbind address), .ask 2 (.option .lingerPeriod), .ask 3 (.option .ipv6),
    .set 3 (.option .lingerPeriod (250 : Int32)), .object (.destroy 2)]

def start : SocketWorld api.toSocketApi := .initial (⟨⟨[], 3⟩, fun _ => fresh 0⟩ : State)

theorem tour_admissible : (configMachine api).Admissible start tour :=
  ⟨trivial, trivial, rfl, rfl, rfl, rfl, rfl, rfl, rfl, ⟨rfl, rfl⟩, rfl, rfl, rfl, rfl, rfl, rfl,
    trivial⟩

end ConfigTable

theorem sockets_hold_configurations_tour :
    ∃ events, (configMachine ConfigTable.api).Explained (ConfigExplains ConfigTable.view)
        ConfigTable.start ConfigTable.tour events ∧
      ((configMachine ConfigTable.api).run ConfigTable.start ConfigTable.tour).values
        ConfigTable.view = (valueMachine SocketConfig).batch.run .empty events := by
  obtain ⟨⟨events, hexplained, _, hrun⟩, _⟩ := sockets_hold_configurations ConfigTable.laws
    (⟨⟨[], 3⟩, fun _ => ConfigTable.fresh 0⟩ : ConfigTable.State) ConfigTable.tour_admissible
  exact ⟨events, hexplained, hrun⟩

end CpperoMQ
