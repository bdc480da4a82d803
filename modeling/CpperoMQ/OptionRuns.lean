import CpperoMQ.Runs
import CpperoMQ.SocketOptions

/-!
# Runs of option calls

A caller remembers, for every option, the value it was last set to with success.
After any calls in any order the getters give what is remembered, except where
the type named in an accessor does not have the size of libzmq's option: the two
boolean getters read one byte of an `int`, and the maximum inbound message size
is an `int64_t` accessed as an `int` both ways.
-/
namespace CpperoMQ
open Effects Effects.Exec

namespace SocketOption

instance : (o : SocketOption) → Scalar o.Value
  | immediate | ipv6 => inferInstanceAs (Scalar Bool)
  | ioThreadAffinity => inferInstanceAs (Scalar UInt64)
  | backlog | handshakeInterval | maxReconnectInterval | multicastRate
  | multicastRecoveryInterval | reconnectInterval | lingerPeriod | multicastHops
  | sendBufferSize | sendHighWaterMark | sendTimeout | maxInboundMessageSize
  | receiveBufferSize | receiveHighWaterMark | receiveTimeout => inferInstanceAs (Scalar Int32)

/-- The bytes a setter passes for a value. -/
def bytes : (o : SocketOption) → o.Value → Bytes
  | immediate, b | ipv6, b => Scalar.write (if b then 1 else 0 : Int32)
  | ioThreadAffinity, v => Scalar.write (T := UInt64) v
  | backlog, v | handshakeInterval, v | maxReconnectInterval, v | multicastRate, v
  | multicastRecoveryInterval, v | reconnectInterval, v | lingerPeriod, v | multicastHops, v
  | sendBufferSize, v | sendHighWaterMark, v | sendTimeout, v | maxInboundMessageSize, v
  | receiveBufferSize, v | receiveHighWaterMark, v | receiveTimeout, v =>
    Scalar.write (T := Int32) v

section Accessors
variable {A : OptionApi} (this : Socket)

/-- All getters are the template at the accessor's type. -/
theorem get_eq (o : SocketOption) :
    (o.get this : OptionAction A o.Value) = this.getSocketOption o.Value o.code := by
  cases o <;> rfl

theorem set_eq (o : SocketOption) (v : o.Value) :
    (o.set this v : OptionAction A Unit) = this.setSocketOptionBytes o.code (o.bytes v) := by
  cases o <;> rfl

end Accessors

/-- The accessor types whose size is not that of the option. -/
theorem size_eq_iff (o : SocketOption) : Scalar.size o.Value = o.cellType.size ↔
    o ≠ immediate ∧ o ≠ ipv6 ∧ o ≠ maxInboundMessageSize := by
  cases o <;> decide

theorem length_bytes_iff (o : SocketOption) (v : o.Value) :
    (o.bytes v).length = o.cellType.size ↔ o ≠ maxInboundMessageSize := by
  cases o <;> simp [bytes, Scalar.length_write, Scalar.size, cellType, CellType.size]

/-- What a setter wrote reads back as the value, where the getter has the setter's type. -/
theorem load_bytes {o : SocketOption} (himmediate : o ≠ immediate) (hipv6 : o ≠ ipv6)
    (v : o.Value) : Scalar.load (o.bytes v) = v := by
  cases o with
  | immediate => exact absurd rfl himmediate
  | ipv6 => exact absurd rfl hipv6
  | _ => exact Scalar.load_write v

theorem value_int (v : Int32) : CellType.int.value (Scalar.write v) = v.toInt := by
  have hload : (Scalar.load (Scalar.write v) : Int32).toInt = v.toInt := by
    rw [Scalar.load_write]
  exact hload

theorem value_uint64 (v : UInt64) : CellType.uint64.value (Scalar.write v) = v.toNat := by
  have hlt : v.toNat < 256 ^ 8 := v.toBitVec.isLt
  change ((numberOf (bytesOf 8 v.toNat) : ℕ) : ℤ) = v.toNat
  rw [numberOf_bytesOf, Nat.mod_eq_of_lt hlt]

/-- libzmq sees the number the caller meant. -/
theorem value_bytes {o : SocketOption} (hmax : o ≠ maxInboundMessageSize) (v : o.Value) :
    o.cellType.value (o.bytes v) = o.number v := by
  cases o with
  | immediate => cases v <;> exact value_int _
  | ipv6 => cases v <;> exact value_int _
  | ioThreadAffinity => exact value_uint64 v
  | maxInboundMessageSize => exact absurd rfl hmax
  | _ => exact value_int v

end SocketOption

/-! ### One call -/

section Calls
open SocketOption
variable {A : OptionApi} {V : A.View} {socket : Socket} {h : Handle} {σ : A.State}

theorem get_spec (hV : V.Laws) (hs : socket.mSocket = some h) (hopen : V.isOpen σ h)
    {o : SocketOption} (hsize : Scalar.size o.Value = o.cellType.size) :
    ∃ σ', o.get socket σ = (.returned (Scalar.load (V.cell σ h o)), σ') ∧ V.Same σ σ' := by
  obtain ⟨σ', hget, hsame⟩ := hV.get h o σ hopen
  refine ⟨σ', ?_, hsame⟩
  rw [get_eq]
  simp [Socket.getSocketOption, Socket.getSocketOptionBytes, Exec.bind, zmqGetsockopt, hs, hsize,
    hget]

theorem get_refused (hV : V.Laws) (hs : socket.mSocket = some h) (hopen : V.isOpen σ h)
    {o : SocketOption} (hsize : Scalar.size o.Value ≠ o.cellType.size) :
    ∃ e σ', o.get socket σ = (.threw e, σ') ∧ V.Same σ σ' := by
  obtain ⟨rc, bytes, σ', hget, hrc, hsame⟩ := hV.getRefused h o _ σ hopen hsize
  refine ⟨⟨A.errno σ'⟩, σ', ?_, hsame⟩
  rw [get_eq]
  simp [Socket.getSocketOption, Socket.getSocketOptionBytes, Exec.bind, zmqGetsockopt, hs, hget,
    hrc, raiseOptionError]

/-- A setter stores the value and returns, or throws and changes nothing. -/
theorem set_spec (hV : V.Laws) (hs : socket.mSocket = some h) (hopen : V.isOpen σ h)
    (o : SocketOption) (v : o.Value) :
    (∃ σ', o.set socket v σ = (.returned (), σ') ∧ o ≠ maxInboundMessageSize ∧
      V.Stored σ h o (o.bytes v) σ') ∨
    ∃ e σ', o.set socket v σ = (.threw e, σ') ∧ V.Same σ σ' ∧
      (o = maxInboundMessageSize ∨ ¬V.inRange o (o.number v)) := by
  rw [set_eq]
  obtain ⟨σ', hset, hlength, hstored⟩ | ⟨rc, σ', hset, hrc, hsame, hrefused⟩ :=
    hV.set h o (o.bytes v) σ hopen
  · rw [← hs] at hset
    exact .inl ⟨σ', setSocketOptionBytes_of_set hset, (length_bytes_iff o v).mp hlength, hstored⟩
  · rw [← hs] at hset
    refine .inr ⟨⟨A.errno σ'⟩, σ', setSocketOptionBytes_of_refused hset hrc, hsame, ?_⟩
    by_cases hmax : o = maxInboundMessageSize
    · exact .inl hmax
    · refine .inr fun hrange => hrefused ⟨(length_bytes_iff o v).mpr hmax, ?_⟩
      rwa [value_bytes hmax]

end Calls

/-! ### Runs -/

/-- The state of libzmq, and the values the caller expects the options to have. -/
structure OptionRun (A : OptionApi) where
  zmq : A.State
  store : (o : SocketOption) → o.Value

inductive OptionCall where
  | get (o : SocketOption)
  | set (o : SocketOption) (v : o.Value)

namespace OptionCall
variable {A : OptionApi}

/-- The caller remembers the value of a successful set. -/
def perform (socket : Socket) (s : OptionRun A) : OptionCall → OptionRun A
  | .get o => { s with zmq := (o.get socket s.zmq).2 }
  | .set o v =>
    match o.set socket v s.zmq with
    | (.returned _, σ) => ⟨σ, Function.update s.store o v⟩
    | (_, σ) => { s with zmq := σ }

/-- A getter returns what was last set; a setter returns, or the value is out of
range and it throws and leaves every option unchanged. -/
def Meets (V : A.View) (socket : Socket) (s : OptionRun A) : OptionCall → Prop
  | .get o => (o.get socket s.zmq).1 = .returned (s.store o) ∧
    V.cell (o.get socket s.zmq).2 = V.cell s.zmq
  | .set o v => (o.set socket v s.zmq).1 = .returned () ∨
    ((∃ e, (o.set socket v s.zmq).1 = .threw e) ∧ ¬V.inRange o (o.number v) ∧
      V.cell (o.set socket v s.zmq).2 = V.cell s.zmq)

/-- The call does not need an option to be of another size than it is. -/
def FitsCell (V : A.View) : OptionCall → Prop
  | .get o => o ≠ .immediate ∧ o ≠ .ipv6 ∧ o ≠ .maxInboundMessageSize
  | .set o v => o = .maxInboundMessageSize → ¬V.inRange o (o.number v)

end OptionCall

def optionMachine (A : OptionApi) (socket : Socket) : Machine (OptionRun A) OptionCall where
  step s call := call.perform socket s
  Allowed _ _ := True

section Runs
open SocketOption
variable {A : OptionApi} {V : A.View} {socket : Socket} {h : Handle} {s : OptionRun A}

/-- The socket is open, and its options are what the caller remembers. Nothing is
said about the maximum inbound message size, which no call can change. -/
structure OptionRun.Remembers (V : A.View) (h : Handle) (s : OptionRun A) : Prop where
  isOpen : V.isOpen s.zmq h
  cells : ∀ o, o ≠ maxInboundMessageSize → V.cell s.zmq h o = o.bytes (s.store o)

theorem OptionRun.Remembers.same (hR : s.Remembers V h) {σ : A.State} (hsame : V.Same s.zmq σ) :
    ({ s with zmq := σ } : OptionRun A).Remembers V h := by
  constructor
  case isOpen =>
    change V.isOpen σ h
    rw [hsame.1]
    exact hR.isOpen
  case cells =>
    intro o ho
    change V.cell σ h o = _
    rw [hsame.2]
    exact hR.cells o ho

theorem OptionRun.Remembers.stored (hR : s.Remembers V h) {o : SocketOption} {v : o.Value}
    {σ : A.State} (hstored : V.Stored s.zmq h o (o.bytes v) σ) :
    (⟨σ, Function.update s.store o v⟩ : OptionRun A).Remembers V h := by
  constructor
  case isOpen =>
    change V.isOpen σ h
    rw [hstored.1]
    exact hR.isOpen
  case cells =>
    intro p hp
    change V.cell σ h p = p.bytes (Function.update s.store o v p)
    rw [hstored.2 h p]
    by_cases hpo : p = o
    · subst hpo
      rw [if_pos ⟨rfl, rfl⟩, Function.update_self]
    · rw [if_neg fun hh => hpo hh.2, Function.update_of_ne hpo]
      exact hR.cells p hp

theorem remembers_step (hV : V.Laws) (hs : socket.mSocket = some h) (hR : s.Remembers V h)
    (call : OptionCall) : (call.perform socket s).Remembers V h := by
  cases call with
  | get o =>
    by_cases hsize : Scalar.size o.Value = o.cellType.size
    · obtain ⟨σ, hget, hsame⟩ := get_spec hV hs hR.isOpen hsize
      rw [OptionCall.perform, hget]
      exact hR.same hsame
    · obtain ⟨e, σ, hget, hsame⟩ := get_refused hV hs hR.isOpen hsize
      rw [OptionCall.perform, hget]
      exact hR.same hsame
  | set o v =>
    obtain ⟨σ, hset, _, hstored⟩ | ⟨e, σ, hset, hsame, _⟩ := set_spec hV hs hR.isOpen o v
    · simp only [OptionCall.perform, hset]
      exact hR.stored hstored
    · simp only [OptionCall.perform, hset]
      exact hR.same hsame

theorem remembers_run (hV : V.Laws) (hs : socket.mSocket = some h) (hR : s.Remembers V h)
    (calls : List OptionCall) : ((optionMachine A socket).run s calls).Remembers V h := by
  induction calls generalizing s with
  | nil => exact hR
  | cons call calls ih => exact ih (remembers_step hV hs hR call)

theorem get_meets_iff (hV : V.Laws) (hs : socket.mSocket = some h) (hR : s.Remembers V h)
    (o : SocketOption) : (OptionCall.get o).Meets V socket s ↔ (OptionCall.get o).FitsCell V := by
  constructor
  · intro hmeets
    by_contra hfits
    have hsize := fun hh => hfits ((size_eq_iff o).mp hh)
    obtain ⟨e, σ, hget, _⟩ := get_refused hV hs hR.isOpen hsize
    have hreturned := hmeets.1
    rw [hget] at hreturned
    cases hreturned
  · intro hfits
    obtain ⟨σ, hget, hsame⟩ := get_spec hV hs hR.isOpen ((size_eq_iff o).mpr hfits)
    rw [hR.cells o hfits.2.2, load_bytes hfits.1 hfits.2.1] at hget
    constructor
    · exact congrArg Prod.fst hget
    · rw [hget]
      exact hsame.2

theorem set_meets_iff (hV : V.Laws) (hs : socket.mSocket = some h) (hR : s.Remembers V h)
    (o : SocketOption) (v : o.Value) :
    (OptionCall.set o v).Meets V socket s ↔ (OptionCall.set o v).FitsCell V := by
  obtain ⟨σ, hset, hmax, _⟩ | ⟨e, σ, hset, hsame, hrefused⟩ := set_spec hV hs hR.isOpen o v
  · refine iff_of_true (.inl ?_) fun ho => absurd ho hmax
    rw [hset]
  · constructor
    · rintro (hreturned | ⟨_, hrange, _⟩) ho
      · rw [hset] at hreturned
        cases hreturned
      · exact hrange
    · intro hfits
      refine .inr ⟨⟨e, by rw [hset]⟩, ?_, ?_⟩
      · exact hrefused.elim hfits fun hh => hh
      · rw [hset]
        exact hsame.2

/-- In every run of option calls on an open socket, all calls do what they should
if and only if none of them reads a boolean option or the maximum inbound message
size, or sets the latter to a value in range; and so it is with any call made after
any run. -/
theorem option_calls_meet_iff (hV : V.Laws) (hs : socket.mSocket = some h)
    (hR : s.Remembers V h) (calls : List OptionCall) :
    ((∀ pre call, pre ++ [call] <+: calls →
        call.Meets V socket ((optionMachine A socket).run s pre)) ↔
      ∀ call ∈ calls, call.FitsCell V) ∧
    ∀ call : OptionCall, call.Meets V socket ((optionMachine A socket).run s calls) ↔
      call.FitsCell V := by
  have hpoint : ∀ (calls : List OptionCall) (call : OptionCall),
      call.Meets V socket ((optionMachine A socket).run s calls) ↔ call.FitsCell V := by
    intro calls call
    have hR' := remembers_run hV hs hR calls
    cases call with
    | get o => exact get_meets_iff hV hs hR' o
    | set o v => exact set_meets_iff hV hs hR' o v
  refine ⟨⟨fun hall call hmem => ?_, fun hall pre call hpre => ?_⟩, hpoint calls⟩
  · obtain ⟨pre, post, rfl⟩ := List.append_of_mem hmem
    have hpre : pre ++ [call] <+: pre ++ call :: post := ⟨post, by simp⟩
    exact (hpoint pre call).mp (hall pre call hpre)
  · have hmem : call ∈ calls := hpre.subset (by simp)
    exact (hpoint pre call).mpr (hall call hmem)

end Runs

/-! ### A table of option cells -/

namespace OptionTable
open SocketOption

/-- The options of the one socket, whose handle is 1. -/
abbrev State := SocketOption → Bytes

def all : List SocketOption :=
  [backlog, handshakeInterval, immediate, ioThreadAffinity, ipv6, maxReconnectInterval,
    multicastRate, multicastRecoveryInterval, reconnectInterval, lingerPeriod, multicastHops,
    sendBufferSize, sendHighWaterMark, sendTimeout, maxInboundMessageSize, receiveBufferSize,
    receiveHighWaterMark, receiveTimeout]

def ofCode (option : ℤ) : Option SocketOption := all.find? fun o => o.code = option

def inRange : SocketOption → ℤ → Bool
  | immediate, x | ipv6, x => x = 0 ∨ x = 1
  | multicastRate, x | multicastHops, x => 0 < x
  | ioThreadAffinity, _ => true
  | _, x => -1 ≤ x

def accepts (o : SocketOption) (value : Bytes) : Bool :=
  value.length = o.cellType.size ∧ inRange o (o.cellType.value value)

def api : OptionApi where
  State := State
  setsockopt socket option value σ :=
    match socket, ofCode option with
    | some 1, some o => if accepts o value then (0, Function.update σ o value) else (-1, σ)
    | _, _ => (-1, σ)
  getsockopt socket option valueLength σ :=
    match socket, ofCode option with
    | some 1, some o => if valueLength = o.cellType.size then ((0, σ o), σ) else ((-1, []), σ)
    | _, _ => ((-1, []), σ)
  errno _ := 22

def view : api.View where
  isOpen _ h := h = 1
  cell σ h o := if h = 1 then σ o else []
  inRange o x := inRange o x = true

theorem ofCode_code (o : SocketOption) : ofCode o.code = some o := by cases o <;> rfl

theorem stored (σ : State) (o : SocketOption) (value : Bytes) :
    view.Stored σ 1 o value (Function.update σ o value) := by
  refine ⟨rfl, fun g p => ?_⟩
  change (if g = 1 then Function.update σ o value p else []) =
    if g = 1 ∧ p = o then value else if g = 1 then σ p else []
  by_cases hp : p = o
  · subst hp
    rw [Function.update_self]
    by_cases hg : g = 1 <;> simp [hg]
  · rw [Function.update_of_ne hp]
    simp [hp]

theorem laws : view.Laws := by
  constructor
  case get =>
    rintro h o σ rfl
    refine ⟨σ, ?_, rfl, rfl⟩
    simp [api, view, ofCode_code]
  case getRefused =>
    rintro h o n σ rfl hn
    refine ⟨-1, [], σ, ?_, by decide, rfl, rfl⟩
    simp [api, ofCode_code, hn]
  case set =>
    rintro h o value σ rfl
    by_cases hacc : accepts o value = true
    · refine .inl ⟨Function.update σ o value, ?_, ?_, stored σ o value⟩
      · simp [api, ofCode_code, hacc]
      · exact (of_decide_eq_true hacc).1
    · refine .inr ⟨-1, σ, by simp [api, ofCode_code, hacc], by decide, ⟨rfl, rfl⟩, ?_⟩
      intro hh
      exact hacc (decide_eq_true hh)

/-- The values libzmq documents as defaults. -/
def defaults : (o : SocketOption) → o.Value
  | backlog => (100 : Int32)
  | handshakeInterval => (30000 : Int32)
  | immediate => false
  | ioThreadAffinity => (0 : UInt64)
  | ipv6 => false
  | maxReconnectInterval => (0 : Int32)
  | multicastRate => (100 : Int32)
  | multicastRecoveryInterval => (10000 : Int32)
  | reconnectInterval => (100 : Int32)
  | lingerPeriod => (-1 : Int32)
  | multicastHops => (1 : Int32)
  | sendBufferSize => (0 : Int32)
  | sendHighWaterMark => (1000 : Int32)
  | sendTimeout => (-1 : Int32)
  | maxInboundMessageSize => (-1 : Int32)
  | receiveBufferSize => (0 : Int32)
  | receiveHighWaterMark => (1000 : Int32)
  | receiveTimeout => (-1 : Int32)

/-- A new socket; its maximum inbound message size is the `int64_t` -1. -/
def start : OptionRun api :=
  ⟨fun o => if o = maxInboundMessageSize then bytesOf 8 (2 ^ 64 - 1) else o.bytes (defaults o),
    defaults⟩

theorem start_remembers : start.Remembers view 1 := by
  constructor
  case isOpen => rfl
  case cells =>
    intro o ho
    simp [view, start, ho]

/-- The third call is refused, since there has to be at least one hop. -/
def calls : List OptionCall :=
  [.set lingerPeriod (250 : Int32), .set ioThreadAffinity (0x8000000000000001 : UInt64),
    .set multicastHops (0 : Int32), .get lingerPeriod, .set immediate true, .get multicastHops,
    .set lingerPeriod (-1 : Int32)]

/-- The state after some calls. -/
def after (calls : List OptionCall) : OptionRun api :=
  (optionMachine api ⟨some 1⟩).run start calls

end OptionTable

/-- On a new socket `getImmediate` throws, and so does `setMaxInboundMessageSize(1000)`. -/
theorem option_calls_throw :
    (Socket.getImmediate ⟨some 1⟩ OptionTable.start.zmq).1 = .threw ⟨22⟩ ∧
      (ReceivingSocket.setMaxInboundMessageSize ⟨some 1⟩ 1000 OptionTable.start.zmq).1 =
        .threw ⟨22⟩ ∧
      OptionTable.view.inRange .maxInboundMessageSize 1000 ∧
      ¬(OptionCall.get .immediate).Meets OptionTable.view ⟨some 1⟩ OptionTable.start := by
  have hget : (Socket.getImmediate ⟨some 1⟩ OptionTable.start.zmq).1 = .threw ⟨22⟩ := by
    decide +kernel
  have hrange : OptionTable.inRange .maxInboundMessageSize 1000 = true := by decide
  refine ⟨hget, by decide +kernel, hrange, fun hmeets => ?_⟩
  have hreturned := hmeets.1
  change (Socket.getImmediate ⟨some 1⟩ OptionTable.start.zmq).1 = _ at hreturned
  rw [hget] at hreturned
  cases hreturned

theorem option_calls_meet_iff_table :
    (SendingSocket.getMulticastHops ⟨some 1⟩ (OptionTable.after OptionTable.calls).zmq).1 =
      .returned 1 := by
  have hrun := option_calls_meet_iff OptionTable.laws rfl
    OptionTable.start_remembers OptionTable.calls
  have hmeets := (hrun.2 (.get .multicastHops)).mpr (by simp [OptionCall.FitsCell])
  have hstore : (OptionTable.after OptionTable.calls).store .multicastHops = (1 : Int32) := by
    decide +kernel
  exact hmeets.1.trans (congrArg Outcome.returned hstore)

end CpperoMQ
