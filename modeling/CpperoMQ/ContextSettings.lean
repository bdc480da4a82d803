import CpperoMQ.ContextOwnership
import CpperoMQ.OwnedValues
import CpperoMQ.SocketOptions

/-!
# Context settings

The accessors of `Context`. They pass on to libzmq whatever pointer the object
has, so on a moved-from object they are calls on a null pointer, which libzmq
refuses. What the manual says about settings is `View.Laws`: a new context has
the defaults, a value that is accepted can be read back, and one context's
settings are nothing to another.
-/
namespace CpperoMQ
open Effects Effects.Exec

def ZMQ_SOCKET_LIMIT : ℤ := 3
def ZMQ_BLOCKY : ℤ := 70

/-- `zmq_ctx_set` on a null pointer is a function of its own here. -/
structure SettingApi extends ContextApi where
  ctxSetNull : ℤ → ℤ → State → ℤ × State
  ctxGet : Option ContextHandle → ℤ → State → ℤ × State

section Calls
variable {A : SettingApi}

def zmqCtxSetNull (name value : ℤ) : ContextAction A.toContextApi ℤ := fun w =>
  match A.ctxSetNull name value w.zmq with
  | (rc, σ) => (.returned rc, { w with zmq := σ })

def zmqCtxGet (context : Option ContextHandle) (name : ℤ) : ContextAction A.toContextApi ℤ :=
  fun w =>
    match A.ctxGet context name w.zmq with
    | (value, σ) => (.returned value, { w with zmq := σ })

end Calls

namespace Context
variable {A : SettingApi}

/-- `Context::getContextSetting` -/
def getContextSetting (this : ObjId) (settingName : ℤ) : ContextAction A.toContextApi ℤ := do
  let mContext ← Exec.read fun w => w.mContext this
  let result ← zmqCtxGet mContext settingName
  if result < 0 then raiseContextError else pure result

/-- `Context::setContextSetting` of an object that may own no context. -/
def changeContextSetting (this : ObjId) (settingName settingValue : ℤ) :
    ContextAction A.toContextApi Unit := do
  let mContext ← Exec.read fun w => w.mContext this
  match mContext with
  | some context => setContextSetting context settingName settingValue
  | none => do
    let rc ← zmqCtxSetNull settingName settingValue
    if rc ≠ 0 then raiseContextError else pure ()

def getIoThreadCount (this : ObjId) : ContextAction A.toContextApi ℤ :=
  getContextSetting this ZMQ_IO_THREADS

def getMaxSocketCount (this : ObjId) : ContextAction A.toContextApi ℤ :=
  getContextSetting this ZMQ_MAX_SOCKETS

def getMaxConfigurableSocketCount (this : ObjId) : ContextAction A.toContextApi ℤ :=
  getContextSetting this ZMQ_SOCKET_LIMIT

def isIPv6Enabled (this : ObjId) : ContextAction A.toContextApi Bool := do
  let value ← getContextSetting this ZMQ_IPV6
  pure (decide (1 = value))

def isBlocky (this : ObjId) : ContextAction A.toContextApi Bool := do
  let value ← getContextSetting this ZMQ_BLOCKY
  pure (decide (1 = value))

def setIPv6Enabled (this : ObjId) (enabled : Bool) : ContextAction A.toContextApi Unit :=
  changeContextSetting this ZMQ_IPV6 (if enabled then 1 else 0)

def setBlocky (this : ObjId) (blocky : Bool) : ContextAction A.toContextApi Unit :=
  changeContextSetting this ZMQ_BLOCKY (if blocky then 1 else 0)

end Context

/-! ### What libzmq keeps -/

inductive ContextSetting where
  | ioThreads
  | maxSockets
  | socketLimit
  | ipv6
  | blocky
  deriving Repr, DecidableEq

/-- The option argument of libzmq's functions. -/
def ContextSetting.code : ContextSetting → ℤ
  | ioThreads => ZMQ_IO_THREADS
  | maxSockets => ZMQ_MAX_SOCKETS
  | socketLimit => ZMQ_SOCKET_LIMIT
  | ipv6 => ZMQ_IPV6
  | blocky => ZMQ_BLOCKY

/-- The values that the accessors give a setting: a flag is 0 or 1. -/
def ContextSetting.Given (s : ContextSetting) (value : ℤ) : Prop :=
  s = .ipv6 ∨ s = .blocky → value = 0 ∨ value = 1

theorem ContextSetting.given_of_number {s : ContextSetting} (h : s ≠ .ipv6 ∧ s ≠ .blocky)
    (value : ℤ) : s.Given value := fun hs => absurd hs (not_or.mpr h)

/-- The settings of one context. -/
abbrev Settings := ContextSetting → ℤ

namespace SettingApi
variable {A : SettingApi}

structure View (A : SettingApi) extends ContextApi.View A.toContextApi where
  settings : A.State → ContextHandle → Settings
  defaults : Settings
  /-- The values a setting can be given. -/
  accepts : ContextSetting → ℤ → Prop

namespace View
variable (V : A.View)

/-- No context was opened or closed and no setting changed. -/
def Same (σ σ' : A.State) : Prop := V.isOpen σ' = V.isOpen σ ∧ V.settings σ' = V.settings σ

/-- On an open context a setting can be read and given a value that it accepts; on a
null pointer both calls fail. A flag that is set to another value than 0 and 1 is
outside these laws, since libzmq stores 1 for it. -/
structure Laws : Prop extends V.toView.Laws where
  settingsNew : ∀ σ c σ', A.ctxNew σ = (some c, σ') →
    V.settings σ' = Function.update (V.settings σ) c V.defaults
  settingsNull : ∀ σ σ', A.ctxNew σ = (none, σ') → V.settings σ' = V.settings σ
  settingsSet : ∀ c s value σ, V.isOpen σ c → s.Given value →
    ∃ rc σ', A.ctxSet c s.code value σ = (rc, σ') ∧
    (rc = 0 ∧ V.accepts s value ∧
        V.settings σ' = Function.update (V.settings σ) c
          (Function.update (V.settings σ c) s value) ∨
      rc ≠ 0 ∧ ¬V.accepts s value ∧ V.settings σ' = V.settings σ)
  settingsTerm : ∀ c σ g, g ≠ c → V.settings (A.ctxTerm c σ).2 g = V.settings σ g
  setNull : ∀ name value σ, ∃ rc σ', A.ctxSetNull name value σ = (rc, σ') ∧ rc ≠ 0 ∧ V.Same σ σ'
  get : ∀ c s σ, V.isOpen σ c → ∃ σ', A.ctxGet (some c) s.code σ = (V.settings σ c s, σ') ∧
    0 ≤ V.settings σ c s ∧ V.Same σ σ'
  getNull : ∀ name σ, ∃ value σ', A.ctxGet none name σ = (value, σ') ∧ value < 0 ∧ V.Same σ σ'

end View
end SettingApi

/-! ### One call -/

section Calls
variable {A : SettingApi} {V : A.View} {w : ContextWorld A.toContextApi} {this : ObjId}
  {c : ContextHandle}

theorem getContextSetting_of_open (hV : V.Laws) (hm : w.mContext this = some c)
    (hopen : V.isOpen w.zmq c) (s : ContextSetting) :
    ∃ σ, Context.getContextSetting this s.code w =
        (.returned (V.settings w.zmq c s), { w with zmq := σ }) ∧ V.Same w.zmq σ := by
  obtain ⟨σ, hget, hnonneg, hsame⟩ := hV.get c s w.zmq hopen
  refine ⟨σ, ?_, hsame⟩
  simp [Context.getContextSetting, Exec.bind, zmqCtxGet, hm, hget, Int.not_lt.mpr hnonneg]

theorem getContextSetting_of_null (hV : V.Laws) (hm : w.mContext this = none) (name : ℤ) :
    ∃ e σ, Context.getContextSetting this name w = (.threw e, { w with zmq := σ }) ∧
      V.Same w.zmq σ := by
  obtain ⟨value, σ, hget, hneg, hsame⟩ := hV.getNull name w.zmq
  refine ⟨⟨A.errno σ⟩, σ, ?_, hsame⟩
  simp [Context.getContextSetting, Exec.bind, zmqCtxGet, hm, hget, hneg, raiseContextError]

/-- A setting is changed if the value is accepted, and if not the call throws. -/
theorem setContextSetting_of_open (hV : V.Laws) (hopen : V.isOpen w.zmq c) {s : ContextSetting}
    {value : ℤ} (hgiven : s.Given value) :
    (∃ σ, Context.setContextSetting c s.code value w =
        (.returned (), w.record σ (.set c s.code value 0)) ∧
      V.accepts s value ∧ V.isOpen σ = V.isOpen w.zmq ∧
      V.settings σ = Function.update (V.settings w.zmq) c
        (Function.update (V.settings w.zmq c) s value)) ∨
    ∃ e rc σ, Context.setContextSetting c s.code value w =
        (.threw e, w.record σ (.set c s.code value rc)) ∧
      ¬V.accepts s value ∧ V.Same w.zmq σ := by
  obtain ⟨rc, σ, hset, hcases⟩ := hV.settingsSet c s value w.zmq hopen hgiven
  have hisOpen : V.isOpen σ = V.isOpen w.zmq := by
    funext g
    have hh := hV.set c s.code value w.zmq g
    rw [hset] at hh
    exact propext hh
  obtain ⟨rfl, haccepts, hsettings⟩ | ⟨hrc, hrefuses, hsettings⟩ := hcases
  · refine .inl ⟨σ, ?_, haccepts, hisOpen, hsettings⟩
    simp [Context.setContextSetting, Exec.bind, zmqCtxSet, hset]
  · refine .inr ⟨⟨A.errno σ⟩, rc, σ, ?_, hrefuses, hisOpen, hsettings⟩
    simp [Context.setContextSetting, Exec.bind, zmqCtxSet, hset, hrc, raiseContextError,
      ContextWorld.record]

theorem changeContextSetting_of_null (hV : V.Laws) (hm : w.mContext this = none)
    (name value : ℤ) :
    ∃ e σ, Context.changeContextSetting this name value w = (.threw e, { w with zmq := σ }) ∧
      V.Same w.zmq σ := by
  obtain ⟨rc, σ, hset, hrc, hsame⟩ := hV.setNull name value w.zmq
  refine ⟨⟨A.errno σ⟩, σ, ?_, hsame⟩
  simp [Context.changeContextSetting, Exec.bind, zmqCtxSetNull, hm, hset, hrc,
    raiseContextError]

theorem changeContextSetting_of_some (hm : w.mContext this = some c) (name value : ℤ) :
    Context.changeContextSetting (A := A) this name value w =
      Context.setContextSetting c name value w := by
  simp [Context.changeContextSetting, Exec.bind, hm]

end Calls
end CpperoMQ
