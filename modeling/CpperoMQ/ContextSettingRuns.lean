import CpperoMQ.ContextSettings
import CpperoMQ.ObjectOperations

/-!
# Runs over contexts and their settings

Contexts are created, moved, assigned, destroyed and configured in any order,
constructors that leak their handle included. All along, a `Context` object
behaves as one that holds its settings itself: they move with it, are exchanged
by assignment, change only through it, and a moved-from object has none.
-/
namespace CpperoMQ
open Effects Effects.Exec OwnedValues

inductive ContextQuery where
  | ioThreadCount
  | maxSocketCount
  | maxConfigurableSocketCount
  | ipv6Enabled
  | blocky
  deriving Repr, DecidableEq

inductive ContextAnswer where
  | number (n : ℤ)
  | flag (b : Bool)
  deriving Repr, DecidableEq

inductive ContextFlag where
  | ipv6Enabled
  | blocky
  deriving Repr, DecidableEq

section Accessors
variable {A : SettingApi} (this : ObjId)

/-- The getter of `Context` for each query. -/
def ContextQuery.ask : ContextQuery → ContextAction A.toContextApi ContextAnswer
  | ioThreadCount => do
    let n ← Context.getIoThreadCount this
    pure (.number n)
  | maxSocketCount => do
    let n ← Context.getMaxSocketCount this
    pure (.number n)
  | maxConfigurableSocketCount => do
    let n ← Context.getMaxConfigurableSocketCount this
    pure (.number n)
  | ipv6Enabled => do
    let b ← Context.isIPv6Enabled this
    pure (.flag b)
  | blocky => do
    let b ← Context.isBlocky this
    pure (.flag b)

/-- The setter of `Context` for each flag. -/
def ContextFlag.set : ContextFlag → Bool → ContextAction A.toContextApi Unit
  | ipv6Enabled => Context.setIPv6Enabled this
  | blocky => Context.setBlocky this

def ContextQuery.setting : ContextQuery → ContextSetting
  | ioThreadCount => .ioThreads
  | maxSocketCount => .maxSockets
  | maxConfigurableSocketCount => .socketLimit
  | ipv6Enabled => .ipv6
  | blocky => .blocky

/-- What a query gives for the value of its setting. -/
def ContextQuery.answer : ContextQuery → ℤ → ContextAnswer
  | ioThreadCount, n | maxSocketCount, n | maxConfigurableSocketCount, n => .number n
  | ipv6Enabled, n | blocky, n => .flag (decide (1 = n))

def ContextFlag.setting : ContextFlag → ContextSetting
  | ipv6Enabled => .ipv6
  | blocky => .blocky

/-- The number libzmq takes for a flag. -/
def flagValue (b : Bool) : ℤ := if b then 1 else 0

theorem ContextFlag.given (flag : ContextFlag) (b : Bool) : flag.setting.Given (flagValue b) := by
  cases b
  · exact fun _ => .inl rfl
  · exact fun _ => .inr rfl

theorem ContextQuery.ask_eq (query : ContextQuery) :
    (query.ask this : ContextAction A.toContextApi ContextAnswer) =
      (Context.getContextSetting this query.setting.code).bind fun n =>
        pure (query.answer n) := by
  cases query with
  | ioThreadCount => rfl
  | maxSocketCount => rfl
  | maxConfigurableSocketCount => rfl
  | ipv6Enabled => exact Exec.bind_assoc _ _ _
  | blocky => exact Exec.bind_assoc _ _ _

theorem ContextFlag.set_eq (flag : ContextFlag) (b : Bool) :
    (flag.set this b : ContextAction A.toContextApi Unit) =
      Context.changeContextSetting this flag.setting.code (flagValue b) := by
  cases flag <;> rfl

end Accessors

/-! ### Runs -/

inductive SettingOp where
  | object (op : ContextOp)
  | get (this : ObjId) (query : ContextQuery)
  | set (this : ObjId) (flag : ContextFlag) (value : Bool)
  deriving Repr, DecidableEq

namespace SettingOp
variable {A : SettingApi}

def perform (w : ContextWorld A.toContextApi) : SettingOp → ContextWorld A.toContextApi
  | object op => (op.perform w).2
  | get this query => (query.ask (A := A) this w).2
  | set this flag value => (flag.set (A := A) this value w).2

/-- The objects named are alive; they may have been moved from. -/
def Allowed (w : ContextWorld A.toContextApi) : SettingOp → Prop
  | object op => op.Allowed w
  | get this _ | set this _ _ => (w.contexts.get this).isSome = true

end SettingOp

def settingMachine (A : SettingApi) : Machine (ContextWorld A.toContextApi) SettingOp where
  step w op := op.perform (A := A) w
  Allowed w op := op.Allowed w

section Runs
variable {A : SettingApi} {V : A.View} {w w' : ContextWorld A.toContextApi} {this : ObjId}
  {c : ContextHandle} {io max : ℤ} {q : ObjectPool (Option Settings)}

/-- The settings of a context constructed with these arguments. -/
def SettingApi.View.configured (V : A.View) (io max : ℤ) : Settings :=
  Function.update (Function.update V.defaults .ioThreads io) .maxSockets max

/-- Every `Context` object with the settings of the context it owns. -/
def ContextWorld.values (V : A.View) (w : ContextWorld A.toContextApi) :
    ObjectPool (Option Settings) := seen Context.mContext w.contexts (V.settings w.zmq)

/-- What an operation came to, given what it returned or that it threw. -/
inductive SettingExplains (V : A.View) (w : ContextWorld A.toContextApi) :
    SettingOp → Event Settings → Prop where
  | built {io max : ℤ} : ((ContextOp.construct io max).perform w).1 = .returned () →
    V.accepts .ioThreads io → V.accepts .maxSockets max →
    SettingExplains V w (.object (.construct io max)) (.built (V.configured io max))
  | unbuilt {io max : ℤ} {e : Error} : ((ContextOp.construct io max).perform w).1 = .threw e →
    ((A.ctxNew w.zmq).1 = none ∨ ¬V.accepts .ioThreads io ∨ ¬V.accepts .maxSockets max) →
    SettingExplains V w (.object (.construct io max)) .nothing
  | moved {other : ObjId} : ((ContextOp.newMove other).perform w).1 = .returned () →
    SettingExplains V w (.object (.newMove other)) (.moved other)
  | assigned {this other : ObjId} :
    ((ContextOp.assignMove this other).perform w).1 = .returned () →
    SettingExplains V w (.object (.assignMove this other)) (.exchanged this other)
  | destroyed {this : ObjId} : ((ContextOp.destroy this).perform w).1 = .returned () →
    SettingExplains V w (.object (.destroy this)) (.destroyed this)
  | answered {this : ObjId} {query : ContextQuery} {settings : Settings} :
    (query.ask (A := A) this w).1 = .returned (query.answer (settings query.setting)) →
    SettingExplains V w (.get this query) (.observed this (some settings))
  | unanswered {this : ObjId} {query : ContextQuery} {e : Error} :
    (query.ask (A := A) this w).1 = .threw e →
    SettingExplains V w (.get this query) (.observed this none)
  | changed {this : ObjId} {flag : ContextFlag} {b : Bool} {settings : Settings} :
    (flag.set (A := A) this b w).1 = .returned () → V.accepts flag.setting (flagValue b) →
    SettingExplains V w (.set this flag b)
      (.changed this settings (Function.update settings flag.setting (flagValue b)))
  | refused {this : ObjId} {flag : ContextFlag} {b : Bool} {settings : Settings} {e : Error} :
    (flag.set (A := A) this b w).1 = .threw e → ¬V.accepts flag.setting (flagValue b) →
    SettingExplains V w (.set this flag b) (.observed this (some settings))
  | unset {this : ObjId} {flag : ContextFlag} {b : Bool} {e : Error} :
    (flag.set (A := A) this b w).1 = .threw e →
    SettingExplains V w (.set this flag b) (.observed this none)

/-- The invariant of runs: how the contexts there are look. -/
abbrev ContextWorld.Tracks (V : A.View) (w : ContextWorld A.toContextApi)
    (q : ObjectPool (Option Settings)) : Prop :=
  OwnedValues.Tracks Context.mContext (fun _ _ => True) (V.isOpen w.zmq) (V.settings w.zmq)
    w.contexts q

/-- Some step of the machine of values explains the operation. -/
def SettingStep (V : A.View) (w : ContextWorld A.toContextApi)
    (q : ObjectPool (Option Settings)) (op : SettingOp) : Prop :=
  ∃ e, SettingExplains V w op e ∧ e.Enabled q ∧
    (op.perform (A := A) w).Tracks V (e.apply q)

/-- Contexts that stay open with their settings. -/
abbrev ContextsKept (V : A.View) (σ σ' : A.State) : Prop :=
  Kept (V.isOpen σ) (V.settings σ) (V.isOpen σ') (V.settings σ')

/-- Both settings are accepted, or one is not and the settings of this context are not
known. -/
theorem configure_cases (hV : V.Laws) (hopen : V.isOpen w.zmq c) (io max : ℤ) :
    (∃ w', ContextWorld.configure c io max w = (.returned (), w') ∧ w'.contexts = w.contexts ∧
      V.isOpen w'.zmq = V.isOpen w.zmq ∧
      V.settings w'.zmq = Function.update (V.settings w.zmq) c (Function.update
        (Function.update (V.settings w.zmq c) .ioThreads io) .maxSockets max) ∧
      V.accepts .ioThreads io ∧ V.accepts .maxSockets max) ∨
    ∃ e w', ContextWorld.configure c io max w = (.threw e, w') ∧ w'.contexts = w.contexts ∧
      V.isOpen w'.zmq = V.isOpen w.zmq ∧
      (∃ settings, V.settings w'.zmq = Function.update (V.settings w.zmq) c settings) ∧
      (¬V.accepts .ioThreads io ∨ ¬V.accepts .maxSockets max) := by
  obtain ⟨σ, hio, hacc, hopen₁, hset₁⟩ | ⟨e, rc, σ, hio, hrefused, hsame⟩ :=
    setContextSetting_of_open hV hopen
      (ContextSetting.given_of_number (s := .ioThreads) (by decide) io)
  · have hopen' : V.isOpen (w.record σ (.set c ContextSetting.ioThreads.code io 0)).zmq c := by
      change V.isOpen σ c
      rwa [hopen₁]
    obtain ⟨σ', hmax, hacc', hopen₂, hset₂⟩ | ⟨e, rc, σ', hmax, hrefused, hsame⟩ :=
      setContextSetting_of_open hV hopen'
        (ContextSetting.given_of_number (s := .maxSockets) (by decide) max)
    · refine .inl ⟨_, (bind_of_returned hio _).trans hmax, rfl, hopen₂.trans hopen₁, ?_, hacc,
        hacc'⟩
      refine hset₂.trans ?_
      change Function.update (V.settings σ) c (Function.update (V.settings σ c) _ _) = _
      rw [hset₁, Function.update_self, Function.update_idem]
    · refine .inr ⟨e, _, (bind_of_returned hio _).trans hmax, rfl, hsame.1.trans hopen₁,
        ⟨_, hsame.2.trans hset₁⟩, .inr hrefused⟩
  · refine .inr ⟨e, _, bind_of_threw hio _, rfl, hsame.1, ⟨V.settings w.zmq c, ?_⟩,
      .inl hrefused⟩
    rw [Function.update_eq_self]
    exact hsame.2

/-- The constructor returns an object that owns a new context with the settings asked
for, or throws and leaves the contexts that there were as they were. -/
theorem construct_cases (hV : V.Laws) (w : ContextWorld A.toContextApi) (io max : ℤ) :
    (∃ c w', Context.construct (Context.new io max) w = (.returned w.contexts.next, w') ∧
      w'.contexts = w.contexts.alloc ⟨some c⟩ ∧ ¬V.isOpen w.zmq c ∧ V.isOpen w'.zmq c ∧
      ContextsKept V w.zmq w'.zmq ∧ V.settings w'.zmq c = V.configured io max ∧
      V.accepts .ioThreads io ∧ V.accepts .maxSockets max) ∨
    ∃ e w', Context.construct (Context.new io max) w = (.threw e, w') ∧
      w'.contexts = w.contexts ∧ ContextsKept V w.zmq w'.zmq ∧
      ((A.ctxNew w.zmq).1 = none ∨ ¬V.accepts .ioThreads io ∨ ¬V.accepts .maxSockets max) := by
  rcases hnew : A.ctxNew w.zmq with ⟨_ | c, σ⟩
  · refine .inr ⟨⟨A.errno σ⟩, w.record σ (.new none), ContextWorld.construct_of_null hnew io max,
      rfl, fun g hg => ?_, .inl rfl⟩
    exact ⟨(hV.null w.zmq σ hnew g).mpr hg, congrFun (hV.settingsNull w.zmq σ hnew) g⟩
  · obtain ⟨hfresh, hadds⟩ := hV.fresh w.zmq c σ hnew
    have hsettings := hV.settingsNew w.zmq c σ hnew
    have hkept : ContextsKept V w.zmq σ := by
      intro g hg
      have hgc : g ≠ c := by
        rintro rfl
        exact hfresh hg
      rw [hsettings, Function.update_of_ne hgc]
      exact ⟨(hadds g).mpr (.inl hg), rfl⟩
    have hopen : V.isOpen (w.record σ (.new (some c))).zmq c := (hadds c).mpr (.inr rfl)
    obtain ⟨w', hx, hcontexts, hopen', hset, hacc, hacc'⟩ |
      ⟨e, w', hx, hcontexts, hopen', ⟨settings, hset⟩, hrefused⟩ :=
      configure_cases hV hopen io max
    · have hplace : Context.construct (Context.new io max) w =
          (.returned w.contexts.next,
            { w' with contexts := w.contexts.alloc ⟨some c⟩ }) := by
        rw [ContextWorld.construct_of_new hnew, bind_of_returned hx, Context.place, hcontexts]
        rfl
      refine .inl ⟨c, _, hplace, rfl, hfresh, ?_, hkept.update hfresh hopen' hset, ?_, hacc, hacc'⟩
      · change V.isOpen w'.zmq c
        rwa [hopen']
      · change V.settings w'.zmq c = _
        rw [hset, Function.update_self]
        change Function.update (Function.update (V.settings σ c) _ _) _ _ = _
        rw [hsettings, Function.update_self]
        rfl
    · refine .inr ⟨e, w', ?_, hcontexts, hkept.update hfresh hopen' hset, .inr hrefused⟩
      rw [ContextWorld.construct_of_new hnew, bind_of_threw hx]

/-! ### Every operation -/

theorem settingStep_construct (hV : V.Laws) (hw : w.Tracks V q) (io max : ℤ) :
    SettingStep V w q (.object (.construct io max)) := by
  obtain ⟨c, w', hx, hcontexts, hfresh, hopen, hkept, hset, hacc, hacc'⟩ |
    ⟨e, w', hx, hcontexts, hkept, hwhy⟩ := construct_cases hV w io max
  · have hx' : (ContextOp.construct io max).perform w = (.returned (), w') :=
      discard_of_returned hx
    refine ⟨.built (V.configured io max), .built (by rw [hx']) hacc hacc', trivial, ?_⟩
    rw [SettingOp.perform, hx', ContextWorld.Tracks, hcontexts, ← hset]
    exact hw.built hkept hfresh hopen rfl trivial
  · have hx' : (ContextOp.construct io max).perform w = (.threw e, w') := discard_of_threw hx
    refine ⟨.nothing, .unbuilt (by rw [hx']) hwhy, trivial, ?_⟩
    rw [SettingOp.perform, hx', ContextWorld.Tracks, hcontexts]
    exact hw.kept hkept

theorem settingStep_move (hw : w.Tracks V q) {other : ObjId}
    (hlive : (w.contexts.get other).isSome = true) :
    SettingStep V w q (.object (.newMove other)) := by
  obtain ⟨o, ho, hx⟩ := ContextWorld.perform_newMove hlive
  refine ⟨.moved other, .moved (congrArg Prod.fst hx), hw.isSome ho, ?_⟩
  rw [SettingOp.perform, hx]
  exact hw.moved ho rfl rfl fun _ hh => hh

theorem settingStep_assign (hw : w.Tracks V q) {this other : ObjId}
    (hl : (w.contexts.get this).isSome = true) (hr : (w.contexts.get other).isSome = true) :
    SettingStep V w q (.object (.assignMove this other)) := by
  obtain ⟨o, u, ho, hu, hx⟩ := ContextWorld.perform_assignMove hl hr
  refine ⟨.exchanged this other, .assigned (congrArg Prod.fst hx),
    ⟨hw.isSome ho, hw.isSome hu⟩, ?_⟩
  rw [SettingOp.perform, hx]
  exact hw.exchanged ho hu rfl rfl (fun _ hh => hh) fun _ hh => hh

theorem settingStep_destroy (hV : V.Laws) (hw : w.Tracks V q)
    (hlive : (w.contexts.get this).isSome = true) :
    SettingStep V w q (.object (.destroy this)) := by
  obtain ⟨o, ho⟩ := Option.isSome_iff_exists.mp hlive
  cases hm : o.mContext with
  | none =>
    have hx : (ContextOp.destroy this).perform w = _ := ContextWorld.destroy_of_null ho hm
    refine ⟨.destroyed this, .destroyed (congrArg Prod.fst hx), hw.isSome ho, ?_⟩
    rw [SettingOp.perform, hx]
    exact hw.destroyed ho fun g hg _ => ⟨hg, rfl⟩
  | some c =>
    obtain ⟨σ, hterm, hopen⟩ := hV.term c w.zmq (hw.isOpen c ⟨this, o, ho, hm⟩)
    have hx : (ContextOp.destroy this).perform w = _ := ContextWorld.destroy_of_some ho hm hterm
    refine ⟨.destroyed this, .destroyed (congrArg Prod.fst hx), hw.isSome ho, ?_⟩
    rw [SettingOp.perform, hx]
    refine hw.destroyed ho fun g hg hne => ?_
    have hgc : g ≠ c := by
      rintro rfl
      exact hne hm
    have hsettings := hV.settingsTerm c w.zmq g hgc
    rw [hterm] at hsettings
    exact ⟨(hopen g).mpr ⟨hg, hgc⟩, hsettings⟩

theorem settingStep_get (hV : V.Laws) (hw : w.Tracks V q)
    (hlive : (w.contexts.get this).isSome = true) (query : ContextQuery) :
    SettingStep V w q (.get this query) := by
  obtain ⟨⟨m⟩, ho⟩ := Option.isSome_iff_exists.mp hlive
  have hm := ContextWorld.mContext_of_get ho
  cases m with
  | none =>
    obtain ⟨e, σ, hget, hsame⟩ := getContextSetting_of_null hV hm query.setting.code
    have hx : query.ask (A := A) this w = (.threw e, { w with zmq := σ }) := by
      rw [ContextQuery.ask_eq, bind_of_threw hget]
    refine ⟨.observed this none, .unanswered (congrArg Prod.fst hx), hw.get ho, ?_⟩
    rw [SettingOp.perform, hx]
    exact hw.kept (.of_eq hsame.1 hsame.2)
  | some c =>
    obtain ⟨σ, hget, hsame⟩ := getContextSetting_of_open hV hm
      (hw.isOpen c ⟨this, ⟨some c⟩, ho, rfl⟩) query.setting
    have hx : query.ask (A := A) this w =
        (.returned (query.answer (V.settings w.zmq c query.setting)), { w with zmq := σ }) := by
      rw [ContextQuery.ask_eq, bind_of_returned hget]
      rfl
    refine ⟨.observed this (some (V.settings w.zmq c)), .answered (congrArg Prod.fst hx),
      hw.get ho, ?_⟩
    rw [SettingOp.perform, hx]
    exact hw.kept (.of_eq hsame.1 hsame.2)

theorem settingStep_set (hV : V.Laws) (hw : w.Tracks V q)
    (hlive : (w.contexts.get this).isSome = true) (flag : ContextFlag) (b : Bool) :
    SettingStep V w q (.set this flag b) := by
  obtain ⟨⟨m⟩, ho⟩ := Option.isSome_iff_exists.mp hlive
  have hm := ContextWorld.mContext_of_get ho
  cases m with
  | none =>
    obtain ⟨e, σ, hset, hsame⟩ :=
      changeContextSetting_of_null hV hm flag.setting.code (flagValue b)
    rw [← ContextFlag.set_eq] at hset
    refine ⟨.observed this none, .unset (congrArg Prod.fst hset), hw.get ho, ?_⟩
    rw [SettingOp.perform, hset]
    exact hw.kept (.of_eq hsame.1 hsame.2)
  | some c =>
    have hopen := hw.isOpen c ⟨this, ⟨some c⟩, ho, rfl⟩
    have hchange := changeContextSetting_of_some (A := A) hm flag.setting.code (flagValue b)
    rw [← ContextFlag.set_eq] at hchange
    obtain ⟨σ, hset, hacc, hopen', hsettings⟩ | ⟨e, rc, σ, hset, hrefused, hsame⟩ :=
      setContextSetting_of_open hV hopen (flag.given b)
    · have hx := hchange.trans hset
      refine ⟨.changed this (V.settings w.zmq c) _, .changed (congrArg Prod.fst hx) hacc,
        hw.get ho, ?_⟩
      rw [SettingOp.perform, hx]
      exact hw.changed ho rfl hopen' hsettings trivial
    · have hx := hchange.trans hset
      refine ⟨.observed this (some (V.settings w.zmq c)), .refused (congrArg Prod.fst hx) hrefused,
        hw.get ho, ?_⟩
      rw [SettingOp.perform, hx]
      exact hw.kept (.of_eq hsame.1 hsame.2)

theorem settingStep (hV : V.Laws) (hw : w.Tracks V q) {op : SettingOp}
    (hop : op.Allowed (A := A) w) : SettingStep V w q op := by
  cases op with
  | object op =>
    cases op with
    | construct io max => exact settingStep_construct hV hw io max
    | newMove other => exact settingStep_move hw hop
    | assignMove this other => exact settingStep_assign hw hop.1 hop.2
    | destroy this => exact settingStep_destroy hV hw hop
  | get this query => exact settingStep_get hV hw hop query
  | set this flag b => exact settingStep_set hV hw hop flag b

/-- In every run of constructions, moves, assignments, destructions and calls of the
accessors, contexts behave as objects that hold their settings themselves: a getter
returns the setting of its object and throws exactly on a moved-from one, a setter
changes its object only, and not even that if it throws. -/
theorem contexts_hold_settings (hV : V.Laws) (σ : A.State) {ops : List SettingOp}
    (hops : (settingMachine A).Admissible (.initial σ) ops) :
    ∃ events, (settingMachine A).Explained (SettingExplains V) (.initial σ) ops events ∧
      (valueMachine Settings).Admissible .empty events ∧
      ((settingMachine A).run (.initial σ) ops).values V =
        (valueMachine Settings).run .empty events := by
  have hstep : ∀ (w : ContextWorld A.toContextApi) (q : ObjectPool (Option Settings))
      (op : SettingOp), w.Tracks V q → (settingMachine A).Allowed w op →
      ∃ e, SettingExplains V w op e ∧ (valueMachine Settings).Allowed q e ∧
        ((settingMachine A).step w op).Tracks V ((valueMachine Settings).step q e) := by
    intro w q op hw hop
    exact settingStep hV hw hop
  have hinit : (ContextWorld.initial σ : ContextWorld A.toContextApi).Tracks V .empty := .empty
  obtain ⟨events, hexplained, hadm, hrun⟩ := Machine.run_explained hstep hinit hops
  exact ⟨events, hexplained, hadm, hrun.seen⟩

end Runs

/-! ### A table of settings -/

namespace SettingTable

/-- The open contexts, and their settings. -/
structure State where
  contexts : ContextTable.State
  settings : ContextHandle → ContextSetting → ℕ

def defaults : ContextSetting → ℕ
  | .ioThreads => 1
  | .maxSockets => 1023
  | .socketLimit => 65535
  | .ipv6 => 0
  | .blocky => 1

def ofCode (name : ℤ) : Option ContextSetting :=
  [.ioThreads, .maxSockets, .socketLimit, .ipv6, .blocky].find? fun s => s.code = name

def accepts : ContextSetting → ℤ → Bool
  | .ioThreads, n => 0 ≤ n
  | .maxSockets, n => 1 ≤ n
  | .socketLimit, _ => false
  | .ipv6, n | .blocky, n => n = 0 ∨ n = 1

def State.store (σ : State) (c : ContextHandle) (f : ContextSetting → ℕ) : State :=
  { σ with settings := Function.update σ.settings c f }

def ctxSet (c : ContextHandle) (name value : ℤ) (σ : State) : ℤ × State :=
  match ofCode name with
  | some s =>
    if c ∈ σ.contexts.opened ∧ accepts s value = true then
      (0, σ.store c (Function.update (σ.settings c) s value.toNat))
    else (-1, σ)
  | none => (-1, σ)

def ctxGet (context : Option ContextHandle) (name : ℤ) (σ : State) : ℤ × State :=
  match context, ofCode name with
  | some c, some s => if c ∈ σ.contexts.opened then (σ.settings c s, σ) else (-1, σ)
  | _, _ => (-1, σ)

def api : SettingApi where
  State := State
  ctxNew σ :=
    match ContextTable.api.ctxNew σ.contexts with
    | (some c, contexts) => (some c, ⟨contexts, Function.update σ.settings c defaults⟩)
    | (none, contexts) => (none, ⟨contexts, σ.settings⟩)
  ctxSet := ctxSet
  ctxTerm c σ :=
    ((ContextTable.api.ctxTerm c σ.contexts).1,
      ⟨(ContextTable.api.ctxTerm c σ.contexts).2, σ.settings⟩)
  errno σ := ContextTable.api.errno σ.contexts
  ctxSetNull _ _ σ := (-1, σ)
  ctxGet := ctxGet

def view : api.View where
  isOpen σ c := c ∈ σ.contexts.opened
  settings σ c s := σ.settings c s
  defaults s := defaults s
  accepts s n := accepts s n = true

theorem ofCode_code (s : ContextSetting) : ofCode s.code = some s := by cases s <;> rfl

theorem accepts_nonneg {s : ContextSetting} {n : ℤ} (h : accepts s n = true) : 0 ≤ n := by
  cases s <;> simp [accepts] at h <;> omega

theorem settings_ctxNew {σ σ' : State} {c : ContextHandle} (hnew : api.ctxNew σ = (some c, σ')) :
    ContextTable.api.ctxNew σ.contexts = (some c, σ'.contexts) ∧
      σ'.settings = Function.update σ.settings c defaults := by
  simp only [api] at hnew
  split at hnew
  · cases hnew
    exact ⟨by assumption, rfl⟩
  · cases hnew

theorem settings_ctxNew_null {σ σ' : State} (hnew : api.ctxNew σ = (none, σ')) :
    ContextTable.api.ctxNew σ.contexts = (none, σ'.contexts) ∧ σ'.settings = σ.settings := by
  simp only [api] at hnew
  split at hnew
  · cases hnew
  · cases hnew
    exact ⟨by assumption, rfl⟩

/-- The settings seen, after an update of one of them. -/
theorem settings_update (σ : State) (c : ContextHandle) (f : ContextSetting → ℕ) :
    view.settings (σ.store c f) =
      Function.update (view.settings σ) c fun s => f s := by
  funext g
  change (fun s => ((Function.update σ.settings c f g s : ℕ) : ℤ)) = _
  rw [Function.update_apply, Function.update_apply]
  split_ifs <;> rfl

theorem laws : view.Laws := by
  constructor
  case toLaws =>
    constructor
    case fresh =>
      intro σ c σ' hnew
      exact ContextTable.laws.fresh _ _ _ (settings_ctxNew hnew).1
    case null =>
      intro σ σ' hnew
      exact ContextTable.laws.null _ _ (settings_ctxNew_null hnew).1
    case set =>
      intro c name value σ g
      simp only [api, ctxSet]
      split
      · split_ifs <;> rfl
      · rfl
    case term =>
      intro c σ hopen
      obtain ⟨contexts, hterm, hopens⟩ := ContextTable.laws.term c σ.contexts hopen
      refine ⟨⟨contexts, σ.settings⟩, ?_, hopens⟩
      simp only [api, hterm]
  case settingsNew =>
    intro σ c σ' hnew
    obtain ⟨contexts, settings⟩ := σ'
    obtain rfl := (settings_ctxNew hnew).2
    exact settings_update σ c defaults
  case settingsNull =>
    intro σ σ' hnew
    funext c s
    change ((σ'.settings c s : ℕ) : ℤ) = σ.settings c s
    rw [(settings_ctxNew_null hnew).2]
  case settingsSet =>
    intro c s value σ hopen _
    have hopen' : c ∈ σ.contexts.opened := hopen
    by_cases hacc : accepts s value = true
    · have hset : api.ctxSet c s.code value σ =
          (0, State.store σ c (Function.update (σ.settings c) s value.toNat)) := by
        simp [api, ctxSet, ofCode_code, hopen', hacc]
      refine ⟨0, _, hset, .inl ⟨rfl, hacc, ?_⟩⟩
      refine (settings_update σ c _).trans ?_
      congr 1
      funext t
      change ((Function.update (σ.settings c) s value.toNat t : ℕ) : ℤ) = _
      rw [Function.update_apply, Function.update_apply]
      split_ifs with ht
      · exact Int.toNat_of_nonneg (accepts_nonneg hacc)
      · rfl
    · have hset : api.ctxSet c s.code value σ = (-1, σ) := by
        simp [api, ctxSet, ofCode_code, hacc]
      exact ⟨-1, σ, hset, .inr ⟨by decide, hacc, rfl⟩⟩
  case settingsTerm =>
    intro c σ g hg
    rfl
  case setNull => exact fun name value σ => ⟨-1, σ, rfl, by decide, rfl, rfl⟩
  case get =>
    intro c s σ hopen
    have hopen' : c ∈ σ.contexts.opened := hopen
    exact ⟨σ, by simp [api, ctxGet, ofCode_code, hopen', view], Int.natCast_nonneg _, rfl, rfl⟩
  case getNull => exact fun name σ => ⟨-1, σ, rfl, by decide, rfl, rfl⟩

/-- Two contexts, one of which a constructor leaks; settings before and after moves,
on moved-from objects, and with values that are refused. -/
def tour : List SettingOp :=
  [.object (.construct 2 100), .object (.construct 1 0), .object (.construct 1 1023),
    .set 0 .ipv6Enabled true, .object (.newMove 0), .get 0 .ipv6Enabled, .get 2 .ipv6Enabled,
    .object (.assignMove 1 2), .get 1 .maxSocketCount, .set 0 .blocky false,
    .object (.destroy 1), .get 2 .blocky]

def start : ContextWorld api.toContextApi := .initial (⟨⟨[], 3⟩, fun _ _ => 0⟩ : State)

theorem tour_admissible : (settingMachine api).Admissible start tour :=
  ⟨trivial, trivial, trivial, rfl, rfl, rfl, rfl, ⟨rfl, rfl⟩, rfl, rfl, rfl, rfl, trivial⟩

end SettingTable

theorem contexts_hold_settings_tour :
    ∃ events, (settingMachine SettingTable.api).Explained (SettingExplains SettingTable.view)
        SettingTable.start SettingTable.tour events ∧
      ((settingMachine SettingTable.api).run SettingTable.start SettingTable.tour).values
        SettingTable.view = (valueMachine Settings).run .empty events := by
  obtain ⟨events, hexplained, _, hrun⟩ := contexts_hold_settings SettingTable.laws
    (⟨⟨[], 3⟩, fun _ _ => 0⟩ : SettingTable.State) SettingTable.tour_admissible
  exact ⟨events, hexplained, hrun⟩

end CpperoMQ
