import CpperoMQ.ContextLifetimes
import Mathlib.Data.List.AList

/-!
# Runs with contexts and sockets

Numbers stand for the contexts: an object is seen with the number of the context it
has or descends from, and the invariant says that what is seen tells the contexts of
open sockets apart.
-/
namespace CpperoMQ
open Effects Effects.Exec OwnedValues

/-! ### The invariant -/

section Runs
variable {A : LifetimeApi} {V : A.View} {s : ProgramRun A} {f : ContextHandle → ℕ}
  {g : Handle → ℕ}

/-- An object has the context. -/
def ProgramRun.owns (s : ProgramRun A) (c : ContextHandle) : Prop :=
  Owned Context.mContext s.world.contexts c

/-- An object has the socket. -/
def ProgramRun.holds (s : ProgramRun A) (h : Handle) : Prop :=
  Owned (fun o : SocketObject => o.mSocket) s.world.sockets h

/-- With numbers for the handles, the lineage is how the objects look; numbers tell
contexts apart, and a socket has the number of its context. The sockets open in an owned
context are those that objects hold. -/
structure Kin (V : A.View) (s : ProgramRun A) (f : ContextHandle → ℕ) (g : Handle → ℕ) :
    Prop where
  contexts : Tracks Context.mContext (fun _ n => n < s.lineage.born) (V.isContext s.world.zmq) f
    s.world.contexts s.lineage.contexts
  sockets : SocketsTrack (fun _ _ => True) (V.isSocket s.world.zmq) g s.world.sockets
    s.lineage.sockets
  distinct : ∀ c d, s.owns c → s.owns d → f c = f d → c = d
  parent : ∀ h c, s.holds h → V.contextOf s.world.zmq h = some c → s.owns c ∧ g h = f c
  held : ∀ c h, s.owns c → V.contextOf s.world.zmq h = some c → s.holds h

theorem kin_initial (V : A.View) (σ : A.State) : Kin V (.initial σ) f g := by
  constructor
  case contexts => exact .empty
  case sockets => exact .empty
  case distinct =>
    rintro c d ⟨i, o, hi, _⟩
    cases hi
  case parent =>
    rintro h c ⟨i, o, hi, _⟩
    cases hi
  case held =>
    rintro c h ⟨i, o, hi, _⟩
    cases hi

/-- The sockets open in the context of an object are those of its descendants. -/
theorem Kin.contextOf_iff (hk : Kin V s f g) {this : ObjId} {o : Context} {c : ContextHandle}
    (hi : s.world.contexts.get this = some o) (ho : o.mContext = some c) (h : Handle) :
    V.contextOf s.world.zmq h = some c ↔ ∃ j a, s.world.sockets.get j = some a ∧
      a.mSocket = some h ∧ s.lineage.sockets.get j = s.lineage.contexts.get this := by
  have howns : s.owns c := ⟨this, o, hi, ho⟩
  have hlook : s.lineage.contexts.get this = some (some (f c)) := by
    rw [hk.contexts.get hi, ho]
    rfl
  rw [hlook]
  constructor
  · intro hh
    obtain ⟨j, a, hj, ha⟩ := hk.held c h howns hh
    have hg : (a.mSocket).map g = some (f c) := by
      rw [show a.mSocket = some h from ha, ← (hk.parent h c ⟨j, a, hj, ha⟩ hh).2]
      rfl
    exact ⟨j, a, hj, ha, (hk.sockets.get hj).trans (congrArg some hg)⟩
  · rintro ⟨j, a, hj, ha, hg⟩
    have hholds : s.holds h := ⟨j, a, hj, ha⟩
    obtain ⟨d, hd⟩ := Option.isSome_iff_exists.mp (hk.sockets.isOpen h hholds)
    obtain ⟨hdowns, hgd⟩ := hk.parent h d hholds hd
    have hgc : g h = f c := by simpa [hk.sockets.get hj, ha] using hg
    rw [hd, hk.distinct d c hdowns howns (hgd.symm.trans hgc)]

/-- Some socket is open in the context if and only if something descends from it. -/
theorem Kin.descendant_iff (hk : Kin V s f g) {this : ObjId} {o : Context} {c : ContextHandle}
    (hi : s.world.contexts.get this = some o) (ho : o.mContext = some c) :
    (∃ h, V.contextOf s.world.zmq h = some c) ↔
      ∃ j, s.lineage.sockets.get j = some (some (f c)) := by
  have hlook : s.lineage.contexts.get this = some (some (f c)) := by
    rw [hk.contexts.get hi, ho]
    rfl
  constructor
  · rintro ⟨h, hh⟩
    obtain ⟨j, a, _, _, hj⟩ := (hk.contextOf_iff hi ho h).mp hh
    exact ⟨j, hj.trans hlook⟩
  · rintro ⟨j, hj⟩
    obtain ⟨a, h, hget, ha, _⟩ := hk.sockets.owner hj
    exact ⟨h, (hk.contextOf_iff hi ho h).mpr ⟨j, a, hget, ha, hj.trans hlook.symm⟩⟩

/-- What a caller can see of the objects decides whether `zmq_ctx_term` has to wait. -/
theorem Kin.inTime_iff (hk : Kin V s f g) {op : ProgramOp}
    (hop : op.Allowed s.world) : s.TermsInTime V op ↔ s.OutlivesSockets op := by
  cases op with
  | context op =>
    cases op with
    | destroy this =>
      obtain ⟨o, ho⟩ := Option.isSome_iff_exists.mp hop
      have hlook := hk.contexts.get ho
      have hm : s.world.contextWorld.mContext this = o.mContext :=
        ContextWorld.mContext_of_get (w := s.world.contextWorld) ho
      simp only [ProgramRun.TermsInTime, ProgramRun.OutlivesSockets, hm, hlook]
      cases hc : o.mContext with
      | none => simp
      | some c =>
        have hiff := not_congr (hk.descendant_iff ho hc)
        simpa using hiff
    | construct io max => exact Iff.rfl
    | newMove other => exact Iff.rfl
    | assignMove this other => exact Iff.rfl
  | createSocket parent type elided => exact Iff.rfl
  | socket op => exact Iff.rfl

/-! ### One operation -/

/-- The caller can go on, and only a missing context stops the program. -/
def ProgramStep (V : A.View) (s : ProgramRun A) (op : ProgramOp) : Prop :=
  (∃ f g, Kin V (s.step op) f g) ∧
    ((op.perform s.world).1 = .aborted ↔ op.LacksContext s.world)

theorem programStep_of_returned {op : ProgramOp} {w : ProgramWorld A}
    (hx : op.perform s.world = (.returned (), w)) (hlacks : ¬op.LacksContext s.world)
    (hk : Kin V ⟨w, s.lineage.note op⟩ f g) : ProgramStep V s op := by
  refine ⟨⟨f, g, ?_⟩, ?_⟩
  · rwa [ProgramRun.step, hx]
  · rw [hx]
    exact iff_of_false (by simp) hlacks

theorem programStep_of_threw {op : ProgramOp} {w : ProgramWorld A} {e : Error}
    (hx : op.perform s.world = (.threw e, w)) (hlacks : ¬op.LacksContext s.world)
    (hk : Kin V ⟨w, s.lineage⟩ f g) : ProgramStep V s op := by
  refine ⟨⟨f, g, ?_⟩, ?_⟩
  · rwa [ProgramRun.step, hx]
  · rw [hx]
    exact iff_of_false (by simp) hlacks

/-- A step that is all the same to libzmq, and at which no context object lost or got
a context but by passing it on. -/
theorem Kin.of_contexts (hk : Kin V s f g) {contexts : ObjectPool Context}
    {q : ObjectPool (Option ℕ)}
    (ht : Tracks Context.mContext (fun _ n => n < s.lineage.born) (V.isContext s.world.zmq) f
      contexts q)
    (ho : ∀ c, Owned Context.mContext contexts c ↔ s.owns c) :
    Kin V ⟨{ s.world with contexts := contexts }, { s.lineage with contexts := q }⟩ f g := by
  refine ⟨ht, hk.sockets, ?_, ?_, ?_⟩
  · exact fun c d hc hd => hk.distinct c d ((ho c).mp hc) ((ho d).mp hd)
  · intro h c hh hc
    obtain ⟨howns, hg⟩ := hk.parent h c hh hc
    exact ⟨(ho c).mpr howns, hg⟩
  · exact fun c h hc => hk.held c h ((ho c).mp hc)

theorem Kin.of_sockets (hk : Kin V s f g) {sockets : ObjectPool SocketObject}
    {q : ObjectPool (Option ℕ)}
    (ht : SocketsTrack (fun _ _ => True) (V.isSocket s.world.zmq) g sockets q)
    (ho : ∀ h, Owned (fun o : SocketObject => o.mSocket) sockets h ↔ s.holds h) :
    Kin V ⟨{ s.world with sockets := sockets }, { s.lineage with sockets := q }⟩ f g := by
  refine ⟨hk.contexts, ht, hk.distinct, ?_, ?_⟩
  · exact fun h c hh => hk.parent h c ((ho h).mp hh)
  · exact fun c h hc hh => (ho h).mpr (hk.held c h hc hh)

theorem programStep_moveContext (hk : Kin V s f g) {other : ObjId}
    (hlive : (s.world.contexts.get other).isSome = true) :
    ProgramStep V s (.context (.newMove other)) := by
  obtain ⟨o, ho, hx⟩ := ContextWorld.perform_newMove (w := s.world.contextWorld) hlive
  have hx' : (ProgramOp.context (.newMove other)).perform s.world =
      (.returned (), s.world.setContexts (s.world.contextWorld.moved other o)) := by
    rw [ProgramOp.perform, hx]
    rfl
  apply programStep_of_returned hx' (by exact fun hh => hh)
  exact hk.of_contexts (hk.contexts.moved ho rfl rfl fun _ hh => hh)
    fun c => owned_take_iff ho rfl rfl

theorem programStep_assignContext (hk : Kin V s f g) {this other : ObjId}
    (hl : (s.world.contexts.get this).isSome = true)
    (hr : (s.world.contexts.get other).isSome = true) :
    ProgramStep V s (.context (.assignMove this other)) := by
  obtain ⟨o, u, ho, hu, hx⟩ :=
    ContextWorld.perform_assignMove (w := s.world.contextWorld) hl hr
  have hx' : (ProgramOp.context (.assignMove this other)).perform s.world =
      (.returned (), s.world.setContexts (s.world.contextWorld.exchanged this other o u)) := by
    rw [ProgramOp.perform, hx]
    rfl
  apply programStep_of_returned hx' (by exact fun hh => hh)
  exact hk.of_contexts (hk.contexts.exchanged ho hu rfl rfl (fun _ hh => hh) fun _ hh => hh)
    fun c => owned_exchange_iff ho hu rfl rfl

theorem programStep_moveSocket (hk : Kin V s f g) {other : ObjId}
    (hlive : (s.world.socketWorld.typeOf other).isSome = true) :
    ProgramStep V s (.socket (.newMove other)) := by
  obtain ⟨o, ho, hx⟩ := SocketWorld.perform_newMove hlive
  have hx' : (ProgramOp.socket (.newMove other)).perform s.world =
      (.returned (), s.world.setSockets (s.world.socketWorld.moved other o)) := by
    rw [ProgramOp.perform, hx]
    rfl
  apply programStep_of_returned hx' (by exact fun hh => hh)
  exact hk.of_sockets (tracks_moved (w := s.world.socketWorld) hk.sockets ho)
    fun h => owned_take_iff ho rfl rfl

theorem programStep_assignSocket (hk : Kin V s f g) {this other : ObjId}
    (hlive : (s.world.socketWorld.typeOf this).isSome = true)
    (hsame : s.world.socketWorld.typeOf other = s.world.socketWorld.typeOf this) :
    ProgramStep V s (.socket (.assignMove this other)) := by
  obtain ⟨o, u, ho, hu, htype, hx⟩ := SocketWorld.perform_assignMove hlive hsame
  have hx' : (ProgramOp.socket (.assignMove this other)).perform s.world =
      (.returned (), s.world.setSockets (s.world.socketWorld.exchanged this other o u)) := by
    rw [ProgramOp.perform, hx]
    rfl
  apply programStep_of_returned hx' (by exact fun hh => hh)
  exact hk.of_sockets (tracks_exchanged (w := s.world.socketWorld) hk.sockets ho hu htype)
    fun h => owned_exchange_iff ho hu rfl rfl

theorem programStep_destroySocket (hV : V.Laws) (hk : Kin V s f g) {this : ObjId}
    (hlive : (s.world.socketWorld.typeOf this).isSome = true) :
    ProgramStep V s (.socket (.destroy this)) := by
  obtain ⟨o, ho, hperform⟩ := SocketWorld.perform_destroy hlive
  cases hm : o.mSocket with
  | none =>
    have hx : (ProgramOp.socket (.destroy this)).perform s.world = (.returned (),
        { s.world with sockets := s.world.sockets.put this none }) := by
      rw [ProgramOp.perform, hperform, SocketWorld.destroy_of_null ho hm]
      rfl
    apply programStep_of_returned hx (by exact fun hh => hh)
    exact hk.of_sockets (hk.sockets.destroyed ho fun g hg _ => ⟨hg, rfl⟩)
      fun h => owned_put_none_iff ho hm
  | some h =>
    obtain ⟨σ, hclose, hcontexts, hsockets⟩ :=
      hV.close h s.world.zmq (hk.sockets.isOpen h ⟨this, o, ho, hm⟩)
    have hx : (ProgramOp.socket (.destroy this)).perform s.world = (.returned (),
        s.world.setSockets ⟨σ, s.world.sockets.put this none,
          s.world.socketCalls ++ [.close h 0]⟩) := by
      rw [ProgramOp.perform, hperform, SocketWorld.destroy_of_some ho hm hclose]
      rfl
    have hother : ∀ d, d ≠ h → V.contextOf σ d = V.contextOf s.world.zmq d := by
      intro d hd
      rw [hsockets, Function.update_of_ne hd]
    apply programStep_of_returned hx (by exact fun hh => hh)
    constructor
    case contexts => exact hk.contexts.kept (.of_eq hcontexts rfl)
    case sockets =>
      refine hk.sockets.destroyed ho fun d hd hne => ⟨?_, rfl⟩
      have hdh : d ≠ h := by
        rintro rfl
        exact hne hm
      change (V.contextOf σ d).isSome = true
      rwa [hother d hdh]
    case distinct => exact hk.distinct
    case parent =>
      intro d c hd hc
      obtain ⟨hholds, hne⟩ := owned_put_none hk.sockets.single ho hd
      have hdh : d ≠ h := by
        rintro rfl
        exact hne hm
      exact hk.parent d c hholds ((hother d hdh).symm.trans hc)
    case held =>
      intro c d hc hd
      have hdh : d ≠ h := by
        rintro rfl
        change V.contextOf σ d = some c at hd
        rw [hsockets, Function.update_self] at hd
        cases hd
      have hholds := hk.held c d hc ((hother d hdh).symm.trans hd)
      refine hholds.put_none ho fun hh => hdh ?_
      exact Option.some.inj (hh.symm.trans hm)

theorem programStep_destroyContext (hV : V.Laws) (hk : Kin V s f g) {this : ObjId}
    (hlive : (s.world.contexts.get this).isSome = true)
    (htime : s.TermsInTime V (.context (.destroy this))) :
    ProgramStep V s (.context (.destroy this)) := by
  obtain ⟨o, ho⟩ := Option.isSome_iff_exists.mp hlive
  cases hm : o.mContext with
  | none =>
    have hx : (ProgramOp.context (.destroy this)).perform s.world = (.returned (),
        { s.world with contexts := s.world.contexts.put this none }) := by
      rw [ProgramOp.perform, ContextOp.perform, ContextWorld.destroy_of_null ho hm]
      rfl
    apply programStep_of_returned hx (by exact fun hh => hh)
    exact hk.of_contexts (hk.contexts.destroyed ho fun g hg _ => ⟨hg, rfl⟩)
      fun c => owned_put_none_iff ho hm
  | some c =>
    have hnone := htime c
      ((ContextWorld.mContext_of_get (w := s.world.contextWorld) ho).trans hm)
    obtain ⟨σ, hterm, hcontexts, hsockets⟩ :=
      hV.ctxTerm c s.world.zmq (hk.contexts.isOpen c ⟨this, o, ho, hm⟩) hnone
    have hx : (ProgramOp.context (.destroy this)).perform s.world = (.returned (),
        s.world.setContexts ⟨σ, s.world.contexts.put this none,
          s.world.contextCalls ++ [.term c 0]⟩) := by
      rw [ProgramOp.perform, ContextOp.perform, ContextWorld.destroy_of_some ho hm hterm]
      rfl
    apply programStep_of_returned hx (by exact fun hh => hh)
    constructor
    case contexts =>
      refine hk.contexts.destroyed ho fun d hd hne => ⟨(hcontexts d).mpr ⟨hd, ?_⟩, rfl⟩
      rintro rfl
      exact hne hm
    case sockets =>
      refine hk.sockets.kept (.of_eq ?_ rfl)
      funext d
      change ((V.contextOf σ d).isSome = true) = _
      rw [hsockets]
      rfl
    case distinct =>
      intro d e hd he
      exact hk.distinct d e (owned_put_none hk.contexts.single ho hd).1
        (owned_put_none hk.contexts.single ho he).1
    case parent =>
      intro h d hh hd
      change V.contextOf σ h = some d at hd
      rw [hsockets] at hd
      obtain ⟨howns, hg⟩ := hk.parent h d hh hd
      refine ⟨howns.put_none ho fun hod => hnone h ?_, hg⟩
      rw [hd, ← hod, hm]
    case held =>
      intro d h hd hh
      change V.contextOf σ h = some d at hh
      rw [hsockets] at hh
      exact hk.held d h (owned_put_none hk.contexts.single ho hd).1 hh

/-! ### Construction and creation -/

theorem setContextSetting_same (hV : V.Laws) (c : ContextHandle) (name value : ℤ)
    (u : ContextWorld A.toContextApi) :
    ∃ u', (Context.setContextSetting c name value u = (.returned (), u') ∨
      ∃ e, Context.setContextSetting c name value u = (.threw e, u')) ∧
      u'.contexts = u.contexts ∧ V.Same u.zmq u'.zmq := by
  have hsame := hV.ctxSet c name value u.zmq
  rcases hset : A.ctxSet c name value u.zmq with ⟨rc, σ⟩
  rw [hset] at hsame
  refine ⟨u.record σ (.set c name value rc), ?_, rfl, hsame⟩
  by_cases hrc : rc = 0
  · exact .inl (by simp [Context.setContextSetting, Exec.bind, zmqCtxSet, hset, hrc])
  · refine .inr ⟨⟨A.errno σ⟩, ?_⟩
    simp [Context.setContextSetting, Exec.bind, zmqCtxSet, hset, hrc, raiseContextError,
      ContextWorld.record]

/-- Configuring a context opens and closes nothing. -/
theorem configure_same (hV : V.Laws) (c : ContextHandle) (io max : ℤ)
    (u : ContextWorld A.toContextApi) :
    ∃ u', (ContextWorld.configure c io max u = (.returned (), u') ∨
      ∃ e, ContextWorld.configure c io max u = (.threw e, u')) ∧
      u'.contexts = u.contexts ∧ V.Same u.zmq u'.zmq := by
  obtain ⟨u', hio, hcontexts, hsame⟩ := setContextSetting_same hV c ZMQ_IO_THREADS io u
  obtain hio | ⟨e, hio⟩ := hio
  · obtain ⟨u'', hmax, hcontexts', hsame'⟩ :=
      setContextSetting_same hV c ZMQ_MAX_SOCKETS max u'
    have hx := bind_of_returned hio fun _ => Context.setContextSetting c ZMQ_MAX_SOCKETS max
    refine ⟨u'', ?_, hcontexts'.trans hcontexts, hsame'.1.trans hsame.1,
      hsame'.2.trans hsame.2⟩
    obtain hmax | ⟨e, hmax⟩ := hmax
    · exact .inl (hx.trans hmax)
    · exact .inr ⟨e, hx.trans hmax⟩
  · exact ⟨u', .inr ⟨e, bind_of_threw hio _⟩, hcontexts, hsame⟩

/-- There may be a context more than before, and the sockets are the same. -/
theorem Kin.of_opened (hk : Kin V s f g) {σ : A.State}
    (hcontexts : ∀ d, V.isContext s.world.zmq d → V.isContext σ d)
    (hsockets : V.contextOf σ = V.contextOf s.world.zmq) (calls : List ContextCall) :
    Kin V ⟨s.world.setContexts ⟨σ, s.world.contexts, calls⟩, s.lineage⟩ f g := by
  constructor
  case contexts => exact hk.contexts.kept fun d hd => ⟨hcontexts d hd, rfl⟩
  case sockets =>
    refine hk.sockets.kept (.of_eq ?_ rfl)
    funext d
    change ((V.contextOf σ d).isSome = true) = _
    rw [hsockets]
    rfl
  case distinct => exact hk.distinct
  case parent =>
    intro h c hh hc
    change V.contextOf σ h = some c at hc
    exact hk.parent h c hh (hsockets ▸ hc)
  case held =>
    intro c h hc hh
    change V.contextOf σ h = some c at hh
    exact hk.held c h hc (hsockets ▸ hh)

/-- A new context object has a context with a number that no other has. -/
theorem Kin.of_constructed (hV : V.Laws) (hk : Kin V s f g) {c : ContextHandle}
    {u : ContextWorld A.toContextApi} (hcontexts : u.contexts = s.world.contexts.alloc ⟨some c⟩)
    (hfresh : ¬V.isContext s.world.zmq c)
    (hopen : ∀ d, V.isContext u.zmq d ↔ V.isContext s.world.zmq d ∨ d = c)
    (hsockets : V.contextOf u.zmq = V.contextOf s.world.zmq) (io max : ℤ) :
    Kin V ⟨s.world.setContexts u, s.lineage.note (.context (.construct io max))⟩
      (Function.update f c s.lineage.born) g := by
  have hkept : Kept (V.isContext s.world.zmq) f (V.isContext u.zmq)
      (Function.update f c s.lineage.born) := by
    intro d hd
    have hdc : d ≠ c := by
      rintro rfl
      exact hfresh hd
    exact ⟨(hopen d).mpr (.inl hd), Function.update_of_ne hdc _ _⟩
  have hfits : Tracks Context.mContext (fun _ n => n < s.lineage.born + 1)
      (V.isContext s.world.zmq) f s.world.contexts s.lineage.contexts :=
    hk.contexts.mono fun _ _ hn => Nat.lt_succ_of_lt hn
  have hself : Function.update f c s.lineage.born c = s.lineage.born := Function.update_self ..
  have hbuilt := hfits.built (a := ⟨some c⟩) (h := c) hkept hfresh ((hopen c).mpr (.inr rfl)) rfl
    (by rw [hself]; exact Nat.lt_succ_self _)
  have howner : ∀ d, Owned Context.mContext u.contexts d → s.owns d ∨ d = c := by
    intro d hd
    rw [hcontexts] at hd
    obtain hd | hd := owned_alloc hd
    · exact .inl hd
    · exact .inr (Option.some.inj hd).symm
  have hold : ∀ d, s.owns d → Function.update f c s.lineage.born d = f d :=
    fun d hd => (hkept d (hk.contexts.isOpen d hd)).2
  have hless : ∀ d, s.owns d → f d < s.lineage.born :=
    fun d ⟨i, o, hi, hd⟩ => hk.contexts.fits i o d hi hd
  constructor
  case contexts =>
    rw [hself] at hbuilt
    change Tracks _ _ _ _ u.contexts _
    rw [hcontexts]
    exact hbuilt
  case sockets =>
    refine hk.sockets.kept (.of_eq ?_ rfl)
    funext d
    change ((V.contextOf u.zmq d).isSome = true) = _
    rw [hsockets]
    rfl
  case distinct =>
    intro d e hd he hde
    obtain hd | rfl := howner d hd
    · obtain he | rfl := howner e he
      · rw [hold d hd, hold e he] at hde
        exact hk.distinct d e hd he hde
      · rw [hold d hd, hself] at hde
        exact absurd hde (Nat.ne_of_lt (hless d hd))
    · obtain he | rfl := howner e he
      · rw [hold e he, hself] at hde
        exact absurd hde.symm (Nat.ne_of_lt (hless e he))
      · rfl
  case parent =>
    intro h d hh hd
    change V.contextOf u.zmq h = some d at hd
    obtain ⟨howns, hg⟩ := hk.parent h d hh (hsockets ▸ hd)
    refine ⟨?_, hg.trans (hold d howns).symm⟩
    change Owned Context.mContext u.contexts d
    rw [hcontexts]
    exact howns.alloc _
  case held =>
    intro d h hd hh
    change V.contextOf u.zmq h = some d at hh
    rw [hsockets] at hh
    obtain hd | rfl := howner d hd
    · exact hk.held d h hd hh
    · exact absurd (hV.within _ h d hh) hfresh

theorem programStep_construct (hV : V.Laws) (hk : Kin V s f g) (io max : ℤ) :
    ProgramStep V s (.context (.construct io max)) := by
  rcases hnew : A.ctxNew s.world.zmq with ⟨_ | c, σ⟩
  · have hx : (ContextOp.construct io max).perform s.world.contextWorld =
        (.threw ⟨A.errno σ⟩, s.world.contextWorld.record σ (.new none)) :=
      discard_of_threw (ContextWorld.construct_of_null (w := s.world.contextWorld) hnew io max)
    have hx' : (ProgramOp.context (.construct io max)).perform s.world =
        (.threw ⟨A.errno σ⟩, s.world.setContexts ⟨σ, s.world.contexts,
          s.world.contextCalls ++ [.new none]⟩) := by
      rw [ProgramOp.perform, hx]
      rfl
    obtain ⟨hcontexts, hsockets⟩ := hV.ctxNull _ σ hnew
    exact programStep_of_threw hx' (by exact fun hh => hh)
      (hk.of_opened (fun d hd => hcontexts ▸ hd) hsockets _)
  · obtain ⟨hfresh, hopen, hsockets⟩ := hV.ctxNew _ c σ hnew
    have hconstruct := ContextWorld.construct_of_new (w := s.world.contextWorld) hnew io max
    obtain ⟨u, hconf, hcontexts, hsame⟩ := configure_same hV c io max
      (s.world.contextWorld.record σ (.new (some c)))
    have hopen' : ∀ d, V.isContext u.zmq d ↔ V.isContext s.world.zmq d ∨ d = c := by
      rw [hsame.1]
      exact hopen
    have hsockets' := hsame.2.trans hsockets
    obtain hconf | ⟨e, hconf⟩ := hconf
    · have hx : (ContextOp.construct io max).perform s.world.contextWorld =
          (.returned (), { u with contexts := u.contexts.alloc ⟨some c⟩ }) := by
        apply discard_of_returned
        rw [hconstruct, bind_of_returned hconf]
        rfl
      have hx' : (ProgramOp.context (.construct io max)).perform s.world = (.returned (),
          s.world.setContexts { u with contexts := u.contexts.alloc ⟨some c⟩ }) := by
        rw [ProgramOp.perform, hx]
        rfl
      have halloc : u.contexts.alloc ⟨some c⟩ = s.world.contexts.alloc ⟨some c⟩ :=
        congrArg (ObjectPool.alloc · _) hcontexts
      exact programStep_of_returned hx' (by exact fun hh => hh)
        (hk.of_constructed (u := ⟨u.zmq, _, u.calls⟩) hV halloc hfresh hopen' hsockets' io max)
    · have hx : (ContextOp.construct io max).perform s.world.contextWorld = (.threw e, u) := by
        apply discard_of_threw
        rw [hconstruct, bind_of_threw hconf]
      have hx' : (ProgramOp.context (.construct io max)).perform s.world = (.threw e,
          s.world.setContexts ⟨u.zmq, s.world.contexts, u.calls⟩) := by
        rw [ProgramOp.perform, hx]
        change (_, (⟨_, u.contexts, _, _, _⟩ : ProgramWorld A)) = _
        rw [hcontexts]
        rfl
      exact programStep_of_threw hx' (by exact fun hh => hh)
        (hk.of_opened (fun d hd => (hopen' d).mpr (.inl hd)) hsockets' u.calls)

/-- A new socket object descends from the object it was created from. -/
theorem Kin.of_created (hk : Kin V s f g) {parent : ObjId} {o : Context} {c : ContextHandle}
    (ho : s.world.contexts.get parent = some o) (hm : o.mContext = some c) {type : SocketType}
    {h : Handle} {σ : A.State} (hfresh : V.contextOf s.world.zmq h = none)
    (hcontexts : V.isContext σ = V.isContext s.world.zmq)
    (hsockets : V.contextOf σ = Function.update (V.contextOf s.world.zmq) h (some c))
    (elided : Bool) (calls : List SocketCall) :
    Kin V ⟨s.world.setSockets ⟨σ, (s.world.socketWorld.created type h σ elided).sockets, calls⟩,
      s.lineage.note (.createSocket parent type elided)⟩ f (Function.update g h (f c)) := by
  have howns : s.owns c := ⟨parent, o, ho, hm⟩
  have hself : Function.update g h (f c) h = f c := Function.update_self ..
  have hother : ∀ d, d ≠ h → V.contextOf σ d = V.contextOf s.world.zmq d := by
    intro d hd
    rw [hsockets, Function.update_of_ne hd]
  have hne : ∀ d, V.isSocket s.world.zmq d → d ≠ h := by
    rintro d hd rfl
    rw [LifetimeApi.View.isSocket, hfresh] at hd
    cases hd
  have hkept : Kept (V.isSocket s.world.zmq) g (V.isSocket σ) (Function.update g h (f c)) := by
    intro d hd
    refine ⟨?_, Function.update_of_ne (hne d hd) _ _⟩
    rwa [LifetimeApi.View.isSocket, hother d (hne d hd)]
  have hopen : V.isSocket σ h := by
    rw [LifetimeApi.View.isSocket, hsockets, Function.update_self]
    rfl
  have htracks : SocketsTrack (fun _ _ => True) (V.isSocket σ) (Function.update g h (f c))
      (s.world.socketWorld.created type h σ elided).sockets
      ((valueMachine ℕ).run s.lineage.sockets (creationEvents s.world.sockets.next elided
        (Function.update g h (f c) h))) :=
    (tracks_created (w := s.world.socketWorld) hk.sockets hkept (fun hh => hne h hh rfl) hopen
      trivial σ elided).2
  have hnext : s.lineage.sockets.next = s.world.sockets.next := by
    rw [← hk.sockets.seen, seen, ObjectPool.next_map]
  have hnote : s.lineage.note (.createSocket parent type elided) =
      { s.lineage with
        sockets := (valueMachine ℕ).run s.lineage.sockets
          (creationEvents s.world.sockets.next elided (f c)) } := by
    simp only [Lineage.note, hk.contexts.get ho, hm, Option.map_some, hnext]
  have hholds : ∀ d, Owned (fun o : SocketObject => o.mSocket)
      (s.world.socketWorld.created type h σ elided).sockets d ↔ s.holds d ∨ d = h :=
    fun d => owned_created_iff
  rw [hnote]
  constructor
  case contexts => exact hk.contexts.kept (.of_eq hcontexts rfl)
  case sockets =>
    rw [hself] at htracks
    exact htracks
  case distinct => exact hk.distinct
  case parent =>
    intro d e hd he
    change V.contextOf σ d = some e at he
    obtain hd | rfl := (hholds d).mp hd
    · have hdh := hne d (hk.sockets.isOpen d hd)
      rw [hother d hdh] at he
      rw [Function.update_of_ne hdh]
      exact hk.parent d e hd he
    · rw [hsockets, Function.update_self] at he
      obtain rfl := Option.some.inj he
      exact ⟨howns, hself⟩
  case held =>
    intro e d he hd
    change V.contextOf σ d = some e at hd
    apply (hholds d).mpr
    by_cases hdh : d = h
    · exact .inr hdh
    · rw [hother d hdh] at hd
      exact .inl (hk.held e d he hd)

theorem programStep_create (hV : V.Laws) (hk : Kin V s f g) {parent : ObjId}
    (hlive : (s.world.contexts.get parent).isSome = true) (type : SocketType) (elided : Bool) :
    ProgramStep V s (.createSocket parent type elided) := by
  obtain ⟨o, ho⟩ := Option.isSome_iff_exists.mp hlive
  have hmContext := ContextWorld.mContext_of_get (w := s.world.contextWorld) ho
  cases hm : o.mContext with
  | none =>
    have hlacks := hmContext.trans hm
    have hx : (ProgramOp.createSocket parent type elided).perform s.world =
        (.aborted, s.world) := by
      rw [ProgramOp.perform, hlacks, SocketWorld.perform_create_null]
      rfl
    refine ⟨⟨f, g, ?_⟩, ?_⟩
    · rwa [ProgramRun.step, hx]
    · rw [hx]
      exact iff_of_true rfl hlacks
  | some c =>
    have hsome := hmContext.trans hm
    have hlacks : ¬(ProgramOp.createSocket parent type elided).LacksContext s.world := by
      intro hh
      cases hsome.symm.trans hh
    rcases hr : A.socket (some c) type.typeId s.world.zmq with ⟨_ | h, σ⟩
    · have hx : (ProgramOp.createSocket parent type elided).perform s.world =
          (.threw ⟨A.errno σ⟩, s.world.setSockets
            ⟨σ, s.world.sockets, s.world.socketCalls ++ [.socket type.typeId none]⟩) := by
        rw [ProgramOp.perform, hsome,
          SocketWorld.perform_create_refused (w := s.world.socketWorld) hr]
        rfl
      obtain ⟨hcontexts, hsockets⟩ := hV.socketNull _ _ _ σ hr
      have hkept := hk.of_opened (fun d hd => hcontexts ▸ hd) hsockets s.world.contextCalls
      exact programStep_of_threw hx hlacks
        ⟨hkept.contexts, hkept.sockets, hkept.distinct, hkept.parent, hkept.held⟩
    · have hx : (ProgramOp.createSocket parent type elided).perform s.world =
          (.returned (), s.world.setSockets
            ⟨σ, (s.world.socketWorld.created type h σ elided).sockets,
              (s.world.socketWorld.created type h σ elided).calls⟩) := by
        rw [ProgramOp.perform, hsome,
          SocketWorld.perform_create_opened (w := s.world.socketWorld) hr]
        cases elided <;> rfl
      obtain ⟨hfresh, hcontexts, hsockets⟩ := hV.socket c _ _ h σ hr
      exact programStep_of_returned hx hlacks
        (hk.of_created ho hm hfresh hcontexts hsockets elided _)

theorem programStep (hV : V.Laws) (hk : Kin V s f g) {op : ProgramOp}
    (hop : op.Allowed s.world) (htime : s.TermsInTime V op) : ProgramStep V s op := by
  cases op with
  | context op =>
    cases op with
    | construct io max => exact programStep_construct hV hk io max
    | newMove other => exact programStep_moveContext hk hop
    | assignMove this other => exact programStep_assignContext hk hop.1 hop.2
    | destroy this => exact programStep_destroyContext hV hk hop htime
  | createSocket parent type elided => exact programStep_create hV hk hop type elided
  | socket op =>
    cases op with
    | create type c elided => cases hop
    | newMove other => exact programStep_moveSocket hk hop
    | assignMove this other => exact programStep_assignSocket hk hop.1 hop.2
    | destroy this => exact programStep_destroySocket hV hk hop

/-- In a run of operations on contexts and sockets, `zmq_ctx_term` is always called when
the sockets of the context are closed if and only if the context objects outlive the
socket objects that descend from them. In such a run nothing stops the program but a
missing context, and the sockets open in the context of an object are those of its
descendants. -/
theorem contexts_outlive_sockets_iff (hV : V.Laws) (σ : A.State) (ops : List ProgramOp) :
    (((programMachine A).restrict (ProgramRun.TermsInTime V)).Admissible (.initial σ) ops ↔
      ((programMachine A).restrict ProgramRun.OutlivesSockets).Admissible (.initial σ) ops) ∧
    (((programMachine A).restrict ProgramRun.OutlivesSockets).Admissible (.initial σ) ops →
      let s := (programMachine A).run (.initial σ) ops
      (∀ op : ProgramOp, op.Allowed s.world → s.OutlivesSockets op →
        ((op.perform s.world).1 = .aborted ↔ op.LacksContext s.world)) ∧
      ∀ this c, s.world.contextWorld.mContext this = some c → ∀ h,
        V.contextOf s.world.zmq h = some c ↔ ∃ j a, s.world.sockets.get j = some a ∧
          a.mSocket = some h ∧ s.lineage.sockets.get j = s.lineage.contexts.get this) := by
  have hinit : ∃ f g, Kin V (.initial σ : ProgramRun A) f g :=
    ⟨fun _ => 0, fun _ => 0, kin_initial V σ⟩
  have hiff : ∀ (s : ProgramRun A) (op : ProgramOp), (∃ f g, Kin V s f g) →
      (programMachine A).Allowed s op → (s.TermsInTime V op ↔ s.OutlivesSockets op) := by
    rintro s op ⟨f, g, hk⟩ hop
    exact hk.inTime_iff hop
  have hstep : ∀ (s : ProgramRun A) (op : ProgramOp), (∃ f g, Kin V s f g) →
      (programMachine A).Allowed s op → s.OutlivesSockets op →
      ∃ f g, Kin V ((programMachine A).step s op) f g := by
    rintro s op ⟨f, g, hk⟩ hop hout
    exact (programStep hV hk hop ((hk.inTime_iff hop).mpr hout)).1
  refine ⟨Machine.restrict_congr hiff hstep hinit ops, fun hops => ?_⟩
  intro s
  obtain ⟨f, g, hk⟩ : ∃ f g, Kin V s f g :=
    Machine.run_invariant (M := (programMachine A).restrict ProgramRun.OutlivesSockets)
      (fun s op hs hop => hstep s op hs hop.1 hop.2) hinit hops
  constructor
  · intro op hop hout
    exact (programStep hV hk hop ((hk.inTime_iff hop).mpr hout)).2
  · intro this c hm h
    obtain ⟨o, ho, hoc⟩ := Option.bind_eq_some_iff.mp hm
    exact hk.contextOf_iff ho hoc h

end Runs

/-- Only the destructions of context objects that have a context need a look. -/
instance {A : LifetimeApi} (s : ProgramRun A) (this : ObjId) :
    Decidable (s.OutlivesSockets (.context (.destroy this))) :=
  decidable_of_iff (∀ o ∈ s.lineage.contexts.get this, ∀ n ∈ o,
      some (some n) ∉ s.lineage.sockets.slots) (by
    constructor
    · intro hall n hn j hj
      exact hall (some n) hn n rfl (ObjectPool.mem_slots_iff.mpr ⟨j, hj⟩)
    · rintro hout o ho n rfl hmem
      obtain ⟨j, hj⟩ := ObjectPool.mem_slots_iff.mp hmem
      exact hout n ho j hj)

/-! ### A table of contexts and sockets -/

namespace LifetimeTable
open HandleLedger (unused)

/-- The open contexts, and the open sockets with the contexts they are in. -/
structure State where
  contexts : List ContextHandle
  sockets : AList fun _ : Handle => ContextHandle
  within : ∀ h c, sockets.lookup h = some c → c ∈ contexts

def ctxNew (σ : State) : Option ContextHandle × State :=
  (some (unused σ.contexts), ⟨unused σ.contexts :: σ.contexts, σ.sockets,
    fun h c hc => List.mem_cons_of_mem _ (σ.within h c hc)⟩)

/-- Where the real function does not return, this one fails. -/
def ctxTerm (c : ContextHandle) (σ : State) : ℤ × State :=
  if hc : c ∈ σ.contexts ∧ ∀ h ∈ σ.sockets.keys, σ.sockets.lookup h ≠ some c then
    (0, ⟨σ.contexts.filter (· ≠ c), σ.sockets, fun h d hd => by
      have hmem : h ∈ σ.sockets := AList.lookup_isSome.mp (by rw [hd]; rfl)
      have hdc : d ≠ c := by
        rintro rfl
        exact hc.2 h (AList.mem_keys.mp hmem) hd
      exact List.mem_filter.mpr ⟨σ.within h d hd, decide_eq_true hdc⟩⟩)
  else (-1, σ)

def socket (context : Option ContextHandle) (σ : State) : Option Handle × State :=
  match context with
  | some c =>
    if hc : c ∈ σ.contexts then
      (some (unused σ.sockets.keys), ⟨σ.contexts, σ.sockets.insert (unused σ.sockets.keys) c,
        fun h d hd => by
          by_cases hh : h = unused σ.sockets.keys
          · rw [hh, AList.lookup_insert] at hd
            exact Option.some.inj hd ▸ hc
          · rw [AList.lookup_insert_ne hh] at hd
            exact σ.within h d hd⟩)
    else (none, σ)
  | none => (none, σ)

def close (h : Handle) (σ : State) : ℤ × State :=
  if h ∈ σ.sockets.keys then
    (0, ⟨σ.contexts, σ.sockets.erase h, fun g d hd => by
      by_cases hg : g = h
      · rw [hg, AList.lookup_erase] at hd
        cases hd
      · rw [AList.lookup_erase_ne hg] at hd
        exact σ.within g d hd⟩)
  else (-1, σ)

def api : LifetimeApi where
  State := State
  ctxNew := ctxNew
  ctxSet c name value σ :=
    if c ∈ σ.contexts ∧ ContextTable.accepts name value then (0, σ) else (-1, σ)
  ctxTerm := ctxTerm
  socket context _ := socket context
  close := close
  errno _ := 22

def view : api.View where
  isContext σ c := c ∈ σ.contexts
  contextOf σ h := σ.sockets.lookup h

theorem laws : view.Laws := by
  constructor
  case within => exact fun σ => σ.within
  case ctxNew =>
    intro σ c σ' hnew
    cases hnew
    exact ⟨HandleLedger.unused_not_mem σ.contexts, fun g => List.mem_cons.trans or_comm, rfl⟩
  case ctxNull =>
    intro σ σ' hnew
    cases hnew
  case ctxSet =>
    intro c name value σ
    simp only [api]
    split_ifs <;> exact ⟨rfl, rfl⟩
  case ctxTerm =>
    intro c σ hopen hnone
    exact ⟨_, dif_pos ⟨hopen, fun h _ => hnone h⟩, fun g => by simp [view], rfl⟩
  case socket =>
    intro c type σ h σ' hr
    simp only [api, socket] at hr
    split_ifs at hr
    · cases hr
      have hunused : unused σ.sockets.keys ∉ σ.sockets := fun hh =>
        HandleLedger.unused_not_mem _ (AList.mem_keys.mp hh)
      refine ⟨AList.lookup_eq_none.mpr hunused, rfl, ?_⟩
      funext g
      by_cases hg : g = unused σ.sockets.keys
      · subst hg
        rw [Function.update_self]
        exact AList.lookup_insert σ.sockets
      · rw [Function.update_of_ne hg]
        exact AList.lookup_insert_ne hg
    · cases hr
  case socketNull =>
    intro context type σ σ' hr
    cases context with
    | none =>
      cases hr
      exact ⟨rfl, rfl⟩
    | some c =>
      simp only [api, socket] at hr
      split_ifs at hr
      · cases hr
      · cases hr
        exact ⟨rfl, rfl⟩
  case close =>
    intro h σ hopen
    have hmem : h ∈ σ.sockets.keys := AList.mem_keys.mp (AList.lookup_isSome.mp hopen)
    refine ⟨_, if_pos hmem, rfl, ?_⟩
    funext g
    by_cases hg : g = h
    · subst hg
      rw [Function.update_self]
      exact AList.lookup_erase g σ.sockets
    · rw [Function.update_of_ne hg]
      exact AList.lookup_erase_ne hg

/-- Two contexts that change places while sockets of both are alive and move too. Each
is terminated after the last socket that descends from it, by then another object. -/
def tour : List ProgramOp :=
  [.context (.construct 1 1023), .context (.construct 2 100), .createSocket 0 .push true,
    .createSocket 1 .pull false, .context (.newMove 0), .socket (.newMove 0),
    .context (.assignMove 1 2), .createSocket 2 .pull true, .socket (.destroy 2),
    .context (.construct (-1) 0), .socket (.assignMove 3 3), .context (.destroy 0),
    .socket (.destroy 4), .context (.destroy 2), .socket (.destroy 0), .socket (.destroy 3),
    .context (.destroy 1)]

def start : ProgramRun api := .initial ⟨[], ∅, fun _ _ hd => by simp at hd⟩

theorem tour_outlives :
    ((programMachine api).restrict ProgramRun.OutlivesSockets).Admissible start tour :=
  ⟨⟨trivial, trivial⟩, ⟨trivial, trivial⟩, ⟨rfl, trivial⟩, ⟨rfl, trivial⟩, ⟨rfl, trivial⟩,
    ⟨rfl, trivial⟩, ⟨⟨rfl, rfl⟩, trivial⟩, ⟨rfl, trivial⟩, ⟨rfl, trivial⟩, ⟨trivial, trivial⟩,
    ⟨⟨rfl, rfl⟩, trivial⟩, ⟨rfl, by decide +kernel⟩, ⟨rfl, trivial⟩, ⟨rfl, by decide +kernel⟩,
    ⟨rfl, trivial⟩, ⟨rfl, trivial⟩, ⟨rfl, by decide +kernel⟩, trivial⟩

end LifetimeTable

theorem contexts_outlive_sockets_iff_tour :
    ((programMachine LifetimeTable.api).restrict
      (ProgramRun.TermsInTime LifetimeTable.view)).Admissible LifetimeTable.start
      LifetimeTable.tour :=
  (contexts_outlive_sockets_iff LifetimeTable.laws _ LifetimeTable.tour).1.mpr
    LifetimeTable.tour_outlives

end CpperoMQ
