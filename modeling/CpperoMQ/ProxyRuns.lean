import CpperoMQ.Proxies

/-!
# Runs with proxies

What a proxy passes to libzmq is right as long as objects have the sockets it was
given, whichever objects these are by then. Once a socket is gone the pointer to it
is not, and it may come to be that of a socket opened later.
-/
namespace CpperoMQ
open Effects Effects.Exec OwnedValues

/-! ### What swapping does -/

namespace ProxyWorld
variable {A : ProxyApi} {w : ProxyWorld A} {i j : ObjId} {p q : Proxy}

theorem captureOf_of_get (hi : w.proxies.get i = some p) :
    w.captureOf i = p.mCaptureSocketPtr := by simp [captureOf, hi]

theorem controlOf_of_get (hi : w.proxies.get i = some p) :
    w.controlOf i = p.mControlSocketPtr := by simp [controlOf, hi]

theorem setCapture_of_get (hi : w.proxies.get i = some p) (m : Option Handle) :
    w.setCapture i m =
      { w with proxies := w.proxies.put i (some ⟨m, p.mControlSocketPtr⟩) } := by
  simp [setCapture, hi]

theorem setControl_of_get (hi : w.proxies.get i = some p) (m : Option Handle) :
    w.setControl i m =
      { w with proxies := w.proxies.put i (some ⟨p.mCaptureSocketPtr, m⟩) } := by
  simp [setControl, hi]

/-- The pointers of both kinds change places. -/
theorem swap_apply (hi : w.proxies.get i = some p) (hj : w.proxies.get j = some q) :
    Proxy.swap i j w = (.returned (),
      { w with proxies := (w.proxies.put i (some q)).put j (some p) }) := by
  have hlt := ObjectPool.lt_next_of_get hi
  have hlt' := ObjectPool.lt_next_of_get hj
  by_cases hij : i = j
  · subst hij
    obtain rfl : p = q := Option.some.inj (hi.symm.trans hj)
    simp [Proxy.swap, Exec.bind, setCapture, setControl, captureOf, controlOf, hi,
      ObjectPool.get_put hlt]
  · have hji : j ≠ i := fun hh => hij hh.symm
    simp only [Proxy.swap, bind_eq, Exec.bind, modify_apply, setCapture, setControl, captureOf,
      controlOf, hi, hj, ObjectPool.get_put, hlt, hlt', ObjectPool.next_put, hij, hji, if_false,
      if_true, Option.bind_some]
    congr 2
    apply ObjectPool.ext_get (by simp)
    intro k
    simp only [ObjectPool.get_put, hlt, hlt', ObjectPool.next_put]
    split_ifs <;> rfl

theorem newMove_apply (hi : w.proxies.get i = some p) :
    Proxy.newMove i w = (.returned w.proxies.next,
      { w with proxies := (w.proxies.put i (some Proxy.new)).alloc p }) := by
  have hlt := ObjectPool.lt_next_of_get hi
  have hne : i ≠ w.proxies.next := Nat.ne_of_lt hlt
  have hother : ((w.proxies.alloc Proxy.new).get i) = some p := by
    rw [ObjectPool.get_alloc_of_ne _ _ hne, hi]
  have hswap := swap_apply (w := { w with proxies := w.proxies.alloc Proxy.new })
    (ObjectPool.get_alloc_self w.proxies Proxy.new) hother
  have hx : Proxy.construct w =
      (.returned w.proxies.next, { w with proxies := w.proxies.alloc Proxy.new }) := rfl
  rw [Proxy.newMove, bind_eq, bind_of_returned hx, bind_eq, bind_of_returned hswap, pure_apply]
  congr 2
  apply ObjectPool.ext_get (by simp)
  intro k
  by_cases hk : k = w.proxies.next
  · subst hk
    have hself : ((w.proxies.put i (some Proxy.new)).alloc p).get w.proxies.next = some p := by
      have hself := ObjectPool.get_alloc_self (w.proxies.put i (some Proxy.new)) p
      rwa [ObjectPool.next_put] at hself
    rw [hself, ObjectPool.get_put_of_ne _ hne.symm, ObjectPool.get_put_self (by simp)]
  · rw [ObjectPool.get_alloc_of_ne _ _ (by simpa using hk)]
    simp [ObjectPool.get_put, hlt, Nat.lt_succ_of_lt hlt, hk, ObjectPool.get_alloc_of_ne]

end ProxyWorld

/-! ### The invariant -/

/-- The pointer was that of the socket with this number, which is of a type that is
allowed, and no other is. -/
def Points (r : Serials) (types : ℕ → SocketType) (allowed : SocketType → Bool) (h : Handle)
    (n : ℕ) : Prop :=
  n < r.next ∧ allowed (types n) = true ∧ ∀ g, r.of g = some n → g = h

/-- Both pointers of a proxy are as they were designated. -/
def PointsAs (r : Serials) (types : ℕ → SocketType) (p : Proxy) (d : Designation) : Prop :=
  Option.Rel (Points r types Proxy.captures) p.mCaptureSocketPtr d.capture ∧
    Option.Rel (Points r types Proxy.controls) p.mControlSocketPtr d.control

section Points
variable {r r' : Serials} {types types' : ℕ → SocketType} {allowed : SocketType → Bool}

theorem Points.later {h : Handle} {n : ℕ} (hp : Points r types allowed h n)
    (hr : r.Extends r') (htypes : ∀ n, n < r.next → types' n = types n) :
    Points r' types' allowed h n := by
  obtain ⟨hlt, hallowed, hall⟩ := hp
  refine ⟨Nat.lt_of_lt_of_le hlt hr.next_le, ?_, fun g hg => hall g (hr.old g n hlt hg)⟩
  rwa [htypes n hlt]

theorem PointsAs.later {p : Proxy} {d : Designation} (hp : PointsAs r types p d)
    (hr : r.Extends r') (htypes : ∀ n, n < r.next → types' n = types n) :
    PointsAs r' types' p d := by
  obtain ⟨hcapture, hcontrol⟩ := hp
  constructor
  · exact ObjectPool.rel_mono hcapture fun h n hh => Points.later hh hr htypes
  · exact ObjectPool.rel_mono hcontrol fun h n hh => Points.later hh hr htypes

end Points

/-- The number of an owned handle. -/
def Serials.number (r : Serials) (h : Handle) : ℕ := (r.of h).getD 0

theorem Serials.number_of {r : Serials} {h : Handle} {n : ℕ} (hn : r.of h = some n) :
    r.number h = n := by rw [number, hn, Option.getD_some]

section Runs
variable {A : ProxyApi} {V : A.toSocketApi.View} {s : ProxyRun A} {types types' : ℕ → SocketType}

def ProxyRun.serials (s : ProxyRun A) : Serials := .ofCalls s.world.socketCalls

/-- An object has the socket behind the handle. -/
def ProxyRun.holds (s : ProxyRun A) (h : Handle) : Prop :=
  Owned (fun o : SocketObject => o.mSocket) s.world.sockets h

/-- The roster tells which sockets the objects have, and which they had that the
pointers of the proxies are from; `types` are the types of all sockets so far. -/
structure Proxied (V : A.toSocketApi.View) (s : ProxyRun A) (types : ℕ → SocketType) :
    Prop where
  sockets : SocketsTrack (fun type n => n < s.serials.next ∧ types n = type)
    (V.isOpen s.world.zmq) s.serials.number s.world.sockets s.roster.sockets
  given : ∀ h, (s.serials.of h).isSome = true ↔ s.holds h
  born : s.roster.born = s.serials.next
  proxies : ObjectPool.Related (PointsAs s.serials types) s.world.proxies s.roster.proxies

theorem proxied_initial (V : A.toSocketApi.View) (σ : A.State) :
    Proxied V (.initial σ) types := by
  constructor
  case sockets => exact .empty
  case given =>
    intro h
    constructor
    · intro hh
      cases hh
    · rintro ⟨i, o, hi, _⟩
      cases hi
  case born => rfl
  case proxies => exact .empty

/-- A socket has not been closed if and only if an object has it. -/
theorem Proxied.lives_iff (hs : Proxied V s types) {n : ℕ} :
    s.Lives n ↔ ∃ h, s.serials.of h = some n := by
  constructor
  · rintro ⟨j, hj⟩
    obtain ⟨a, h, ha, hh, hn⟩ := hs.sockets.owner hj
    obtain ⟨m, hm⟩ := Option.isSome_iff_exists.mp ((hs.given h).mpr ⟨j, a, ha, hh⟩)
    rw [Serials.number_of hm] at hn
    exact ⟨h, hn ▸ hm⟩
  · rintro ⟨h, hn⟩
    obtain ⟨j, a, ha, hh⟩ := (hs.given h).mp (by rw [hn]; rfl)
    refine ⟨j, ?_⟩
    rw [hs.sockets.get ha, show a.mSocket = some h from hh, Option.map_some, Serials.number_of hn]

/-- The pointer is that of the socket object that now has what was designated. -/
def ProxyRun.Has (V : A.toSocketApi.View) (s : ProxyRun A) (allowed : SocketType → Bool)
    (m : Option Handle) (d : Option ℕ) : Prop :=
  Option.Rel (fun h n => ∃ j a, s.world.sockets.get j = some a ∧ a.mSocket = some h ∧
    s.roster.sockets.get j = some (some n) ∧ allowed a.type = true ∧ V.isOpen s.world.zmq h) m d

theorem ProxyRun.Has.isOpen {allowed : SocketType → Bool} {h : Handle} {d : Option ℕ}
    (hm : s.Has V allowed (some h) d) : V.isOpen s.world.zmq h := by
  cases hm with
  | some hh =>
    obtain ⟨_, _, _, _, _, _, hopen⟩ := hh
    exact hopen

/-- Of a pointer that was designated. -/
theorem Proxied.still_iff (hs : Proxied V s types) {allowed : SocketType → Bool}
    {m : Option Handle} {d : Option ℕ} (hp : Option.Rel (Points s.serials types allowed) m d) :
    m.map s.serials.of = d.map some ↔ ∀ n, d = some n → s.Lives n := by
  cases hp with
  | none => simp
  | @some h n hh =>
    simp only [Option.map_some, Option.some.injEq, forall_eq']
    rw [hs.lives_iff]
    constructor
    · exact fun hn => ⟨h, hn⟩
    · rintro ⟨g, hg⟩
      rwa [← hh.2.2 g hg]

theorem Proxied.has (hs : Proxied V s types) {allowed : SocketType → Bool}
    {m : Option Handle} {d : Option ℕ} (hp : Option.Rel (Points s.serials types allowed) m d)
    (hlives : ∀ n, d = some n → s.Lives n) : s.Has V allowed m d := by
  cases hp with
  | none => exact .none
  | @some h n hh =>
    obtain ⟨_, hallowed, hall⟩ := hh
    obtain ⟨g, hg⟩ := hs.lives_iff.mp (hlives n rfl)
    obtain rfl := hall g hg
    obtain ⟨j, a, ha, hm⟩ := (hs.given g).mp (by rw [hg]; rfl)
    have hlook := hs.sockets.get ha
    rw [show a.mSocket = some g from hm, Option.map_some, Serials.number_of hg] at hlook
    have hfits := (hs.sockets.fits j a g ha hm).2
    rw [Serials.number_of hg] at hfits
    exact .some ⟨j, a, ha, hm, hlook, hfits ▸ hallowed, hs.sockets.isOpen g ⟨j, a, ha, hm⟩⟩

/-- Whether a proxy passes the pointers of what it was given can be told from the
objects. -/
theorem Proxied.passes_iff (hs : Proxied V s types) (op : ProxyOp) :
    s.PassesDesignated op ↔ s.DesignatesLive op := by
  cases op with
  | run this frontend backend =>
    simp only [ProxyRun.PassesDesignated, ProxyRun.DesignatesLive]
    refine forall_congr' fun d => imp_congr_right fun hd => ?_
    have hrel := hs.proxies.2 this
    rw [hd] at hrel
    generalize hp : s.world.proxies.get this = o at hrel
    cases hrel with
    | @some p _ hpoints =>
      rw [ProxyWorld.captureOf_of_get hp, ProxyWorld.controlOf_of_get hp]
      exact and_congr (hs.still_iff hpoints.1) (hs.still_iff hpoints.2)
  | socket op => exact Iff.rfl
  | construct => exact Iff.rfl
  | newMove other => exact Iff.rfl
  | assignMove this other => exact Iff.rfl
  | swap lhs rhs => exact Iff.rfl
  | destroy this => exact Iff.rfl
  | setCaptureSocket this i => exact Iff.rfl
  | setControlSocket this i => exact Iff.rfl

/-! ### Operations on sockets -/

theorem proxied_of_returned {op : ProxyOp} {w : ProxyWorld A}
    (hx : op.perform s.world = (.returned (), w)) (hs : Proxied V ⟨w, s.roster.note op⟩ types) :
    Proxied V (s.step op) types := by
  rwa [ProxyRun.step, hx]

/-- A step at the proxies of which nothing changed. -/
theorem Proxied.of_sockets (hs : Proxied V s types) {u : SocketWorld A.toSocketApi}
    {q : ObjectPool (Option ℕ)} (hr : s.serials.Extends (.ofCalls u.calls))
    (htypes : ∀ n, n < s.serials.next → types' n = types n)
    (ht : SocketsTrack (fun type n => n < (Serials.ofCalls u.calls).next ∧ types' n = type)
      (V.isOpen u.zmq) (Serials.ofCalls u.calls).number u.sockets q)
    (hgiven : ∀ h, ((Serials.ofCalls u.calls).of h).isSome = true ↔
      Owned (fun o : SocketObject => o.mSocket) u.sockets h) :
    Proxied V ⟨s.world.setSockets u, ⟨q, s.roster.proxies, (Serials.ofCalls u.calls).next⟩⟩
      types' :=
  ⟨ht, hgiven, rfl, hs.proxies.mono fun _ _ hp => hp.later hr htypes⟩

/-- A step at which no call was made that opened or closed a socket. -/
theorem Proxied.of_passed (hs : Proxied V s types) {sockets : ObjectPool SocketObject}
    {q : ObjectPool (Option ℕ)}
    (ht : SocketsTrack (fun type n => n < s.serials.next ∧ types n = type)
      (V.isOpen s.world.zmq) s.serials.number sockets q)
    (ho : ∀ h, Owned (fun o : SocketObject => o.mSocket) sockets h ↔ s.holds h) :
    Proxied V ⟨{ s.world with sockets := sockets }, { s.roster with sockets := q }⟩ types :=
  ⟨ht, fun h => (hs.given h).trans (ho h).symm, hs.born, hs.proxies⟩

theorem Proxied.refused (hV : V.Laws) (hs : Proxied V s types) {context : Option ContextHandle}
    {type : ℤ} {σ : A.State} (hr : A.socket context type s.world.zmq = (none, σ)) :
    Proxied V ⟨s.world.setSockets (s.world.socketWorld.record σ (.socket type none)), s.roster⟩
      types := by
  have hserials : (⟨s.world.setSockets (s.world.socketWorld.record σ (.socket type none)),
      s.roster⟩ : ProxyRun A).serials = s.serials := Serials.ofCalls_append ..
  have hopen : V.isOpen σ = V.isOpen s.world.zmq :=
    funext fun g => propext (hV.null _ _ _ σ hr g)
  constructor
  case sockets =>
    rw [hserials]
    exact hs.sockets.kept (.of_eq hopen rfl)
  case given =>
    rw [hserials]
    exact hs.given
  case born =>
    rw [hserials]
    exact hs.born
  case proxies =>
    rw [hserials]
    exact hs.proxies

theorem Proxied.created (hV : V.Laws) (hs : Proxied V s types) {context : Option ContextHandle}
    {type : SocketType} {h : Handle} {σ : A.State}
    (hr : A.socket context type.typeId s.world.zmq = (some h, σ)) (elided : Bool) :
    Proxied V ⟨s.world.setSockets (s.world.socketWorld.created type h σ elided),
      s.roster.note (.socket (.create type context elided))⟩
      (Function.update types s.serials.next type) := by
  obtain ⟨hfresh, hopen⟩ := hV.fresh _ _ _ h σ hr
  obtain ⟨r, hr⟩ : ∃ r, r = s.serials.after (.socket type.typeId (some h)) := ⟨_, rfl⟩
  have hserials : Serials.ofCalls (s.world.socketWorld.created type h σ elided).calls = r := by
    rw [hr]
    cases elided <;> exact Serials.ofCalls_append ..
  have hzmq : (s.world.socketWorld.created type h σ elided).zmq = σ := by
    cases elided <;> rfl
  have hof : ∀ g, r.of g = if g = h then some s.serials.next else s.serials.of g := by
    intro g
    rw [hr, Serials.after_opened]
  have hnext : r.next = s.serials.next + 1 := by rw [hr, Serials.after]
  have hself : r.number h = s.serials.next := Serials.number_of (by rw [hof, if_pos rfl])
  have htypes : ∀ n, n < s.serials.next →
      Function.update types s.serials.next type n = types n :=
    fun n hn => Function.update_of_ne (Nat.ne_of_lt hn) _ _
  have hkept : Kept (V.isOpen s.world.zmq) s.serials.number (V.isOpen σ) r.number := by
    intro g hg
    have hgh : g ≠ h := by
      rintro rfl
      exact hfresh hg
    refine ⟨(hopen g).mpr (.inl hg), ?_⟩
    rw [Serials.number, hof, if_neg hgh]
    rfl
  have hfits : SocketsTrack (fun type' n => n < r.next ∧
      Function.update types s.serials.next type n = type') (V.isOpen s.world.zmq)
      s.serials.number s.world.sockets s.roster.sockets := by
    refine hs.sockets.mono fun a n ⟨hn, ha⟩ => ⟨?_, (htypes n hn).trans ha⟩
    rw [hnext]
    exact Nat.lt_succ_of_lt hn
  have hlast : s.serials.next < r.next := by
    rw [hnext]
    exact Nat.lt_succ_self _
  have hnew : r.number h < r.next ∧
      Function.update types s.serials.next type (r.number h) = type := by
    rw [hself]
    exact ⟨hlast, Function.update_self ..⟩
  have htracks := (tracks_created (w := s.world.socketWorld) hfits hkept hfresh
    ((hopen h).mpr (.inr rfl)) hnew σ elided).2
  have hlook : s.roster.sockets.next = s.world.sockets.next := by
    rw [← hs.sockets.seen, seen, ObjectPool.next_map]
  have hnote : s.roster.note (.socket (.create type context elided)) =
      ⟨(valueMachine ℕ).run s.roster.sockets
        (creationEvents s.world.sockets.next elided (r.number h)), s.roster.proxies, r.next⟩ := by
    rw [Roster.note, hlook, hs.born, hself, hnext]
  rw [hnote, ← hserials]
  apply hs.of_sockets
  case hr =>
    rw [hserials, hr]
    exact ((Serials.proper _).after _).2
  case htypes => exact htypes
  case ht =>
    rw [hserials, hzmq]
    exact htracks
  case hgiven =>
    intro g
    rw [hserials, hof, owned_created_iff]
    by_cases hg : g = h
    · simp [hg]
    · rw [if_neg hg, or_iff_left hg]
      exact hs.given g

/-- The end of a socket object, and of its socket. -/
theorem Proxied.closed (hs : Proxied V s types) {this : ObjId} {o : SocketObject} {h : Handle}
    (ho : s.world.sockets.get this = some o) (hm : o.mSocket = some h) {σ : A.State}
    (hopen : ∀ g, V.isOpen σ g ↔ V.isOpen s.world.zmq g ∧ g ≠ h) :
    Proxied V ⟨s.world.setSockets ⟨σ, s.world.sockets.put this none,
      s.world.socketCalls ++ [.close h 0]⟩, s.roster.note (.socket (.destroy this))⟩ types := by
  obtain ⟨r, hr⟩ : ∃ r, r = s.serials.after (.close h 0) := ⟨_, rfl⟩
  have hserials : Serials.ofCalls (s.world.socketCalls ++ [.close h 0]) = r := by
    rw [hr]
    exact Serials.ofCalls_append ..
  have hof : ∀ g, r.of g = if g = h then none else s.serials.of g := by
    intro g
    rw [hr, Serials.after_closed]
  have hnext : r.next = s.serials.next := by
    rw [hr]
    rfl
  have hnote : s.roster.note (.socket (.destroy this)) =
      ⟨(Event.destroyed this).apply s.roster.sockets, s.roster.proxies, r.next⟩ := by
    rw [Roster.note, hnext, ← hs.born]
  rw [hnote, ← hserials]
  apply hs.of_sockets
  case hr =>
    rw [hserials, hr]
    exact ((Serials.proper _).after _).2
  case htypes => exact fun _ _ => rfl
  case ht =>
    rw [hserials, hnext]
    refine hs.sockets.destroyed ho fun g hg hne => ?_
    have hgh : g ≠ h := by
      rintro rfl
      exact hne hm
    refine ⟨(hopen g).mpr ⟨hg, hgh⟩, ?_⟩
    rw [Serials.number, hof, if_neg hgh]
    rfl
  case hgiven =>
    intro g
    rw [hserials, hof]
    by_cases hg : g = h
    · subst hg
      rw [if_pos rfl]
      refine iff_of_false (by simp) fun hh => (owned_put_none hs.sockets.single ho hh).2 hm
    · have hne : o.mSocket ≠ some g := by
        intro hh
        exact hg (Option.some.inj (hh.symm.trans hm))
      rw [if_neg hg, hs.given g]
      exact ⟨fun hh => hh.put_none ho hne, fun hh => (owned_put_none hs.sockets.single ho hh).1⟩

theorem Proxied.create (hV : V.Laws) (hs : Proxied V s types) (type : SocketType)
    (context : Option ContextHandle) (elided : Bool) :
    ∃ types', Proxied V (s.step (.socket (.create type context elided))) types' := by
  cases context with
  | none =>
    have hx : (ProxyOp.socket (.create type none elided)).perform s.world =
        (.aborted, s.world) := by
      rw [ProxyOp.perform, SocketWorld.perform_create_null]
      rfl
    refine ⟨types, ?_⟩
    rwa [ProxyRun.step, hx]
  | some c =>
    rcases hr : A.socket (some c) type.typeId s.world.zmq with ⟨_ | h, σ⟩
    · have hx : (ProxyOp.socket (.create type (some c) elided)).perform s.world =
          (.threw ⟨A.errno σ⟩, s.world.setSockets
            (s.world.socketWorld.record σ (.socket type.typeId none))) := by
        rw [ProxyOp.perform, SocketWorld.perform_create_refused (w := s.world.socketWorld) hr]
        rfl
      refine ⟨types, ?_⟩
      rw [ProxyRun.step, hx]
      exact hs.refused hV hr
    · have hx : (ProxyOp.socket (.create type (some c) elided)).perform s.world =
          (.returned (), s.world.setSockets
            (s.world.socketWorld.created type h σ elided)) := by
        rw [ProxyOp.perform, SocketWorld.perform_create_opened (w := s.world.socketWorld) hr]
        rfl
      exact ⟨_, proxied_of_returned hx (hs.created hV hr elided)⟩

theorem Proxied.destroy (hV : V.Laws) (hs : Proxied V s types) {this : ObjId}
    (hlive : (s.world.socketWorld.typeOf this).isSome = true) :
    Proxied V (s.step (.socket (.destroy this))) types := by
  obtain ⟨o, ho, hperform⟩ := SocketWorld.perform_destroy hlive
  cases hm : o.mSocket with
  | none =>
    have hx : (ProxyOp.socket (.destroy this)).perform s.world = (.returned (),
        { s.world with sockets := s.world.sockets.put this none }) := by
      rw [ProxyOp.perform, hperform, SocketWorld.destroy_of_null ho hm]
      rfl
    exact proxied_of_returned hx <| hs.of_passed
      (hs.sockets.destroyed ho fun g hg _ => ⟨hg, rfl⟩) fun h => owned_put_none_iff ho hm
  | some h =>
    obtain ⟨σ, hclose, hopen⟩ := hV.close h s.world.zmq (hs.sockets.isOpen h ⟨this, o, ho, hm⟩)
    have hx : (ProxyOp.socket (.destroy this)).perform s.world = (.returned (),
        s.world.setSockets ⟨σ, s.world.sockets.put this none,
          s.world.socketCalls ++ [.close h 0]⟩) := by
      rw [ProxyOp.perform, hperform, SocketWorld.destroy_of_some ho hm hclose]
      rfl
    exact proxied_of_returned hx (hs.closed ho hm hopen)

theorem Proxied.socket (hV : V.Laws) (hs : Proxied V s types) {op : SocketOp}
    (hop : op.Allowed s.world.socketWorld) :
    ∃ types', Proxied V (s.step (.socket op)) types' := by
  cases op with
  | create type context elided => exact hs.create hV type context elided
  | newMove other =>
    obtain ⟨o, ho, hperform⟩ := SocketWorld.perform_newMove hop
    have hx : (ProxyOp.socket (.newMove other)).perform s.world =
        (.returned (), s.world.setSockets (s.world.socketWorld.moved other o)) := by
      rw [ProxyOp.perform, hperform]
      rfl
    exact ⟨types, proxied_of_returned hx <| hs.of_passed
      (tracks_moved (w := s.world.socketWorld) hs.sockets ho) fun h => owned_take_iff ho rfl rfl⟩
  | assignMove this other =>
    obtain ⟨o, u, ho, hu, htype, hperform⟩ := SocketWorld.perform_assignMove hop.1 hop.2
    have hx : (ProxyOp.socket (.assignMove this other)).perform s.world =
        (.returned (), s.world.setSockets (s.world.socketWorld.exchanged this other o u)) := by
      rw [ProxyOp.perform, hperform]
      rfl
    exact ⟨types, proxied_of_returned hx <| hs.of_passed
      (tracks_exchanged (w := s.world.socketWorld) hs.sockets ho hu htype)
      fun h => owned_exchange_iff ho hu rfl rfl⟩
  | destroy this => exact ⟨types, hs.destroy hV hop⟩

/-! ### Operations on proxies -/

theorem Proxied.of_proxies (hs : Proxied V s types) {proxies : ObjectPool Proxy}
    {q : ObjectPool Designation} (hrel : ObjectPool.Related (PointsAs s.serials types) proxies q) :
    Proxied V ⟨{ s.world with proxies := proxies }, { s.roster with proxies := q }⟩ types :=
  ⟨hs.sockets, hs.given, hs.born, hrel⟩

theorem pointsAs_new (r : Serials) (types : ℕ → SocketType) :
    PointsAs r types Proxy.new ⟨none, none⟩ := ⟨.none, .none⟩

/-- The pointer of a socket object is that of the socket it has. -/
theorem Proxied.points (hs : Proxied V s types) {i : ObjId} {type : SocketType}
    (htype : s.world.socketWorld.typeOf i = some type) {allowed : SocketType → Bool}
    (hallowed : allowed type = true) :
    Option.Rel (Points s.serials types allowed) (s.world.mSocket i) (s.roster.socketOf i) := by
  obtain ⟨o, ho, rfl⟩ := Option.map_eq_some_iff.mp htype
  have hm : s.world.mSocket i = o.mSocket := SocketWorld.mSocket_of_get ho
  have hlook := hs.sockets.get ho
  rw [hm, Roster.socketOf, hlook]
  cases hsocket : o.mSocket with
  | none => exact .none
  | some h =>
    obtain ⟨n, hn⟩ := Option.isSome_iff_exists.mp ((hs.given h).mpr ⟨i, o, ho, hsocket⟩)
    have hfits := hs.sockets.fits i o h ho hsocket
    rw [Serials.number_of hn] at hfits
    rw [Option.map_some, Serials.number_of hn]
    exact .some ⟨hfits.1, hfits.2 ▸ hallowed,
      fun g hg => (Serials.proper _).distinct g h n hg hn⟩

theorem Proxied.swapped (hs : Proxied V s types) {i j : ObjId}
    (hi : (s.world.proxies.get i).isSome = true) (hj : (s.world.proxies.get j).isSome = true) :
    ∃ w, Proxy.swap i j s.world = (.returned (), w) ∧
      Proxied V ⟨w, s.roster.note (.swap i j)⟩ types := by
  obtain ⟨p, hp⟩ := Option.isSome_iff_exists.mp hi
  obtain ⟨q, hq⟩ := Option.isSome_iff_exists.mp hj
  obtain ⟨d, hd, hpd⟩ := hs.proxies.of_get hp
  obtain ⟨e, he, hqe⟩ := hs.proxies.of_get hq
  refine ⟨_, ProxyWorld.swap_apply hp hq, ?_⟩
  have hlt := ObjectPool.lt_next_of_get hp
  have hlt' := ObjectPool.lt_next_of_get hq
  have hrel := hs.of_proxies
    ((hs.proxies.put hlt (.some hqe)).put (by rwa [ObjectPool.next_put]) (.some hpd))
  simpa only [Roster.note, hd, he] using hrel

theorem Proxied.captureSet (hs : Proxied V s types) {this i : ObjId} {type : SocketType}
    (hlive : (s.world.proxies.get this).isSome = true)
    (htype : s.world.socketWorld.typeOf i = some type) (hcaptures : Proxy.captures type = true) :
    Proxied V (s.step (.setCaptureSocket this i)) types := by
  obtain ⟨p, hp⟩ := Option.isSome_iff_exists.mp hlive
  obtain ⟨d, hd, hpd⟩ := hs.proxies.of_get hp
  have hx : (ProxyOp.setCaptureSocket this i).perform s.world =
      (.returned (), s.world.setCapture this (s.world.mSocket i)) := rfl
  rw [ProxyWorld.setCapture_of_get hp] at hx
  have hnew : PointsAs s.serials types ⟨s.world.mSocket i, p.mControlSocketPtr⟩
      ⟨s.roster.socketOf i, d.control⟩ := ⟨hs.points htype hcaptures, hpd.2⟩
  have hrel := hs.of_proxies (hs.proxies.put (ObjectPool.lt_next_of_get hp) (.some hnew))
  apply proxied_of_returned hx
  simpa only [Roster.note, hd] using hrel

theorem Proxied.controlSet (hs : Proxied V s types) {this i : ObjId} {type : SocketType}
    (hlive : (s.world.proxies.get this).isSome = true)
    (htype : s.world.socketWorld.typeOf i = some type) (hcontrols : Proxy.controls type = true) :
    Proxied V (s.step (.setControlSocket this i)) types := by
  obtain ⟨p, hp⟩ := Option.isSome_iff_exists.mp hlive
  obtain ⟨d, hd, hpd⟩ := hs.proxies.of_get hp
  have hx : (ProxyOp.setControlSocket this i).perform s.world =
      (.returned (), s.world.setControl this (s.world.mSocket i)) := rfl
  rw [ProxyWorld.setControl_of_get hp] at hx
  have hnew : PointsAs s.serials types ⟨p.mCaptureSocketPtr, s.world.mSocket i⟩
      ⟨d.capture, s.roster.socketOf i⟩ := ⟨hpd.1, hs.points htype hcontrols⟩
  have hrel := hs.of_proxies (hs.proxies.put (ObjectPool.lt_next_of_get hp) (.some hnew))
  apply proxied_of_returned hx
  simpa only [Roster.note, hd] using hrel

/-- The sockets of the objects named are open. -/
theorem Proxied.isOpen (hs : Proxied V s types) {i : ObjId} {h : Handle}
    (hm : s.world.mSocket i = some h) : V.isOpen s.world.zmq h := by
  obtain ⟨o, ho, hh⟩ := Option.bind_eq_some_iff.mp hm
  exact hs.sockets.isOpen h ⟨i, o, ho, hh⟩

/-- What running a proxy comes to, and what it passes on. -/
theorem Proxied.ran (hV : A.Laws V) (hs : Proxied V s types) {this frontend backend : ObjId}
    (hlive : (s.world.proxies.get this).isSome = true)
    (hlives : s.DesignatesLive (.run this frontend backend)) :
    ∃ d capture control result σ, s.roster.proxies.get this = some d ∧
      s.Has V Proxy.captures capture d.capture ∧ s.Has V Proxy.controls control d.control ∧
      A.proxySteerable (s.world.mSocket frontend) (s.world.mSocket backend) capture control
        s.world.zmq = (result, σ) ∧
      Proxy.run this frontend backend s.world = (.returned (control.isNone || decide (result = 0)),
        s.world.ran σ ⟨s.world.mSocket frontend, s.world.mSocket backend, capture, control,
          result⟩) ∧
      V.isOpen σ = V.isOpen s.world.zmq := by
  obtain ⟨p, hp⟩ := Option.isSome_iff_exists.mp hlive
  obtain ⟨d, hd, hpd⟩ := hs.proxies.of_get hp
  have hcapture := hs.has hpd.1 (hlives d hd).1
  have hcontrol := hs.has hpd.2 (hlives d hd).2
  have hopen : ∀ h, some h ∈ [s.world.mSocket frontend, s.world.mSocket backend,
      p.mCaptureSocketPtr, p.mControlSocketPtr] → V.isOpen s.world.zmq h := by
    intro h hmem
    simp only [List.mem_cons, List.not_mem_nil, or_false] at hmem
    obtain hm | hm | hm | hm := hmem
    · exact hs.isOpen hm.symm
    · exact hs.isOpen hm.symm
    · rw [← hm] at hcapture
      exact hcapture.isOpen
    · rw [← hm] at hcontrol
      exact hcontrol.isOpen
  have hsame := hV.proxySteerable _ _ _ _ s.world.zmq hopen
  rcases hr : A.proxySteerable (s.world.mSocket frontend) (s.world.mSocket backend)
    p.mCaptureSocketPtr p.mControlSocketPtr s.world.zmq with ⟨result, σ⟩
  rw [hr] at hsame
  refine ⟨d, _, _, result, σ, hd, hcapture, hcontrol, hr, ?_, hsame⟩
  simp only [Proxy.run, bind_eq, Exec.bind, read_apply, pure_apply, Proxy.zmqProxySteerable,
    ProxyWorld.captureOf_of_get hp, ProxyWorld.controlOf_of_get hp, hr]
  cases p.mControlSocketPtr <;> rfl

theorem Proxied.step (hV : A.Laws V) (hs : Proxied V s types) {op : ProxyOp}
    (hop : op.Allowed s.world) (hlives : s.DesignatesLive op) :
    ∃ types', Proxied V (s.step op) types' := by
  cases op with
  | socket op => exact hs.socket hV.toLaws hop
  | construct =>
    have hx : ProxyOp.construct.perform s.world =
        (.returned (), { s.world with proxies := s.world.proxies.alloc Proxy.new }) := rfl
    exact ⟨types, proxied_of_returned hx
      (hs.of_proxies (hs.proxies.alloc (pointsAs_new s.serials types)))⟩
  | newMove other =>
    obtain ⟨p, hp⟩ := Option.isSome_iff_exists.mp hop
    obtain ⟨d, hd, hpd⟩ := hs.proxies.of_get hp
    have hx : (ProxyOp.newMove other).perform s.world = (.returned (),
        { s.world with proxies := (s.world.proxies.put other (some Proxy.new)).alloc p }) :=
      discard_of_returned (ProxyWorld.newMove_apply hp)
    have hrel := hs.of_proxies ((hs.proxies.put (ObjectPool.lt_next_of_get hp)
      (.some (pointsAs_new s.serials types))).alloc hpd)
    refine ⟨types, proxied_of_returned hx ?_⟩
    simpa only [Roster.note, hd] using hrel
  | assignMove this other =>
    obtain ⟨w, hx, hw⟩ := hs.swapped hop.1 hop.2
    exact ⟨types, proxied_of_returned hx hw⟩
  | swap lhs rhs =>
    obtain ⟨w, hx, hw⟩ := hs.swapped hop.1 hop.2
    exact ⟨types, proxied_of_returned hx hw⟩
  | destroy this =>
    obtain ⟨p, hp⟩ := Option.isSome_iff_exists.mp hop
    have hx : (ProxyOp.destroy this).perform s.world =
        (.returned (), { s.world with proxies := s.world.proxies.put this none }) := rfl
    exact ⟨types, proxied_of_returned hx
      (hs.of_proxies (hs.proxies.put (ObjectPool.lt_next_of_get hp) .none))⟩
  | setCaptureSocket this i =>
    obtain ⟨hlive, type, htype, hcaptures⟩ := hop
    exact ⟨types, hs.captureSet hlive htype hcaptures⟩
  | setControlSocket this i =>
    obtain ⟨hlive, type, htype, hcontrols⟩ := hop
    exact ⟨types, hs.controlSet hlive htype hcontrols⟩
  | run this frontend backend =>
    obtain ⟨d, capture, control, result, σ, _, _, _, _, hrun, hopen⟩ := hs.ran hV hop.1 hlives
    have hx : (ProxyOp.run this frontend backend).perform s.world = (.returned (), _) :=
      discard_of_returned hrun
    refine ⟨types, proxied_of_returned hx ?_⟩
    exact ⟨hs.sockets.kept (.of_eq hopen rfl), hs.given, hs.born, hs.proxies⟩

/-- In a run of operations on sockets and proxies, every proxy that runs passes on
pointers that are still those of the sockets it was given if and only if there are, at
that time, objects that have these sockets. In such a run a proxy always passes on the
pointers of its frontend, its backend and the objects that now have what it was given,
which are open and of the types accepted; it returns false if it has a control socket and
libzmq reports an error. -/
theorem proxies_pass_designated_iff (hV : A.Laws V) (σ : A.State) (ops : List ProxyOp) :
    (((proxyMachine A).restrict ProxyRun.PassesDesignated).Admissible (.initial σ) ops ↔
      ((proxyMachine A).restrict ProxyRun.DesignatesLive).Admissible (.initial σ) ops) ∧
    (((proxyMachine A).restrict ProxyRun.DesignatesLive).Admissible (.initial σ) ops →
      let s := (proxyMachine A).run (.initial σ) ops
      ∀ this frontend backend, (ProxyOp.run this frontend backend).Allowed s.world →
        s.DesignatesLive (.run this frontend backend) →
        (∀ h, some h ∈ [s.world.mSocket frontend, s.world.mSocket backend] →
          V.isOpen s.world.zmq h) ∧
        ∃ d capture control result σ', s.roster.proxies.get this = some d ∧
          s.Has V Proxy.captures capture d.capture ∧ s.Has V Proxy.controls control d.control ∧
          A.proxySteerable (s.world.mSocket frontend) (s.world.mSocket backend) capture control
            s.world.zmq = (result, σ') ∧
          Proxy.run this frontend backend s.world =
            (.returned (control.isNone || decide (result = 0)),
              s.world.ran σ' ⟨s.world.mSocket frontend, s.world.mSocket backend, capture, control,
                result⟩)) := by
  have hinit : ∃ types, Proxied V (.initial σ : ProxyRun A) types :=
    ⟨fun _ => .dealer, proxied_initial V σ⟩
  have hiff : ∀ (s : ProxyRun A) (op : ProxyOp), (∃ types, Proxied V s types) →
      (proxyMachine A).Allowed s op → (s.PassesDesignated op ↔ s.DesignatesLive op) := by
    rintro s op ⟨types, hs⟩ _
    exact hs.passes_iff op
  have hstep : ∀ (s : ProxyRun A) (op : ProxyOp), (∃ types, Proxied V s types) →
      (proxyMachine A).Allowed s op → s.DesignatesLive op →
      ∃ types, Proxied V ((proxyMachine A).step s op) types := by
    rintro s op ⟨types, hs⟩ hop hlives
    exact hs.step hV hop hlives
  refine ⟨Machine.restrict_congr hiff hstep hinit ops, fun hops => ?_⟩
  intro s this frontend backend hop hlives
  obtain ⟨types, hs⟩ : ∃ types, Proxied V s types :=
    Machine.run_invariant (M := (proxyMachine A).restrict ProxyRun.DesignatesLive)
      (fun s op hs hop => hstep s op hs hop.1 hop.2) hinit hops
  obtain ⟨d, capture, control, result, σ', hd, hcapture, hcontrol, hr, hrun, _⟩ :=
    hs.ran hV hop.1 hlives
  refine ⟨?_, d, capture, control, result, σ', hd, hcapture, hcontrol, hr, hrun⟩
  intro h hmem
  obtain hm | hm : some h = s.world.mSocket frontend ∨ some h = s.world.mSocket backend := by
    simpa using hmem
  · exact hs.isOpen hm.symm
  · exact hs.isOpen hm.symm

end Runs

/-- Counting the objects that have the socket. -/
theorem ProxyRun.lives_iff_count {A : ProxyApi} (s : ProxyRun A) (n : ℕ) :
    0 < s.roster.sockets.count (fun o => o.any (· == n)) ↔ s.Lives n := by
  constructor
  · intro hpos
    obtain ⟨j, o, hj, ho⟩ := ObjectPool.exists_of_count_pos hpos
    cases o with
    | none => cases ho
    | some m => exact ⟨j, eq_of_beq ho ▸ hj⟩
  · rintro ⟨j, hj⟩
    exact ObjectPool.count_pos hj (by simp)

instance {A : ProxyApi} (s : ProxyRun A) (n : ℕ) : Decidable (s.Lives n) :=
  decidable_of_iff _ (s.lives_iff_count n)

instance {A : ProxyApi} (s : ProxyRun A) (this frontend backend : ObjId) :
    Decidable (s.DesignatesLive (.run this frontend backend)) :=
  inferInstanceAs (Decidable (∀ d ∈ s.roster.proxies.get this,
    (∀ n ∈ d.capture, s.Lives n) ∧ ∀ n ∈ d.control, s.Lives n))

/-! ### Proxies over the table of open sockets -/

namespace ProxyTable

/-- A proxy runs until it is told to end, or else until the context ends. -/
def api : ProxyApi where
  toSocketApi := SocketTable.api
  proxySteerable frontend backend _ control σ :=
    if frontend.isSome ∧ backend.isSome ∧ control.isSome then (0, σ) else (-1, σ)

theorem laws : api.Laws SocketTable.view := by
  refine ⟨SocketTable.laws, ?_⟩
  intro frontend backend capture control σ _
  simp only [api]
  split_ifs <;> rfl

def start : ProxyRun api := .initial ⟨[], 5⟩

/-- A capture socket changes objects and proxies change places; when it is closed, the
proxy is given another one before it runs again, as the pointer it had is that of a
pull socket by then. -/
def tour : List ProxyOp :=
  [.socket (.create .dealer (some 7) true), .socket (.create .router (some 7) false),
    .socket (.create .push (some 7) true), .socket (.create .subscribe (some 7) true),
    .construct, .setCaptureSocket 0 3, .setControlSocket 0 4, .run 0 0 2,
    .socket (.newMove 3), .socket (.destroy 3), .newMove 0, .run 1 2 0,
    .socket (.create .push (some 7) true), .socket (.create .push (some 7) true),
    .setCaptureSocket 0 6, .swap 0 1, .run 1 0 2, .socket (.destroy 6),
    .socket (.create .pull (some 7) true), .setCaptureSocket 1 5, .setControlSocket 1 7,
    .assignMove 0 1, .assignMove 0 0, .destroy 1]

theorem tour_designates :
    ((proxyMachine api).restrict ProxyRun.DesignatesLive).Admissible start tour :=
  ⟨⟨trivial, trivial⟩, ⟨trivial, trivial⟩, ⟨trivial, trivial⟩, ⟨trivial, trivial⟩,
    ⟨trivial, trivial⟩, ⟨⟨rfl, .push, rfl, rfl⟩, trivial⟩, ⟨⟨rfl, .subscribe, rfl, rfl⟩, trivial⟩,
    ⟨⟨rfl, .dealer, .router, rfl, rfl, rfl⟩, by decide +kernel⟩,
    ⟨rfl, trivial⟩, ⟨rfl, trivial⟩, ⟨rfl, trivial⟩,
    ⟨⟨rfl, .router, .dealer, rfl, rfl, rfl⟩, by decide +kernel⟩,
    ⟨trivial, trivial⟩, ⟨trivial, trivial⟩, ⟨⟨rfl, .push, rfl, rfl⟩, trivial⟩,
    ⟨⟨rfl, rfl⟩, trivial⟩, ⟨⟨rfl, .dealer, .router, rfl, rfl, rfl⟩, by decide +kernel⟩,
    ⟨rfl, trivial⟩, ⟨trivial, trivial⟩, ⟨⟨rfl, .push, rfl, rfl⟩, trivial⟩,
    ⟨⟨rfl, .pull, rfl, rfl⟩, trivial⟩, ⟨⟨rfl, rfl⟩, trivial⟩, ⟨⟨rfl, rfl⟩, trivial⟩,
    ⟨rfl, trivial⟩, trivial⟩

/-- Before it is given another one, its capture pointer is that of the pull socket. -/
example : let s := (proxyMachine api).run start (tour.take 19)
    s.world.captureOf 1 = s.world.mSocket 7 ∧ ¬s.DesignatesLive (.run 1 0 2) := by decide +kernel

/-- The state at the end of the tour. -/
def tourEnd : ProxyRun api := (proxyMachine api).run start tour

end ProxyTable

/-- At the end the proxy runs with the pointers of the two objects that have what it
was given. -/
theorem proxies_pass_designated_iff_tour :
    ((proxyMachine ProxyTable.api).restrict ProxyRun.PassesDesignated).Admissible
      ProxyTable.start ProxyTable.tour ∧
    ∃ capture control, ProxyTable.tourEnd.Has SocketTable.view Proxy.captures capture (some 2) ∧
      ProxyTable.tourEnd.Has SocketTable.view Proxy.controls control (some 5) := by
  have hrun := proxies_pass_designated_iff ProxyTable.laws ⟨[], 5⟩ ProxyTable.tour
  refine ⟨hrun.1.mpr ProxyTable.tour_designates, ?_⟩
  have hop : (ProxyOp.run 0 0 2).Allowed ProxyTable.tourEnd.world :=
    ⟨by decide +kernel, .dealer, .router, by decide +kernel, by decide +kernel, rfl⟩
  have hlives : ProxyTable.tourEnd.DesignatesLive (.run 0 0 2) := by decide +kernel
  obtain ⟨_, d, capture, control, _, _, hd, hcapture, hcontrol, _⟩ :=
    hrun.2 ProxyTable.tour_designates 0 0 2 hop hlives
  have hlook : ProxyTable.tourEnd.roster.proxies.get 0 = some ⟨some 2, some 5⟩ := by
    decide +kernel
  cases hlook.symm.trans hd
  exact ⟨capture, control, hcapture, hcontrol⟩

end CpperoMQ
