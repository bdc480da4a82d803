import CpperoMQ.HandleLedger
import CpperoMQ.Runs
import Mathlib.Logic.Function.Basic

/-!
# Values behind handles

Objects own handles, and something outside keeps a value for each handle. Seen
from the program, an object has the value behind the handle it owns, or none
after it was moved from. Where no handle has two owners, whatever is done to the
objects and to the values behind their handles looks like operations on objects
that hold their values themselves; these are the events of `valueMachine`.
-/
namespace CpperoMQ.OwnedValues
open HandleLedger (owners)

/-! ### Objects that hold values -/

/-- What happens to movable objects with values of type `R`. -/
inductive Event (R : Type*) where
  /-- A new object with this value. -/
  | built (r : R)
  /-- A new object took over what another one had. -/
  | moved (other : ℕ)
  | exchanged (this other : ℕ)
  | destroyed (this : ℕ)
  /-- An object had the first value and has the second now. -/
  | changed (this : ℕ) (r r' : R)
  /-- An object had this and has it still. -/
  | observed (this : ℕ) (v : Option R)
  | nothing

variable {α H R : Type*}

namespace Event

def apply (p : ObjectPool (Option R)) : Event R → ObjectPool (Option R)
  | built r => p.alloc (some r)
  | moved other =>
    match p.get other with
    | some v => (p.put other (some none)).alloc v
    | none => p
  | exchanged this other =>
    match p.get this, p.get other with
    | some v, some u => (p.put this (some u)).put other (some v)
    | _, _ => p
  | destroyed this => p.put this none
  | changed this _ r' => p.put this (some (some r'))
  | observed _ _ => p
  | nothing => p

def Enabled (p : ObjectPool (Option R)) : Event R → Prop
  | built _ => True
  | moved other => (p.get other).isSome = true
  | exchanged this other => (p.get this).isSome = true ∧ (p.get other).isSome = true
  | destroyed this => (p.get this).isSome = true
  | changed this r _ => p.get this = some (some r)
  | observed this v => p.get this = some v
  | nothing => True

end Event

/-- The machine of objects that hold their values themselves. -/
def valueMachine (R : Type*) : Machine (ObjectPool (Option R)) (Event R) where
  step p e := e.apply p
  Allowed p e := e.Enabled p

/-! ### Objects that own handles -/

section Owners
variable [DecidableEq H] {held : α → Option H} {p : ObjectPool α} {i j : ℕ} {a b a' b' : α}
  {h : H} {cell cell' : H → R}

/-- No handle has two owners. -/
def Single (held : α → Option H) (p : ObjectPool α) : Prop := ∀ h, owners held p h ≤ 1

/-- An object of the pool owns the handle. -/
def Owned (held : α → Option H) (p : ObjectPool α) (h : H) : Prop :=
  ∃ i a, p.get i = some a ∧ held a = some h

/-- A ledger of handles none of which was released. -/
def ledgerOf (held : α → Option H) (p : ObjectPool α) : HandleLedger held :=
  ⟨p, owners held p, fun _ => 0⟩

theorem Single.balanced (hp : Single held p) : (ledgerOf held p).Balanced := ⟨fun _ => rfl, hp⟩

theorem single_empty : Single held (.empty : ObjectPool α) := fun _ => Nat.zero_le 1

theorem Single.exclusive (hp : Single held p) (hi : p.get i = some a) (hj : p.get j = some b)
    (ha : held a = some h) (hb : held b = some h) : i = j :=
  hp.balanced.exclusive ⟨a, hi, ha⟩ ⟨b, hj, hb⟩

theorem Single.alloc (hp : Single held p) (hfree : ¬Owned held p h) (ha : held a = some h) :
    Single held (p.alloc a) := by
  have hout : ¬(ledgerOf held p).Outstanding h := by
    intro (hpos : 0 < owners held p h)
    obtain ⟨i, b, hi, hb⟩ := (HandleLedger.owners_pos_iff (L := ledgerOf held p)).mp hpos
    exact hfree ⟨i, b, hi, hb⟩
  exact (hp.balanced.acquire hout ha).single

theorem Single.take (hp : Single held p) (hi : p.get i = some a) (ha' : held a' = none)
    (hb : held b = held a) : Single held ((p.put i (some a')).alloc b) :=
  (hp.balanced.transfer hi ha' hb).single

theorem Single.exchange (hp : Single held p) (hi : p.get i = some a) (hj : p.get j = some b)
    (ha' : held a' = held b) (hb' : held b' = held a) :
    Single held ((p.put i (some a')).put j (some b')) :=
  (hp.balanced.exchange hi hj ha' hb').single

theorem Single.put_none (hp : Single held p) (hi : p.get i = some a) :
    Single held (p.put i none) := by
  have hdischarge := (hp.balanced.discharge hi).single
  cases ha : held a with
  | none => rwa [ha] at hdischarge
  | some h => rwa [ha] at hdischarge

/-! ### What can be owned after an operation -/

omit [DecidableEq H] in
theorem owned_alloc (ho : Owned held (p.alloc a) h) : Owned held p h ∨ held a = some h := by
  obtain ⟨i, b, hi, hb⟩ := ho
  obtain hi | ⟨_, rfl⟩ := ObjectPool.get_alloc_cases hi
  · exact .inl ⟨i, b, hi, hb⟩
  · exact .inr hb

omit [DecidableEq H] in
theorem owned_put {o : Option α} (hi : p.get i = some a) (ho : Owned held (p.put i o) h) :
    (∃ j b, j ≠ i ∧ p.get j = some b ∧ held b = some h) ∨ ∃ b, o = some b ∧ held b = some h := by
  obtain ⟨j, b, hj, hb⟩ := ho
  obtain ⟨hji, hj⟩ | ⟨_, hj⟩ := ObjectPool.get_put_cases hi hj
  · exact .inl ⟨j, b, hji, hj, hb⟩
  · exact .inr ⟨b, hj, hb⟩

omit [DecidableEq H] in
theorem owned_take (hi : p.get i = some a) (ha' : held a' = none) (hb : held b = held a)
    (ho : Owned held ((p.put i (some a')).alloc b) h) : Owned held p h := by
  obtain ho | hbh := owned_alloc ho
  · obtain ⟨j, c, _, hj, hc⟩ | ⟨c, hc, hch⟩ := owned_put hi ho
    · exact ⟨j, c, hj, hc⟩
    · rw [← Option.some.inj hc, ha'] at hch
      cases hch
  · exact ⟨i, a, hi, hb ▸ hbh⟩

omit [DecidableEq H] in
theorem owned_exchange (hi : p.get i = some a) (hj : p.get j = some b) (ha' : held a' = held b)
    (hb' : held b' = held a) (ho : Owned held ((p.put i (some a')).put j (some b')) h) :
    Owned held p h := by
  have hj' : (p.put i (some a')).get j = some (if j = i then a' else b) := by
    rw [ObjectPool.get_put (ObjectPool.lt_next_of_get hi), hj]
    split_ifs <;> rfl
  obtain ⟨k, c, _, hk, hc⟩ | ⟨c, hc, hch⟩ := owned_put hj' ho
  · obtain ⟨l, d, _, hl, hd⟩ | ⟨d, hd, hdh⟩ := owned_put hi ⟨k, c, hk, hc⟩
    · exact ⟨l, d, hl, hd⟩
    · rw [← Option.some.inj hd, ha'] at hdh
      exact ⟨j, b, hj, hdh⟩
  · rw [← Option.some.inj hc, hb'] at hch
    exact ⟨i, a, hi, hch⟩

omit [DecidableEq H] in
theorem Owned.alloc (ho : Owned held p h) (a : α) : Owned held (p.alloc a) h := by
  obtain ⟨i, b, hi, hb⟩ := ho
  have hne : i ≠ p.next := Nat.ne_of_lt (ObjectPool.lt_next_of_get hi)
  exact ⟨i, b, by rw [ObjectPool.get_alloc_of_ne p a hne, hi], hb⟩

omit [DecidableEq H] in
/-- Taking over passes on what is owned, and loses nothing. -/
theorem owned_take_iff (hi : p.get i = some a) (ha' : held a' = none) (hb : held b = held a) :
    Owned held ((p.put i (some a')).alloc b) h ↔ Owned held p h := by
  constructor
  · exact owned_take hi ha' hb
  · rintro ⟨j, c, hj, hc⟩
    by_cases hji : j = i
    · obtain rfl : c = a := Option.some.inj (by rw [← hj, ← hi, hji])
      exact ⟨_, b, ObjectPool.get_alloc_self _ b, hb.trans hc⟩
    · exact Owned.alloc ⟨j, c, by rw [ObjectPool.get_put_of_ne p hji, hj], hc⟩ b

omit [DecidableEq H] in
theorem owned_exchange_iff (hi : p.get i = some a) (hj : p.get j = some b)
    (ha' : held a' = held b) (hb' : held b' = held a) :
    Owned held ((p.put i (some a')).put j (some b')) h ↔ Owned held p h := by
  have hlt : j < (p.put i (some a')).next := by
    rw [ObjectPool.next_put]
    exact ObjectPool.lt_next_of_get hj
  constructor
  · exact owned_exchange hi hj ha' hb'
  · rintro ⟨k, c, hk, hc⟩
    by_cases hki : k = i
    · obtain rfl : c = a := Option.some.inj (by rw [← hk, ← hi, hki])
      exact ⟨j, b', ObjectPool.get_put_self hlt _, hb'.trans hc⟩
    · by_cases hkj : k = j
      · obtain rfl : c = b := Option.some.inj (by rw [← hk, ← hj, hkj])
        have hij : i ≠ j := fun hh => hki (hkj.trans hh.symm)
        refine ⟨i, a', ?_, ha'.trans hc⟩
        rw [ObjectPool.get_put_of_ne _ hij, ObjectPool.get_put_self (ObjectPool.lt_next_of_get hi)]
      · exact ⟨k, c, by rw [ObjectPool.get_put_of_ne _ hkj, ObjectPool.get_put_of_ne _ hki, hk], hc⟩

omit [DecidableEq H] in
theorem Owned.put_none (ho : Owned held p h) (hi : p.get i = some a) (hne : held a ≠ some h) :
    Owned held (p.put i none) h := by
  obtain ⟨j, b, hj, hb⟩ := ho
  have hji : j ≠ i := by
    rintro rfl
    obtain rfl : b = a := Option.some.inj (hj.symm.trans hi)
    exact hne hb
  exact ⟨j, b, by rw [ObjectPool.get_put_of_ne p hji, hj], hb⟩

omit [DecidableEq H] in
theorem owned_alloc_iff (ha : held a = some h) {g : H} :
    Owned held (p.alloc a) g ↔ Owned held p g ∨ g = h := by
  constructor
  · intro ho
    obtain ho | hg := owned_alloc ho
    · exact .inl ho
    · exact .inr (Option.some.inj (hg.symm.trans ha))
  · rintro (ho | rfl)
    · exact ho.alloc a
    · exact ⟨p.next, a, ObjectPool.get_alloc_self p a, ha⟩

omit [DecidableEq H] in
/-- The end of an object that owned nothing. -/
theorem owned_put_none_iff (hi : p.get i = some a) (ha : held a = none) :
    Owned held (p.put i none) h ↔ Owned held p h := by
  constructor
  · intro ho
    obtain ⟨j, b, _, hj, hb⟩ | ⟨b, hb, _⟩ := owned_put hi ho
    · exact ⟨j, b, hj, hb⟩
    · cases hb
  · exact fun ho => ho.put_none hi (by simp [ha])

/-- What is owned after an object's end is not what it owned. -/
theorem owned_put_none (hp : Single held p) (hi : p.get i = some a)
    (ho : Owned held (p.put i none) h) : Owned held p h ∧ held a ≠ some h := by
  obtain ⟨j, b, hji, hj, hb⟩ | ⟨b, hb, _⟩ := owned_put hi ho
  · exact ⟨⟨j, b, hj, hb⟩, fun ha => hji (hp.exclusive hj hi hb ha)⟩
  · cases hb

end Owners

/-! ### Seen from the program -/

section Seen
variable {held : α → Option H} {p : ObjectPool α} {i j : ℕ} {a b a' b' : α} {h : H}
  {cell cell' : H → R}

/-- Every object with the value behind the handle it owns. -/
def seen (held : α → Option H) (p : ObjectPool α) (cell : H → R) : ObjectPool (Option R) :=
  p.map fun a => (held a).map cell

theorem get_seen (hi : p.get i = some a) :
    (seen held p cell).get i = some ((held a).map cell) := by simp [seen, hi]

/-- Only the values behind handles that are owned are seen. -/
theorem seen_congr (hcell : ∀ h, Owned held p h → cell' h = cell h) :
    seen held p cell' = seen held p cell := by
  apply ObjectPool.ext_get (by simp [seen])
  intro i
  cases hi : p.get i with
  | none => simp [seen, hi]
  | some a =>
    rw [get_seen hi, get_seen hi]
    cases ha : held a with
    | none => rfl
    | some h => rw [Option.map_some, Option.map_some, hcell h ⟨i, a, hi, ha⟩]

theorem seen_built (hcell : ∀ g, Owned held p g → cell' g = cell g) (ha : held a = some h) :
    seen held (p.alloc a) cell' = (Event.built (cell' h)).apply (seen held p cell) := by
  rw [Event.apply, ← seen_congr hcell, seen, ObjectPool.map_alloc, ha]
  rfl

theorem seen_moved (hi : p.get i = some a) (ha' : held a' = none) (hb : held b = held a) :
    seen held ((p.put i (some a')).alloc b) cell = (Event.moved i).apply (seen held p cell) := by
  rw [Event.apply, get_seen hi, seen, ObjectPool.map_alloc, ObjectPool.map_put]
  simp only [Option.map_some, ha', hb]
  rfl

theorem seen_exchanged (hi : p.get i = some a) (hj : p.get j = some b) (ha' : held a' = held b)
    (hb' : held b' = held a) :
    seen held ((p.put i (some a')).put j (some b')) cell =
      (Event.exchanged i j).apply (seen held p cell) := by
  rw [Event.apply, get_seen hi, get_seen hj, seen, ObjectPool.map_put, ObjectPool.map_put]
  simp only [Option.map_some, ha', hb']
  rfl

theorem seen_destroyed (hcell : ∀ g, Owned held (p.put i none) g → cell' g = cell g) :
    seen held (p.put i none) cell' = (Event.destroyed i).apply (seen held p cell) := by
  rw [seen_congr hcell, seen, ObjectPool.map_put]
  rfl

/-- A new value behind a handle is seen on its one owner. -/
theorem seen_changed [DecidableEq H] (hp : Single held p) (hi : p.get i = some a)
    (ha : held a = some h) (r : R) :
    seen held p (Function.update cell h r) =
      (Event.changed i (cell h) r).apply (seen held p cell) := by
  have hlt : i < (seen held p cell).next := by
    rw [seen, ObjectPool.next_map]
    exact ObjectPool.lt_next_of_get hi
  apply ObjectPool.ext_get (by simp [seen, Event.apply])
  intro j
  rw [Event.apply, ObjectPool.get_put hlt]
  split_ifs with hji
  · rw [hji, get_seen hi, ha, Option.map_some, Function.update_self]
  · cases hj : p.get j with
    | none => simp [seen, hj]
    | some b =>
      rw [get_seen hj, get_seen hj]
      cases hb : held b with
      | none => rfl
      | some g =>
        have hgh : g ≠ h := by
          rintro rfl
          exact hji (hp.exclusive hj hi hb ha)
        rw [Option.map_some, Option.map_some, Function.update_of_ne hgh]

end Seen

/-! ### Tracking -/

section Tracking
variable {isOpen isOpen' isOpen'' : H → Prop} {cell cell' cell'' : H → R}

/-- What is open stays open, and keeps its value. -/
def Kept (isOpen : H → Prop) (cell : H → R) (isOpen' : H → Prop) (cell' : H → R) : Prop :=
  ∀ h, isOpen h → isOpen' h ∧ cell' h = cell h

theorem Kept.of_eq (hopen : isOpen' = isOpen) (hcell : cell' = cell) :
    Kept isOpen cell isOpen' cell' := by
  subst hopen hcell
  exact fun h hh => ⟨hh, rfl⟩

theorem Kept.trans (hk : Kept isOpen cell isOpen' cell')
    (hk' : Kept isOpen' cell' isOpen'' cell'') : Kept isOpen cell isOpen'' cell'' := by
  intro h hh
  obtain ⟨hopen, hcell⟩ := hk h hh
  obtain ⟨hopen', hcell'⟩ := hk' h hopen
  exact ⟨hopen', hcell'.trans hcell⟩

/-- A value changed that was not there at the start. -/
theorem Kept.update [DecidableEq H] (hk : Kept isOpen cell isOpen' cell') {h : H}
    (hnew : ¬isOpen h) (hopen : isOpen'' = isOpen') {r : R}
    (hcell : cell'' = Function.update cell' h r) : Kept isOpen cell isOpen'' cell'' := by
  intro g hg
  have hgh : g ≠ h := by
    rintro rfl
    exact hnew hg
  rw [hopen, hcell, Function.update_of_ne hgh]
  exact hk g hg

variable [DecidableEq H] {held : α → Option H} {fits : α → R → Prop} {p : ObjectPool α}
  {q : ObjectPool (Option R)} {i j : ℕ} {a b a' b' : α} {h : H}

/-- Every owned handle is open and has one owner, which the value behind it fits, and
the objects look like this. -/
structure Tracks (held : α → Option H) (fits : α → R → Prop) (isOpen : H → Prop)
    (cell : H → R) (p : ObjectPool α) (q : ObjectPool (Option R)) : Prop where
  single : Single held p
  isOpen : ∀ h, Owned held p h → isOpen h
  fits : ∀ i a h, p.get i = some a → held a = some h → fits a (cell h)
  seen : seen held p cell = q

namespace Tracks

theorem empty : Tracks held fits isOpen cell .empty .empty := by
  refine ⟨single_empty, ?_, ?_, rfl⟩
  · rintro h ⟨i, a, hi, _⟩
    cases hi
  · rintro i a h hi
    cases hi

theorem get (ht : Tracks held fits isOpen cell p q) (hi : p.get i = some a) :
    q.get i = some ((held a).map cell) := by
  rw [← ht.seen, get_seen hi]

theorem isSome (ht : Tracks held fits isOpen cell p q) (hi : p.get i = some a) :
    (q.get i).isSome = true := by
  rw [ht.get hi]
  rfl

/-- An object that looks like having a value owns a handle with it. -/
theorem owner (ht : Tracks held fits isOpen cell p q) {r : R} (hi : q.get i = some (some r)) :
    ∃ a h, p.get i = some a ∧ held a = some h ∧ cell h = r := by
  rw [← ht.seen, OwnedValues.seen, ObjectPool.get_map] at hi
  obtain ⟨a, ha, hr⟩ := Option.map_eq_some_iff.mp hi
  obtain ⟨h, hh, hr⟩ := Option.map_eq_some_iff.mp hr
  exact ⟨a, h, ha, hh, hr⟩

theorem mono {fits' : α → R → Prop} (ht : Tracks held fits isOpen cell p q)
    (hfits : ∀ a r, fits a r → fits' a r) : Tracks held fits' isOpen cell p q :=
  ⟨ht.single, ht.isOpen, fun i a h hi ha => hfits _ _ (ht.fits i a h hi ha), ht.seen⟩

theorem kept (ht : Tracks held fits isOpen cell p q) (hk : Kept isOpen cell isOpen' cell') :
    Tracks held fits isOpen' cell' p q := by
  refine ⟨ht.single, fun g hg => (hk g (ht.isOpen g hg)).1, ?_, ?_⟩
  · intro i a g hi hg
    rw [(hk g (ht.isOpen g ⟨i, a, hi, hg⟩)).2]
    exact ht.fits i a g hi hg
  · rw [seen_congr fun g hg => (hk g (ht.isOpen g hg)).2, ht.seen]

/-- A new object owns a handle that was not open before. -/
theorem built (ht : Tracks held fits isOpen cell p q) (hk : Kept isOpen cell isOpen' cell')
    (hfresh : ¬isOpen h) (hopen : isOpen' h) (ha : held a = some h) (hfits : fits a (cell' h)) :
    Tracks held fits isOpen' cell' (p.alloc a) ((Event.built (cell' h)).apply q) := by
  have ht' := ht.kept hk
  refine ⟨ht.single.alloc (fun ho => hfresh (ht.isOpen h ho)) ha, ?_, ?_, ?_⟩
  · intro g hg
    obtain hg | hg := owned_alloc hg
    · exact ht'.isOpen g hg
    · obtain rfl := Option.some.inj (ha.symm.trans hg)
      exact hopen
  · intro i b g hi hg
    obtain hi | ⟨_, rfl⟩ := ObjectPool.get_alloc_cases hi
    · exact ht'.fits i b g hi hg
    · obtain rfl := Option.some.inj (ha.symm.trans hg)
      exact hfits
  · rw [← ht.seen]
    exact seen_built (fun g hg => (hk g (ht.isOpen g hg)).2) ha

theorem moved (ht : Tracks held fits isOpen cell p q) (hi : p.get i = some a)
    (ha' : held a' = none) (hb : held b = held a) (hfits : ∀ r, fits a r → fits b r) :
    Tracks held fits isOpen cell ((p.put i (some a')).alloc b) ((Event.moved i).apply q) := by
  refine ⟨ht.single.take hi ha' hb, fun g hg => ht.isOpen g (owned_take hi ha' hb hg), ?_, ?_⟩
  · intro k c g hk hg
    obtain hk | ⟨_, rfl⟩ := ObjectPool.get_alloc_cases hk
    · obtain ⟨_, hk⟩ | ⟨_, hk⟩ := ObjectPool.get_put_cases hi hk
      · exact ht.fits k c g hk hg
      · rw [← Option.some.inj hk, ha'] at hg
        cases hg
    · exact hfits _ (ht.fits i a g hi (hb ▸ hg))
  · rw [← ht.seen]
    exact seen_moved hi ha' hb

theorem exchanged (ht : Tracks held fits isOpen cell p q) (hi : p.get i = some a)
    (hj : p.get j = some b) (ha' : held a' = held b) (hb' : held b' = held a)
    (hfits : ∀ r, fits b r → fits a' r) (hfits' : ∀ r, fits a r → fits b' r) :
    Tracks held fits isOpen cell ((p.put i (some a')).put j (some b'))
      ((Event.exchanged i j).apply q) := by
  refine ⟨ht.single.exchange hi hj ha' hb', ?_, ?_, ?_⟩
  · exact fun g hg => ht.isOpen g (owned_exchange hi hj ha' hb' hg)
  · intro k c g hk hg
    obtain ⟨d, hd⟩ : ∃ d, (p.put i (some a')).get j = some d := by
      rw [ObjectPool.get_put (ObjectPool.lt_next_of_get hi), hj]
      split_ifs <;> exact ⟨_, rfl⟩
    obtain ⟨_, hk⟩ | ⟨_, hk⟩ := ObjectPool.get_put_cases hd hk
    · obtain ⟨_, hk⟩ | ⟨_, hk⟩ := ObjectPool.get_put_cases hi hk
      · exact ht.fits k c g hk hg
      · obtain rfl := Option.some.inj hk
        exact hfits _ (ht.fits j b g hj (ha' ▸ hg))
    · obtain rfl := Option.some.inj hk
      exact hfits' _ (ht.fits i a g hi (hb' ▸ hg))
  · rw [← ht.seen]
    exact seen_exchanged hi hj ha' hb'

/-- An object's end may close the handle it owned, and no other. -/
theorem destroyed (ht : Tracks held fits isOpen cell p q) (hi : p.get i = some a)
    (hk : ∀ g, isOpen g → held a ≠ some g → isOpen' g ∧ cell' g = cell g) :
    Tracks held fits isOpen' cell' (p.put i none) ((Event.destroyed i).apply q) := by
  have hothers : ∀ g, Owned held (p.put i none) g → isOpen' g ∧ cell' g = cell g := by
    intro g hg
    obtain ⟨hg, hne⟩ := owned_put_none ht.single hi hg
    exact hk g (ht.isOpen g hg) hne
  refine ⟨ht.single.put_none hi, fun g hg => (hothers g hg).1, ?_, ?_⟩
  · intro k c g hck hg
    rw [(hothers g ⟨k, c, hck, hg⟩).2]
    obtain ⟨_, hck⟩ | ⟨_, hck⟩ := ObjectPool.get_put_cases hi hck
    · exact ht.fits k c g hck hg
    · cases hck
  · rw [← ht.seen]
    exact seen_destroyed fun g hg => (hothers g hg).2

theorem changed (ht : Tracks held fits isOpen cell p q) (hi : p.get i = some a)
    (ha : held a = some h) (hopen : isOpen' = isOpen) {r : R}
    (hcell : cell' = Function.update cell h r) (hfits : fits a r) :
    Tracks held fits isOpen' cell' p ((Event.changed i (cell h) r).apply q) := by
  subst hopen hcell
  refine ⟨ht.single, ht.isOpen, ?_, ?_⟩
  · intro k c g hk hg
    by_cases hgh : g = h
    · subst hgh
      obtain rfl := ht.single.exclusive hk hi hg ha
      obtain rfl := Option.some.inj (hk.symm.trans hi)
      rwa [Function.update_self]
    · rw [Function.update_of_ne hgh]
      exact ht.fits k c g hk hg
  · rw [← ht.seen]
    exact seen_changed ht.single hi ha r

end Tracks
end Tracking
end CpperoMQ.OwnedValues
