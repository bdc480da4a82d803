import CpperoMQ.SubscribingSocket

/-!
# Runs of subscriptions

Calls of the `SubscribingSocket` mixin on a socket of each type that has it. On a
`SubscribeSocket` the topics libzmq keeps follow the calls as a bag follows
insertions and removals. An `ExtendedSubscribeSocket` has the mixin too, but its
libzmq type has no such options, so that every call throws.
-/
namespace CpperoMQ
open Effects

def subscriptionMachine (A : SubscriptionApi) (this : Socket) :
    Machine A.State SubscriptionCall where
  step σ call := (call.perform (A := A.toOptionApi) this σ).2
  Allowed _ _ := True

/-- What the calls are for: each of them returns, the topics are those that the calls
add up to, and a frame passes if it starts with a topic that was subscribed more
often than it was taken back. -/
structure SubscriptionsKept {A : SubscriptionApi} (V : A.View) (this : Socket) (h : Handle)
    (σ : A.State) (calls : List SubscriptionCall) : Prop where
  returns : ∀ before call, before ++ [call] <+: calls →
    (call.perform (A := A.toOptionApi) this ((subscriptionMachine A this).run σ before)).1 =
      .returned ()
  topics : V.topics ((subscriptionMachine A this).run σ calls) h =
    BagChange.machine.run 0 (calls.map SubscriptionCall.change)
  passes : ∀ frame, V.passes ((subscriptionMachine A this).run σ calls) h frame ↔
    ∃ topic, topic <+: frame ∧
      BagChange.removed topic 0 (calls.map SubscriptionCall.change) <
        BagChange.inserted topic (calls.map SubscriptionCall.change)

section Runs
variable {A : SubscriptionApi} {V : A.View} {this : Socket} {h : Handle} {σ : A.State}
  {type : SocketType}

theorem topics_of_updated {σ' : A.State} {topics : Multiset Bytes}
    (hupdated : V.Updated σ h topics σ') : V.topics σ' h = topics := by
  rw [hupdated.2, Function.update_self]

/-- A `ZMQ_SUB` socket with these topics. -/
def Holds (V : A.View) (h : Handle) (σ : A.State) (topics : Multiset Bytes) : Prop :=
  V.typeOf σ h = some ZMQ_SUB ∧ V.topics σ h = topics

theorem holds_step (hV : V.Laws) (hs : this.mSocket = some h) {topics : Multiset Bytes}
    (hσ : Holds V h σ topics) (call : SubscriptionCall) :
    (call.perform (A := A.toOptionApi) this σ).1 = .returned () ∧
      Holds V h ((subscriptionMachine A this).step σ call) (call.change.apply topics) := by
  obtain ⟨htype, rfl⟩ := hσ
  obtain ⟨σ', hset, hupdated⟩ := setTopic_of_sub hV hs htype call.change
  rw [← SubscriptionCall.perform_eq] at hset
  have hstep : (subscriptionMachine A this).step σ call = σ' := congrArg Prod.snd hset
  rw [hstep, hset]
  refine ⟨rfl, ?_, topics_of_updated hupdated⟩
  rw [hupdated.1]
  exact htype

/-- The topics of a `ZMQ_SUB` socket follow the calls. -/
theorem holds_run (hV : V.Laws) (hs : this.mSocket = some h) {topics : Multiset Bytes}
    (hσ : Holds V h σ topics) (calls : List SubscriptionCall) :
    Holds V h ((subscriptionMachine A this).run σ calls)
      (BagChange.machine.run topics (calls.map SubscriptionCall.change)) := by
  induction calls generalizing σ topics with
  | nil => exact hσ
  | cons call calls ih => exact ih (holds_step hV hs hσ call).2

theorem kept_of_sub (hV : V.Laws) (hs : this.mSocket = some h) (hσ : Holds V h σ 0)
    (calls : List SubscriptionCall) : SubscriptionsKept V this h σ calls := by
  have hend := holds_run hV hs hσ calls
  constructor
  case returns =>
    intro before call _
    exact (holds_step hV hs (holds_run hV hs hσ before) call).1
  case topics => exact hend.2
  case passes =>
    intro frame
    rw [hV.filter h _ hend.1, hend.2]
    simp only [BagChange.mem_run_iff, and_comm]

/-- Without a call nothing passes. -/
theorem kept_nil (hV : V.Laws) (htype : V.typeOf σ h = some ZMQ_XSUB)
    (htopics : V.topics σ h = 0) : SubscriptionsKept V this h σ [] := by
  constructor
  case returns =>
    intro before call hprefix
    exact absurd (List.prefix_nil.mp hprefix) (by simp)
  case topics => exact htopics
  case passes =>
    intro frame
    refine iff_of_false (hV.silent h σ htype htopics frame) ?_
    simp [BagChange.removed, BagChange.inserted]

/-- The mixin on another type of socket: the first call throws. -/
theorem not_kept_of_other (hV : V.Laws) (hs : this.mSocket = some h) {typeId : ℤ}
    (htype : V.typeOf σ h = some typeId) (hother : typeId ≠ ZMQ_SUB) (call : SubscriptionCall)
    (calls : List SubscriptionCall) : ¬SubscriptionsKept V this h σ (call :: calls) := by
  intro hkept
  obtain ⟨e, σ', hset, _⟩ := setTopic_of_other hV hs htype hother call.change
  rw [← SubscriptionCall.perform_eq] at hset
  have hreturned := hkept.returns [] call ⟨calls, rfl⟩
  rw [Machine.run_nil, hset] at hreturned
  cases hreturned

theorem subscribing_iff : .subscribingSocket ∈ type.mixins ↔
    type = .subscribe ∨ type = .extendedSubscribe := by
  cases type <;> decide

/-- On a new socket of a type with the mixin, calls do what they are for if and only
if the type is `SubscribeSocket`, or there are none. -/
theorem subscriptions_kept_iff (hV : V.Laws) (hmixin : .subscribingSocket ∈ type.mixins)
    {context : Option ContextHandle} {w w' : SocketWorld A.toSocketApi}
    (hnew : type.members.new context w = (.returned this, w'))
    (calls : List SubscriptionCall) :
    ∃ h, this.mSocket = some h ∧
      (SubscriptionsKept V this h w'.zmq calls ↔ type = .subscribe ∨ calls = []) := by
  obtain ⟨h, hs, htype, htopics⟩ := new_spec hV hnew
  refine ⟨h, hs, ?_⟩
  obtain rfl | rfl := subscribing_iff.mp hmixin
  · exact iff_of_true (kept_of_sub hV hs ⟨htype, htopics⟩ calls) (.inl rfl)
  · cases calls with
    | nil => exact iff_of_true (kept_nil hV htype htopics) (.inr rfl)
    | cons call calls =>
      refine iff_of_false (not_kept_of_other hV hs htype (by decide) call calls) ?_
      simp

end Runs

/-! ### A table of sockets and topics -/

namespace SubscriptionTable

/-- The type and the topics of each socket; a handle is an index. -/
abbrev State := ObjectPool (ℤ × Multiset Bytes)

/-- The topics a socket has after an option was set, if its type has the option. -/
def setTopics (type option : ℤ) (topic : Bytes) (topics : Multiset Bytes) :
    Option (Multiset Bytes) :=
  if type ≠ ZMQ_SUB then none
  else if option = ZMQ_SUBSCRIBE then some (topic ::ₘ topics)
  else if option = ZMQ_UNSUBSCRIBE then some (topics.erase topic)
  else none

def setsockopt (h : Handle) (option : ℤ) (value : Bytes) (σ : State) : ℤ × State :=
  match σ.get h with
  | none => (-1, σ)
  | some (type, topics) =>
    match setTopics type option value topics with
    | none => (-1, σ)
    | some topics' => (0, σ.put h (some (type, topics')))

def api : SubscriptionApi where
  State := State
  socket _ type σ := (some σ.next, σ.alloc (type, 0))
  close h σ := if (σ.get h).isSome then (0, σ.put h none) else (-1, σ)
  setsockopt socket option value σ :=
    match socket with
    | some h => setsockopt h option value σ
    | none => (-1, σ)
  getsockopt _ _ _ σ := ((-1, []), σ)
  errno _ := 22

def view : api.View where
  typeOf σ h := (σ.get h).map Prod.fst
  topics σ h := ((σ.get h).map Prod.snd).getD 0
  passes σ h frame := ∃ topic ∈ ((σ.get h).map Prod.snd).getD 0, topic <+: frame

theorem updated {σ : State} {h : Handle} {type : ℤ} {topics : Multiset Bytes}
    (hσ : σ.get h = some (type, topics)) (topics' : Multiset Bytes) :
    view.Updated σ h topics' (σ.put h (some (type, topics'))) := by
  have hlt := ObjectPool.lt_next_of_get hσ
  constructor
  · funext g
    change ((σ.put h _).get g).map Prod.fst = (σ.get g).map Prod.fst
    rw [ObjectPool.get_put hlt]
    by_cases hg : g = h
    · rw [if_pos hg, hg, hσ]
      rfl
    · rw [if_neg hg]
  · funext g
    change (((σ.put h _).get g).map Prod.snd).getD 0 = _
    rw [ObjectPool.get_put hlt]
    by_cases hg : g = h
    · rw [if_pos hg, hg, Function.update_self]
      rfl
    · rw [if_neg hg, Function.update_of_ne hg]
      rfl

/-- A socket of this type, and its topics. -/
theorem get_of_type {σ : State} {h : Handle} {type : ℤ} (htype : view.typeOf σ h = some type) :
    ∃ topics, σ.get h = some (type, topics) ∧ view.topics σ h = topics := by
  obtain ⟨⟨_, topics⟩, hσ, rfl⟩ := Option.map_eq_some_iff.mp htype
  refine ⟨topics, hσ, ?_⟩
  change ((σ.get h).map Prod.snd).getD 0 = _
  rw [hσ]
  rfl

theorem laws : view.Laws := by
  constructor
  case created =>
    intro context type σ h σ' hr
    obtain rfl : σ.next = h := Option.some.inj (congrArg Prod.fst hr)
    obtain rfl : σ.alloc (type, 0) = σ' := congrArg Prod.snd hr
    have hget : (σ.alloc (type, 0)).get σ.next = some (type, 0) :=
      ObjectPool.get_alloc_self σ _
    simp [view, hget]
  case subscribe =>
    intro h topic σ htype
    obtain ⟨topics, hσ, htopics⟩ := get_of_type htype
    rw [htopics]
    refine ⟨_, ?_, updated hσ (topic ::ₘ topics)⟩
    simp [api, setsockopt, hσ, setTopics]
  case unsubscribe =>
    intro h topic σ htype
    obtain ⟨topics, hσ, htopics⟩ := get_of_type htype
    rw [htopics]
    refine ⟨_, ?_, updated hσ (topics.erase topic)⟩
    simp [api, setsockopt, hσ, setTopics, ZMQ_SUBSCRIBE, ZMQ_UNSUBSCRIBE]
  case unavailable =>
    intro h type option topic σ htype hother _
    obtain ⟨topics, hσ, _⟩ := get_of_type htype
    refine ⟨-1, σ, ?_, by decide, rfl, (Function.update_eq_self h _).symm⟩
    simp [api, setsockopt, hσ, setTopics, hother]
  case filter =>
    intro h σ _ frame
    rfl
  case silent =>
    rintro h σ _ htopics frame ⟨topic, htopic, _⟩
    change topic ∈ view.topics σ h at htopic
    rw [htopics] at htopic
    exact absurd htopic (Multiset.notMem_zero topic)

def start : SocketWorld api.toSocketApi := .initial (ObjectPool.empty : State)

/-- The table after the constructor of a socket object. -/
def created (type : SocketType) : SocketWorld api.toSocketApi :=
  (type.members.new (some 7) start).2

/-- Both forms of the calls, the topic `01 00 02` among them, and a removal that
comes before its topic is there. -/
def calls : List SubscriptionCall :=
  [.unsubscribe [1, 0], .subscribe [1, 0], .subscribeLength 3 [1, 0, 2], .subscribe [1, 0, 2],
    .unsubscribeLength 1 [1, 0], .subscribe [0], .unsubscribe [0]]

end SubscriptionTable

/-- `subscribe("")` on a new `ExtendedSubscribeSocket` throws. -/
theorem extended_subscribe_throws :
    .subscribingSocket ∈ SocketType.extendedSubscribe.mixins ∧
      (SocketType.extendedSubscribe.members.new (some 7) SubscriptionTable.start).1 =
        .returned ⟨some 0⟩ ∧
      (SubscribingSocket.subscribe (A := SubscriptionTable.api.toOptionApi) ⟨some 0⟩ (some [0])
        (SubscriptionTable.created .extendedSubscribe).zmq).1 = .threw ⟨22⟩ ∧
      ¬SubscriptionsKept SubscriptionTable.view ⟨some 0⟩ 0
        (SubscriptionTable.created .extendedSubscribe).zmq [.subscribe [0]] := by
  have hthrows : (SubscribingSocket.subscribe (A := SubscriptionTable.api.toOptionApi) ⟨some 0⟩
      (some [0]) (SubscriptionTable.created .extendedSubscribe).zmq).1 = .threw ⟨22⟩ := by
    decide +kernel
  refine ⟨by decide, by decide +kernel, hthrows, fun hkept => ?_⟩
  have hreturned := hkept.returns [] (.subscribe [0]) ⟨[], rfl⟩
  change (SubscribingSocket.subscribe (A := SubscriptionTable.api.toOptionApi) ⟨some 0⟩
    (some [0]) (SubscriptionTable.created .extendedSubscribe).zmq).1 = .returned () at hreturned
  rw [hthrows] at hreturned
  cases hreturned

theorem subscriptions_kept_iff_calls :
    SubscriptionsKept SubscriptionTable.view ⟨some 0⟩ 0
      (SubscriptionTable.created .subscribe).zmq SubscriptionTable.calls := by
  have hnew : SocketType.subscribe.members.new (some 7) SubscriptionTable.start =
      (.returned ⟨some 0⟩, SubscriptionTable.created .subscribe) := rfl
  obtain ⟨h, hs, hiff⟩ := subscriptions_kept_iff SubscriptionTable.laws (by decide) hnew
    SubscriptionTable.calls
  obtain rfl : 0 = h := Option.some.inj hs
  exact hiff.mpr (.inl rfl)

end CpperoMQ
