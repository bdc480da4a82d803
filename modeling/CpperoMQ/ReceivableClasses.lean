import CpperoMQ.ReceivingSocket

/-!
# Classes that implement `Receivable`

`Receivable` is an interface. What an object receives, into which messages, when it
stops and what it leaves in `moreToReceive` may depend on all that it received before,
and it may receive any number of frames. A call of `ReceivingSocket::receive` chains any
such objects. Objects of a class can be put among the arguments of any call exactly if
nothing is received after the last frame of a message and `moreToReceive` tells, where
true is returned, whether frames of the message are still due. To pass the reference to
every receive and to check it in between makes sure of both.
-/
namespace CpperoMQ
open Effects Effects.Exec Libzmq.View World

/-- The `IncomingMessage` that a frame is received into. -/
inductive Place where
  /-- A message of the object. -/
  | own (message : ObjId)
  /-- A local variable of the call. -/
  | automatic
  /-- A message that the call constructs and the object keeps. -/
  | kept

/-- What a call of `receive` does next. -/
inductive Reading where
  | stop (ok moreToReceive : Bool)
  | take (place : Place)

/-- The `receive` of a class, by the frames that the call got so far. It returns false
where a message cannot be received. -/
abbrev Reader := List (Frame Bytes) → Reading

namespace Reader

/-- What is left to do after a frame. -/
def next (r : Reader) (f : Frame Bytes) : Reader := fun got => r (f :: got)

/-- On the frames that are due: what is returned, what is left in `moreToReceive` and
which frames are left. Where they do not suffice there is no result. -/
def read : Reader → List (Frame Bytes) → Option ((Bool × Bool) × List (Frame Bytes))
  | r, [] =>
    match r [] with
    | .stop ok more => some ((ok, more), [])
    | .take _ => none
  | r, f :: fs =>
    match r [] with
    | .stop ok more => some ((ok, more), f :: fs)
    | .take _ => read (r.next f) fs

/-- The arguments of a call, on the frames that are due. -/
def readAll : List Reader → List (Frame Bytes) → Option (Bool × List (Frame Bytes))
  | [], fs => some (true, fs)
  | r :: rs, fs =>
    (r.read fs).bind fun ((ok, more), left) =>
      if ok = false then some (false, left)
      else if more = false ∧ rs.length > 0 then some (false, left)
      else if more = true ∧ rs.length = 0 then some (false, left)
      else readAll rs left

/-- A call can come to these frames. -/
def Reaches : Reader → List (Frame Bytes) → Prop
  | _, [] => True
  | r, f :: got => (∃ place, r [] = .take place) ∧ Reaches (r.next f) got

/-- Nothing is received after the last frame of a message. -/
def StopsAtEnd (r : Reader) : Prop :=
  ∀ got f, r.Reaches (got ++ [f]) → f.more = false → ∃ ok more, r (got ++ [f]) = .stop ok more

/-- What composing asks of a class. -/
structure Follows (r : Reader) : Prop where
  stops : r.StopsAtEnd
  /-- The flag tells whether more of the message is due, which it is before its first frame. -/
  tells : ∀ got more, r.Reaches got → r got = .stop true more →
    more = (got.getLast?.map Frame.more).getD true

/-- The pattern that is asked for: something is received, the reference is passed to
every receive, and it is checked in between. -/
structure Pattern (r : Reader) : Prop where
  receives : ∃ place, r [] = .take place
  passes : ∀ got f ok more, r.Reaches (got ++ [f]) → r (got ++ [f]) = .stop ok more →
    more = f.more
  checks : ∀ got f place, r.Reaches (got ++ [f]) → r (got ++ [f]) = .take place →
    f.more = true

/-- Among arguments that follow the contract, whatever whole message is due and whatever
comes after it: a call takes frames of that message only, and all of them if it returns
true. -/
def Composes (r : Reader) : Prop :=
  ∀ before after : List Reader, (∀ t ∈ before ++ after, t.Follows) →
    ∀ msg, msg ≠ [] → ∀ rest, ∃ ok left,
      readAll (before ++ r :: after) (Framing.message msg ++ rest) =
        some (ok, Framing.message left ++ rest) ∧ left <:+ msg ∧ (ok = true → left = [])

/-! ### Readers on frames -/

theorem read_of_stop {r : Reader} {ok more : Bool} (h : r [] = .stop ok more)
    (fs : List (Frame Bytes)) : r.read fs = some ((ok, more), fs) := by
  cases fs <;> simp only [read, h]

theorem read_nil_of_take {r : Reader} {place : Place} (h : r [] = .take place) :
    r.read [] = none := by simp only [read, h]

theorem read_of_take {r : Reader} {place : Place} (h : r [] = .take place) (f : Frame Bytes)
    (fs : List (Frame Bytes)) : r.read (f :: fs) = (r.next f).read fs := by simp only [read, h]

theorem readAll_of_read {r : Reader} {ok more : Bool} {fs left : List (Frame Bytes)}
    (h : r.read fs = some ((ok, more), left)) (rs : List Reader) :
    readAll (r :: rs) fs =
      if ok = false then some (false, left)
      else if more = false ∧ rs.length > 0 then some (false, left)
      else if more = true ∧ rs.length = 0 then some (false, left)
      else readAll rs left := by
  rw [readAll, h, Option.bind_some]

theorem Reaches.first {r : Reader} {got : List (Frame Bytes)} {f : Frame Bytes}
    (hgot : r.Reaches (got ++ [f])) : ∃ place, r [] = .take place := by
  cases got with
  | nil => exact hgot.1
  | cons g got => exact hgot.1

/-- The flag of the last frame does not depend on the flag before the frames. -/
theorem lastFlag_cons (f : Frame Bytes) (got : List (Frame Bytes)) (more : Bool) :
    ((f :: got).getLast?.map Frame.more).getD more =
      (got.getLast?.map Frame.more).getD f.more := by
  cases got with
  | nil => rfl
  | cons g got => simp [List.getLast?_cons]

/-- A frame that announces more leaves the contract as it was. -/
theorem Follows.next {r : Reader} (hr : r.Follows) {place : Place} (htake : r [] = .take place)
    {f : Frame Bytes} (hmore : f.more = true) : (r.next f).Follows := by
  constructor
  case stops => exact fun got g hgot => hr.stops (f :: got) g ⟨⟨place, htake⟩, hgot⟩
  case tells =>
    intro got more hgot hstop
    rw [hr.tells (f :: got) more ⟨⟨place, htake⟩, hgot⟩ hstop, lastFlag_cons, hmore]

/-- On a whole message with other frames after it, a reader that follows the contract
gets by with the message. -/
theorem Follows.read_message {r : Reader} (hr : r.Follows) {msg : List Bytes} (hmsg : msg ≠ [])
    (rest : List (Frame Bytes)) :
    ∃ ok more left, r.read (Framing.message msg ++ rest) =
        some ((ok, more), Framing.message left ++ rest) ∧ left <:+ msg ∧
      (ok = true → more = !left.isEmpty) := by
  induction msg generalizing r with
  | nil => exact absurd rfl hmsg
  | cons a msg ih =>
    cases hfirst : r [] with
    | stop ok more =>
      refine ⟨ok, more, a :: msg, read_of_stop hfirst _, List.suffix_rfl, ?_⟩
      rintro rfl
      exact hr.tells [] more trivial hfirst
    | take place =>
      rw [Framing.message_cons, List.cons_append, read_of_take hfirst]
      by_cases hlast : msg = []
      · -- the frame that ends the message
        subst hlast
        have hone : r.Reaches [⟨a, false⟩] := ⟨⟨place, hfirst⟩, trivial⟩
        obtain ⟨ok, more, hstop⟩ := hr.stops [] ⟨a, false⟩ hone rfl
        refine ⟨ok, more, [], read_of_stop hstop rest, List.nil_suffix, ?_⟩
        rintro rfl
        exact hr.tells [⟨a, false⟩] more hone hstop
      · have hmore : (!msg.isEmpty) = true := by simpa using hlast
        rw [hmore]
        obtain ⟨ok, more, left, hread, hleft, hflag⟩ :=
          ih (hr.next hfirst (f := ⟨a, true⟩) rfl) hlast
        exact ⟨ok, more, left, hread, hleft.trans (List.suffix_cons a msg), hflag⟩

/-- Arguments that follow the contract take a whole message if they return true, and no
frame after it in any case. -/
theorem readAll_message {rs : List Reader} (hrs : rs ≠ []) (hfollow : ∀ r ∈ rs, r.Follows)
    {msg : List Bytes} (hmsg : msg ≠ []) (rest : List (Frame Bytes)) :
    ∃ ok left, readAll rs (Framing.message msg ++ rest) =
        some (ok, Framing.message left ++ rest) ∧ left <:+ msg ∧ (ok = true → left = []) := by
  induction rs generalizing msg with
  | nil => exact absurd rfl hrs
  | cons r rs ih =>
    obtain ⟨ok, more, left, hread, hleft, hflag⟩ :=
      (hfollow r (List.mem_cons_self ..)).read_message hmsg rest
    rw [readAll_of_read hread]
    cases ok with
    | false => exact ⟨false, left, rfl, hleft, fun hok => by cases hok⟩
    | true =>
      obtain rfl := hflag rfl
      cases left with
      | nil =>
        -- the message ends here, and so do the arguments or the call
        cases rs with
        | nil => exact ⟨true, [], rfl, hleft, fun _ => rfl⟩
        | cons r' rs => exact ⟨false, [], rfl, hleft, fun hok => by cases hok⟩
      | cons a left =>
        cases rs with
        | nil => exact ⟨false, a :: left, rfl, hleft, fun hok => by cases hok⟩
        | cons r' rs =>
          obtain ⟨ok, left', hrest, hleft', hok⟩ := ih (List.cons_ne_nil _ _)
            (fun t ht => hfollow t (List.mem_cons_of_mem _ ht)) (List.cons_ne_nil a left)
          exact ⟨ok, left', hrest, hleft'.trans hleft, hok⟩

/-- Whoever gets by with a message of one part stops there. -/
theorem stops_of_read {r : Reader} {place : Place} (htake : r [] = .take place) {a : Bytes}
    (hone : (r.read (Framing.message [a])).isSome = true) :
    ∃ ok more, r [⟨a, false⟩] = .stop ok more := by
  change (r.read [⟨a, false⟩]).isSome = true at hone
  rw [read_of_take htake] at hone
  cases hnext : r.next ⟨a, false⟩ [] with
  | stop ok more => exact ⟨ok, more, hnext⟩
  | take place' =>
    rw [read_nil_of_take hnext] at hone
    cases hone

/-- Whoever gets by with every message receives nothing after its last frame. -/
theorem stopsAtEnd_of_read {r : Reader}
    (hall : ∀ msg, msg ≠ [] → (r.read (Framing.message msg)).isSome = true) : r.StopsAtEnd := by
  intro got f hgot hf
  induction got generalizing r with
  | nil =>
    obtain ⟨a, _⟩ := f
    obtain rfl := hf
    obtain ⟨⟨place, htake⟩, _⟩ := hgot
    exact stops_of_read htake (hall [a] (List.cons_ne_nil _ _))
  | cons g got ih =>
    obtain ⟨⟨place, htake⟩, hrest⟩ := hgot
    obtain ⟨a, _ | _⟩ := g
    · -- nothing can come after this frame
      obtain ⟨ok, more, hstop⟩ := stops_of_read htake (hall [a] (List.cons_ne_nil _ _))
      obtain ⟨place', htake'⟩ := hrest.first
      cases hstop.symm.trans htake'
    · refine ih (fun msg hmsg => ?_) hrest
      have hcons := hall (a :: msg) (List.cons_ne_nil _ _)
      have hempty : msg.isEmpty = false := by simpa using hmsg
      rw [Framing.message_cons, hempty] at hcons
      rwa [read_of_take htake] at hcons

/-- The frames a call comes to are a whole message or the beginning of one. -/
theorem StopsAtEnd.reaches_message {r : Reader} (hr : r.StopsAtEnd) {got : List (Frame Bytes)}
    (hgot : r.Reaches got) :
    ∃ parts, got = Framing.frames true parts ∨ got = Framing.message parts ∧ parts ≠ [] := by
  induction got generalizing r with
  | nil => exact ⟨[], .inl rfl⟩
  | cons g got ih =>
    obtain ⟨⟨place, htake⟩, hrest⟩ := hgot
    obtain ⟨a, _ | _⟩ := g
    · obtain ⟨ok, more, hstop⟩ := hr [] ⟨a, false⟩ ⟨⟨place, htake⟩, trivial⟩ rfl
      cases got with
      | nil => exact ⟨[a], .inr ⟨rfl, List.cons_ne_nil _ _⟩⟩
      | cons g' got =>
        obtain ⟨⟨place', htake'⟩, _⟩ := hrest
        cases hstop.symm.trans htake'
    · obtain ⟨parts, rfl | ⟨rfl, hparts⟩⟩ :=
        ih (fun got' f h' => hr (⟨a, true⟩ :: got') f ⟨⟨place, htake⟩, h'⟩) hrest
      · exact ⟨a :: parts, .inl (by simp [Framing.frames_true])⟩
      · refine ⟨a :: parts, .inr ⟨?_, List.cons_ne_nil _ _⟩⟩
        rw [Framing.message, Framing.message, Framing.frames_cons false a hparts]

/-- What a call comes to it reads where the frames are due. -/
theorem read_reached {r : Reader} {got : List (Frame Bytes)} (hgot : r.Reaches got) {ok more : Bool}
    (hstop : r got = .stop ok more) (rest : List (Frame Bytes)) :
    r.read (got ++ rest) = some ((ok, more), rest) := by
  induction got generalizing r with
  | nil => exact read_of_stop hstop rest
  | cons g got ih =>
    obtain ⟨⟨place, htake⟩, hrest⟩ := hgot
    rw [List.cons_append, read_of_take htake]
    exact ih hrest hstop

/-! ### Messages one after the other -/

/-- Receive into some messages, as long as the flag allows it. -/
def ofLeaves : List ObjId → Bool → Reader
  | [], more, _ => .stop true more
  | message :: _, more, [] => if more then .take (.own message) else .stop false false
  | _ :: rest, _, f :: got => ofLeaves rest f.more got

/-- A tree receives into its leaves. -/
def ofTree (t : Receivable) : Reader := ofLeaves t.leaves true

theorem ofLeaves_passes (is : List ObjId) {more : Bool} {got : List (Frame Bytes)}
    {f : Frame Bytes} (hgot : (ofLeaves is more).Reaches (got ++ [f])) {ok more' : Bool}
    (hstop : ofLeaves is more (got ++ [f]) = .stop ok more') : more' = f.more := by
  induction is generalizing more got with
  | nil =>
    obtain ⟨place, htake⟩ := hgot.first
    cases htake
  | cons i is ih =>
    cases got with
    | nil =>
      change ofLeaves is f.more [] = .stop ok more' at hstop
      cases is with
      | nil => exact (Reading.stop.inj hstop).2.symm
      | cons i' is =>
        rw [ofLeaves] at hstop
        split_ifs at hstop with hmore
        rw [Bool.not_eq_true] at hmore
        exact (Reading.stop.inj hstop).2.symm.trans hmore.symm
    | cons g got => exact ih hgot.2 hstop

theorem ofLeaves_checks (is : List ObjId) {more : Bool} {got : List (Frame Bytes)}
    {f : Frame Bytes} {place : Place} (htake : ofLeaves is more (got ++ [f]) = .take place) :
    f.more = true := by
  induction is generalizing more got with
  | nil => cases htake
  | cons i is ih =>
    cases got with
    | nil =>
      change ofLeaves is f.more [] = .take place at htake
      cases is with
      | nil => cases htake
      | cons i' is =>
        rw [ofLeaves] at htake
        split_ifs at htake with hmore
        exact hmore
    | cons g got => exact ih htake

/-- Trees are of the pattern. -/
theorem pattern_ofTree (t : Receivable) : (ofTree t).Pattern := by
  constructor
  case receives =>
    obtain ⟨i, is, his⟩ := List.exists_cons_of_ne_nil t.leaves_ne_nil
    exact ⟨.own i, by rw [ofTree, his]; rfl⟩
  case passes => exact fun _ _ _ _ hgot hstop => ofLeaves_passes t.leaves hgot hstop
  case checks => exact fun _ _ _ _ htake => ofLeaves_checks t.leaves htake

/-- The pattern meets the contract. -/
theorem Pattern.follows {r : Reader} (hr : r.Pattern) : r.Follows := by
  constructor
  case stops =>
    intro got f hgot hf
    cases hlast : r (got ++ [f]) with
    | stop ok more => exact ⟨ok, more, rfl⟩
    | take place => exact absurd (hf.symm.trans (hr.checks got f place hgot hlast)) (by decide)
  case tells =>
    intro got more hgot hstop
    obtain rfl | ⟨got, f, rfl⟩ := got.eq_nil_or_concat'
    · obtain ⟨place, htake⟩ := hr.receives
      cases hstop.symm.trans htake
    · rw [List.getLast?_concat]
      exact hr.passes got f true more hgot hstop

/-- The objects of a class can be put among any arguments that follow the contract if
and only if they follow it too. -/
theorem follows_iff_composes (r : Reader) : r.Follows ↔ r.Composes := by
  constructor
  · intro hr before after hothers msg hmsg rest
    refine readAll_message (by simp) ?_ hmsg rest
    rw [List.forall_mem_append] at hothers
    rw [List.forall_mem_append, List.forall_mem_cons]
    exact ⟨hothers.1, hr, hothers.2⟩
  · intro hall
    have hstops : r.StopsAtEnd := by
      refine stopsAtEnd_of_read fun msg hmsg => ?_
      obtain ⟨_, _, hread, _⟩ := hall [] [] (by simp) msg hmsg []
      rw [List.append_nil] at hread
      cases hr : r.read (Framing.message msg) with
      | some result => rfl
      | none => simp [readAll, hr] at hread
    refine ⟨hstops, fun got more hgot hstop => ?_⟩
    obtain ⟨parts, rfl | ⟨rfl, hparts⟩⟩ := hstops.reaches_message hgot
    · -- alone, on a message with one part more: true would be returned for half of it
      have hflag : ((Framing.frames true parts).getLast?.map Frame.more).getD true = true := by
        rw [Framing.frames_true, List.getLast?_map]
        cases parts.getLast? <;> rfl
      rw [hflag]
      by_contra hmore
      obtain rfl : more = false := by simpa using hmore
      obtain ⟨ok, left, hread, _, hok⟩ := hall [] [] (by simp) (parts ++ [[]]) (by simp) []
      have hhalf : readAll [r] (Framing.message (parts ++ [[]]) ++ []) =
          some (true, [⟨[], false⟩]) := by
        rw [List.append_nil, Framing.message, Framing.frames_append false parts (by simp),
          readAll_of_read (read_reached hgot hstop _)]
        rfl
      rw [List.nil_append, hhalf, Option.some.injEq, Prod.mk.injEq] at hread
      rw [hok hread.1.symm] at hread
      cases hread.2
    · -- with another argument after it, which no frame of the message is left for
      rw [Framing.message_last_more hparts]
      by_contra hmore
      obtain rfl : more = true := by simpa using hmore
      obtain ⟨ok, left, hread, _⟩ := hall [] [ofTree (.leaf 0)]
        (by simpa using (pattern_ofTree (.leaf 0)).follows) parts hparts []
      have hwaits : readAll [r, ofTree (.leaf 0)] (Framing.message parts ++ []) = none := by
        rw [readAll_of_read (read_reached hgot hstop [])]
        rfl
      rw [List.nil_append, hwaits] at hread
      cases hread

end Reader

/-! ### In the code -/

section Source
variable {Z : Libzmq}

/-- Receive into a message of the class, read it and go on. -/
def Reader.receiveInto (socket : Socket) (next : Frame Bytes → Action Z (Option (Bool × Bool)))
    (message : ObjId) : Action Z (Option (Bool × Bool)) :=
  (IncomingMessage.receive message socket).bind fun r =>
    if r.1 then
      (Exec.read fun w => w.payload message).bind fun bytes => next ⟨bytes.getD [], r.2⟩
    else pure (some (false, r.2))

/-- The `receive` of the class, if it is done within so many steps. Local variables are
destroyed at its end. -/
def Reader.receive (socket : Socket) : ℕ → Reader → Action Z (Option (Bool × Bool))
  | 0, _ => pure none
  | n + 1, r =>
    match r [] with
    | .stop ok moreToReceive => pure (some (ok, moreToReceive))
    | .take (.own message) =>
      Reader.receiveInto socket (fun f => Reader.receive socket n (r.next f)) message
    | .take .automatic =>
      Exec.withLocal IncomingMessage.new Message.destroy
        (Reader.receiveInto socket fun f => Reader.receive socket n (r.next f))
    | .take .kept =>
      IncomingMessage.new.bind
        (Reader.receiveInto socket fun f => Reader.receive socket n (r.next f))

/-- `ReceivingSocket::receive`, if every argument is done within so many steps. -/
def ReceivingSocket.receiveEach (socket : Socket) (n : ℕ) : List Reader → Action Z (Option Bool)
  | [] => pure (some true)
  | receivable :: receivables =>
    (Reader.receive socket n receivable).bind fun
      | none => pure none
      | some (ok, moreToReceive) =>
        if ok = false then pure (some false)
        else if moreToReceive = false ∧ receivables.length > 0 then pure (some false)
        else if moreToReceive = true ∧ receivables.length = 0 then pure (some false)
        else ReceivingSocket.receiveEach socket n receivables

/-- A tree receives as it does as a class. -/
theorem Reader.receive_ofLeaves (socket : Socket) {is : List ObjId} {more : Bool}
    (hgo : is = [] ∨ more = true) {n : ℕ} (hn : is.length < n) :
    ((ofLeaves is more).receive socket n : Action Z (Option (Bool × Bool))) =
      (receiveLeaves socket more is).bind fun r => pure (some r) := by
  induction is generalizing more n with
  | nil =>
    obtain ⟨n, rfl⟩ := Nat.exists_eq_succ_of_ne_zero (Nat.ne_of_gt hn)
    rfl
  | cons i is ih =>
    obtain ⟨n, rfl⟩ := Nat.exists_eq_succ_of_ne_zero (Nat.ne_of_gt (Nat.zero_lt_of_lt hn))
    obtain rfl : more = true := by simpa using hgo
    have hn' : is.length < n := Nat.lt_of_succ_lt_succ hn
    change receiveInto socket (fun f => (ofLeaves is f.more).receive socket n) i = _
    rw [receiveInto, receiveLeaves, memberThen, bind_assoc]
    congr 1
    funext r
    obtain ⟨ok, more⟩ := r
    cases ok with
    | false => rfl
    | true =>
      by_cases hgo' : is = [] ∨ more = true
      · have hwent : (true && (is.isEmpty || more)) = true := by simpa using hgo'
        rw [if_pos hwent, ← ih hgo' hn']
        rfl
      · -- the message ended before the last leaf
        rw [not_or, Bool.not_eq_true] at hgo'
        obtain ⟨hne, rfl⟩ := hgo'
        obtain ⟨n, rfl⟩ := Nat.exists_eq_succ_of_ne_zero (Nat.ne_of_gt (Nat.zero_lt_of_lt hn'))
        cases is with
        | nil => exact absurd rfl hne
        | cons i' is => rfl

/-- So do the arguments of a call. -/
theorem ReceivingSocket.receiveEach_ofTree (socket : Socket) {receivables : List Receivable} {n : ℕ}
    (hn : ∀ t ∈ receivables, t.leaves.length < n) :
    (ReceivingSocket.receiveEach socket n (receivables.map Reader.ofTree) :
        Action Z (Option Bool)) =
      (ReceivingSocket.receive socket receivables).bind fun ok => pure (some ok) := by
  induction receivables with
  | nil => rfl
  | cons t ts ih =>
    rw [List.forall_mem_cons] at hn
    rw [List.map_cons, ReceivingSocket.receiveEach, ReceivingSocket.receive, Reader.ofTree,
      Reader.receive_ofLeaves socket (.inr rfl) hn.1, ← (Receivable.receive_eq_leaves socket).1 t,
      bind_assoc, bind_assoc]
    congr 1
    funext r
    obtain ⟨ok, more⟩ := r
    change (if ok = false then pure (some false)
      else if more = false ∧ (ts.map Reader.ofTree).length > 0 then pure (some false)
      else if more = true ∧ (ts.map Reader.ofTree).length = 0 then pure (some false)
      else ReceivingSocket.receiveEach socket n (ts.map Reader.ofTree)) = _
    rw [List.length_map, ih hn.2]
    split_ifs <;> rfl

end Source

/-! ### What a call does -/

section Calls
variable {Z : Libzmq} {V : Z.View} {w w' w'' : World Z} {h : Handle} {socket : Socket}

/-- Frames were taken off the socket, and nothing else was sent or received. The objects
that were there are still there. -/
structure Advanced (V : Z.View) (h : Handle) (taken : List (Frame Bytes)) (w w' : World Z) :
    Prop where
  settled : Settled V w'
  kinds : ∀ j k, w.kind j = some k → w'.kind j = some k
  accepted : V.accepted w'.zmq = V.accepted w.zmq
  incoming : V.incoming w.zmq h = taken ++ V.incoming w'.zmq h
  others : ∀ g, g ≠ h → V.incoming w'.zmq g = V.incoming w.zmq g

theorem Advanced.refl (hw : Settled V w) : Advanced V h [] w w :=
  ⟨hw, fun _ _ hk => hk, rfl, rfl, fun _ _ => rfl⟩

theorem Took.advanced {is emptied : List ObjId} {fs : List (Frame Bytes)}
    (hT : Took V h is fs emptied w w') : Advanced V h fs w w' :=
  ⟨hT.settled, fun j _ hk => (hT.kinds j).trans hk, hT.accepted, hT.incoming,
    fun g hg => (hT.others g hg).1⟩

theorem Advanced.trans {xs ys : List (Frame Bytes)} (h₁ : Advanced V h xs w w')
    (h₂ : Advanced V h ys w' w'') : Advanced V h (xs ++ ys) w w'' := by
  constructor
  case settled => exact h₂.settled
  case kinds => exact fun j k hk => h₂.kinds j k (h₁.kinds j k hk)
  case accepted => exact h₂.accepted.trans h₁.accepted
  case incoming => rw [h₁.incoming, h₂.incoming, List.append_assoc]
  case others => exact fun g hg => (h₂.others g hg).trans (h₁.others g hg)

/-- An object that was not there before is constructed or destroyed. -/
theorem Advanced.touches {taken : List (Frame Bytes)} (hA : Advanced V h taken w w') {i : ObjId}
    (hT : Touches V i w' w'') (hready : (w''.kind i).isSome = true → (w''.payload i).isSome = true)
    (hnew : w.kind i = none) : Advanced V h taken w w'' := by
  constructor
  case settled =>
    apply hA.settled.of_keeps hT.keeps hT.consistent
    rintro j rfl hj
    exact hready hj
  case kinds =>
    intro j k hk
    have hj : j ≠ i := by
      rintro rfl
      rw [hnew] at hk
      cases hk
    rw [hT.keeps.kinds j hj]
    exact hA.kinds j k hk
  case accepted => rw [hT.frames.accepted, hA.accepted]
  case incoming => rw [hT.frames.incoming, hA.incoming]
  case others =>
    intro g hg
    rw [hT.frames.incoming, hA.others g hg]

theorem IncomingMessage.new_advanced (hZ : V.Laws) (hw : Settled V w) :
    ∃ w' i, IncomingMessage.new w = (.returned i, w') ∧ Advanced V h [] w w' ∧
      w.kind i = none ∧ w'.kind i = some .incoming := by
  obtain ⟨hT, hraw, _⟩ := alloc_spec (V := V) hw.consistent .incoming
  obtain ⟨w', hinit, hL, hp, _⟩ := Message.init_spec hZ hT.consistent hraw
  obtain ⟨hnew, hT', hk, hp'⟩ := Message.create_of_returned hw.consistent hinit hL hp
  refine ⟨w', w.messages.next, hnew, ?_, kind_next w, hk⟩
  exact (Advanced.refl hw).touches hT' (fun _ => by rw [hp']; rfl) (kind_next w)

theorem Message.destroy_advanced (hZ : V.Laws) {taken : List (Frame Bytes)}
    (hA : Advanced V h taken w w') {i : ObjId} (hi : (w'.kind i).isSome = true)
    (hnew : w.kind i = none) :
    ∃ w'', Message.destroy i w' = (.returned (), w'') ∧ Advanced V h taken w w'' := by
  obtain ⟨p, hp⟩ := hA.settled.payload hi
  obtain ⟨w'', hx, hT, hk, _, _⟩ := Message.destroy_spec hZ hA.settled.consistent hp
  refine ⟨w'', hx, hA.touches hT (fun hk' => ?_) hnew⟩
  rw [hk] at hk'
  cases hk'

/-- A computation does as on the frames that are due, unless a transfer fails: it ends
there, while it still waits for a frame. -/
def AsDue {α : Type} (V : Z.View) (h : Handle)
    (due : List (Frame Bytes) → Option (α × List (Frame Bytes))) (refused : α)
    (x : Action Z (Option α)) (w : World Z) : Prop :=
  (∃ w' a taken, x w = (.returned (some a), w') ∧ Advanced V h taken w w' ∧
    ∀ rest, due (taken ++ rest) = some (a, rest)) ∨
  ∃ w' e taken, x w = (failure (some refused) e, w') ∧ Advanced V h taken w w' ∧
    due taken = none

/-- Some frames first. -/
theorem AsDue.after {α : Type} {due due' : List (Frame Bytes) → Option (α × List (Frame Bytes))}
    {refused : α} {x y : Action Z (Option α)} {fs : List (Frame Bytes)}
    (hx : AsDue V h due refused x w') (hA : Advanced V h fs w w') (hy : y w = x w')
    (hdue : ∀ gs, due' (fs ++ gs) = due gs) : AsDue V h due' refused y w := by
  rcases hx with ⟨w₁, a, taken, hx, hA', hread⟩ | ⟨w₁, e, taken, hx, hA', hread⟩
  · refine .inl ⟨w₁, a, fs ++ taken, hy.trans hx, hA.trans hA', fun rest => ?_⟩
    rw [List.append_assoc, hdue, hread]
  · exact .inr ⟨w₁, e, fs ++ taken, hy.trans hx, hA.trans hA', by rw [hdue, hread]⟩

/-- A local variable does not show. -/
theorem AsDue.withLocal (hZ : V.Laws) {α : Type}
    {due : List (Frame Bytes) → Option (α × List (Frame Bytes))} {refused : α}
    {body : ObjId → Action Z (Option α)} {i : ObjId}
    (hnew : IncomingMessage.new w = (.returned i, w')) (hA : Advanced V h [] w w')
    (hi : w.kind i = none) (hi' : w'.kind i = some .incoming)
    (hx : AsDue V h due refused (body i) w') :
    AsDue V h due refused (Exec.withLocal IncomingMessage.new Message.destroy body) w := by
  have hlive : ∀ {taken : List (Frame Bytes)} {w₁ : World Z}, Advanced V h taken w' w₁ →
      (w₁.kind i).isSome = true := by
    intro taken w₁ hA'
    rw [hA'.kinds i _ hi']
    rfl
  rcases hx with ⟨w₁, a, taken, hx, hA', hread⟩ | ⟨w₁, e, taken, hx, hA', hread⟩
  · obtain ⟨w₂, hleave, hA₂⟩ := Message.destroy_advanced hZ (hA.trans hA') (hlive hA') hi
    exact .inl ⟨w₂, a, taken, withLocal_of_leave hnew hx (by simp) hleave, hA₂, hread⟩
  · obtain ⟨w₂, hleave, hA₂⟩ := Message.destroy_advanced hZ (hA.trans hA') (hlive hA') hi
    exact .inr ⟨w₂, e, taken, withLocal_of_leave hnew hx (failure_ne_aborted _ _) hleave, hA₂,
      hread⟩

/-- The messages of the object are live. -/
def Reader.Live (w : World Z) (r : Reader) : Prop :=
  ∀ got i, r got = .take (.own i) → w.kind i = some .incoming

theorem Reader.Live.of_advanced {r : Reader} (hr : r.Live w) {taken : List (Frame Bytes)}
    (hA : Advanced V h taken w w') : r.Live w' :=
  fun got i htake => hA.kinds i _ (hr got i htake)

theorem Reader.receiveInto_asDue (hZ : V.Laws) (hs : socket.mSocket = some h) {r : Reader}
    {place : Place} (htake : r [] = .take place) (hw : Settled V w) {i : ObjId}
    (hi : w.kind i = some .incoming) {next : Frame Bytes → Action Z (Option (Bool × Bool))}
    (hnext : ∀ f w', Advanced V h [f] w w' →
      AsDue V h (r.next f).read (false, false) (next f) w') :
    AsDue V h r.read (false, false) (Reader.receiveInto socket next i) w := by
  rcases IncomingMessage.receive_took hZ hw hi hs with
    ⟨w₁, f, hx, hT, _, _⟩ | ⟨w₁, e, hx, hT, _, _, _⟩
  · have hfilled : w₁.payload i = some f.part := by simpa using hT.filled
    refine (hnext f w₁ hT.advanced).after hT.advanced ?_ fun gs => read_of_take htake f gs
    rw [Reader.receiveInto, bind_of_returned hx]
    simp only [if_true, Exec.bind, read_apply, hfilled, Option.getD_some]
  · exact .inr ⟨w₁, e, [], bind_of_failure hx rfl, hT.advanced, read_nil_of_take htake⟩

/-- One argument of a call is done within one step more than frames are there. -/
theorem Reader.receive_asDue (hZ : V.Laws) (hs : socket.mSocket = some h) {n : ℕ} {r : Reader}
    (hw : Settled V w) (hlive : r.Live w) (hn : (V.incoming w.zmq h).length < n) :
    AsDue V h r.read (false, false) (r.receive socket n) w := by
  induction n generalizing r w with
  | zero => exact absurd hn (Nat.not_lt_zero _)
  | succ n ih =>
    cases hfirst : r [] with
    | stop ok more =>
      refine .inl ⟨w, (ok, more), [], ?_, Advanced.refl hw, read_of_stop hfirst⟩
      rw [Reader.receive, hfirst]
      rfl
    | take place =>
      have hnext : ∀ f w', Advanced V h [f] w w' →
          AsDue V h (r.next f).read (false, false) ((r.next f).receive socket n) w' := by
        intro f w' hA
        refine ih hA.settled (Live.of_advanced (fun got i => hlive (f :: got) i) hA) ?_
        rw [hA.incoming] at hn
        exact Nat.lt_of_succ_lt_succ hn
      cases place with
      | own i =>
        rw [Reader.receive, hfirst]
        exact receiveInto_asDue hZ hs hfirst hw (hlive [] i hfirst) hnext
      | automatic =>
        obtain ⟨w₁, i, hnew, hA, hi, hi₁⟩ := IncomingMessage.new_advanced hZ hw
        rw [Reader.receive, hfirst]
        refine AsDue.withLocal hZ hnew hA hi hi₁ ?_
        exact receiveInto_asDue hZ hs hfirst hA.settled hi₁ fun f w' hA' =>
          hnext f w' (hA.trans hA')
      | kept =>
        obtain ⟨w₁, i, hnew, hA, hi, hi₁⟩ := IncomingMessage.new_advanced (h := h) hZ hw
        rw [Reader.receive, hfirst]
        refine AsDue.after (receiveInto_asDue hZ hs hfirst hA.settled hi₁ fun f w' hA' =>
          hnext f w' (hA.trans hA')) hA (bind_of_returned hnew _) fun gs => rfl

/-- And so do the arguments together. -/
theorem ReceivingSocket.receiveEach_asDue (hZ : V.Laws) (hs : socket.mSocket = some h)
    {rs : List Reader} {n : ℕ} (hw : Settled V w) (hlive : ∀ r ∈ rs, r.Live w)
    (hn : (V.incoming w.zmq h).length < n) :
    AsDue V h (Reader.readAll rs) false (ReceivingSocket.receiveEach socket n rs) w := by
  induction rs generalizing w with
  | nil => exact .inl ⟨w, true, [], rfl, Advanced.refl hw, fun _ => rfl⟩
  | cons r rs ih =>
    rcases Reader.receive_asDue hZ hs hw (hlive r (List.mem_cons_self ..)) hn with
      ⟨w₁, ⟨ok, more⟩, taken, hx, hA, hread⟩ | ⟨w₁, e, taken, hx, hA, hread⟩
    · have hgo : ReceivingSocket.receiveEach socket n (r :: rs) w =
          (if ok = false then pure (some false)
          else if more = false ∧ rs.length > 0 then pure (some false)
          else if more = true ∧ rs.length = 0 then pure (some false)
          else ReceivingSocket.receiveEach socket n rs : Action Z (Option Bool)) w₁ := by
        rw [ReceivingSocket.receiveEach, bind_of_returned hx]
      have hrest := fun rest => Reader.readAll_of_read (hread rest) rs
      split_ifs at hgo hrest
      · exact .inl ⟨w₁, false, taken, hgo, hA, hrest⟩
      · exact .inl ⟨w₁, false, taken, hgo, hA, hrest⟩
      · exact .inl ⟨w₁, false, taken, hgo, hA, hrest⟩
      · have hfew : (V.incoming w₁.zmq h).length < n := by
          rw [hA.incoming, List.length_append] at hn
          omega
        exact (ih hA.settled (fun t ht =>
          (hlive t (List.mem_cons_of_mem _ ht)).of_advanced hA) hfew).after hA hgo hrest
    · exact .inr ⟨w₁, e, taken, bind_of_failure hx rfl, hA, by rw [Reader.readAll, hread]; rfl⟩

/-- Arguments that follow the contract, on a message at the head of the socket. -/
theorem AsDue.message {rs : List Reader} {x : Action Z (Option Bool)}
    (hx : AsDue V h (Reader.readAll rs) false x w) (hrs : rs ≠ [])
    (hfollow : ∀ r ∈ rs, r.Follows) {msg : List Bytes} (hmsg : msg ≠ [])
    {rest : List (Frame Bytes)} (hin : V.incoming w.zmq h = Framing.message msg ++ rest) :
    ∃ w' result left, x w = (result, w') ∧ Settled V w' ∧
      V.incoming w'.zmq h = Framing.message left ++ rest ∧ left <:+ msg ∧
      (result = .returned (some true) ∧ left = [] ∨ result = .returned (some false) ∨
        ∃ e, result = .threw e ∧ left ≠ []) := by
  rcases hx with ⟨w', ok, taken, hx, hA, hread⟩ | ⟨w', e, taken, hx, hA, hread⟩
  · obtain ⟨ok', left, hmessage, hleft, hok⟩ := Reader.readAll_message hrs hfollow hmsg rest
    rw [← hin, hA.incoming, hread, Option.some.injEq, Prod.mk.injEq] at hmessage
    obtain ⟨rfl, hrest⟩ := hmessage
    refine ⟨w', .returned (some ok), left, hx, hA.settled, hrest, hleft, ?_⟩
    cases ok with
    | true => exact .inl ⟨rfl, hok rfl⟩
    | false => exact .inr (.inl rfl)
  · have hsplit := hin.symm.trans hA.incoming
    have hshort : taken.length < msg.length := by
      by_contra hlong
      rw [Nat.not_lt, ← Framing.message_length msg] at hlong
      -- the call would have had its result before
      obtain ⟨more, rfl⟩ : Framing.message msg <+: taken :=
        List.prefix_of_prefix_length_le ⟨rest, hin.symm⟩ ⟨_, hA.incoming.symm⟩ hlong
      obtain ⟨_, _, hsome, _⟩ := Reader.readAll_message hrs hfollow hmsg more
      rw [hread] at hsome
      cases hsome
    have hdrop := congrArg (List.drop taken.length) hsplit
    rw [List.drop_left, List.drop_append_of_le_length
      (by rw [Framing.message_length]; exact Nat.le_of_lt hshort), Framing.message_drop] at hdrop
    refine ⟨w', failure (some false) e, msg.drop taken.length, hx, hA.settled, hdrop.symm,
      List.drop_suffix _ _, .inr ?_⟩
    unfold failure
    split_ifs
    · exact .inl rfl
    · exact .inr ⟨⟨e⟩, rfl, by simpa using hshort⟩

/-- Objects of a class compose if and only if the class receives nothing after the last
frame of a message and leaves `moreToReceive` telling whether frames of it are due, as
classes of the pattern do, trees among them. What a call of the code does with any
arguments is what they do on the frames due, up to a transfer that fails while they still
wait for a frame; with arguments that follow the contract it takes frames of the message
at the head only. -/
theorem receivables_compose_iff (hZ : V.Laws) (hs : socket.mSocket = some h) (r : Reader) :
    (r.Follows ↔ r.Composes) ∧ (r.Pattern → r.Follows) ∧
    (∀ (ts : List Receivable) (n : ℕ), (∀ t ∈ ts, t.leaves.length < n) →
      (∀ t ∈ ts, (Reader.ofTree t).Pattern) ∧
      (ReceivingSocket.receiveEach socket n (ts.map Reader.ofTree) : Action Z (Option Bool)) =
        (ReceivingSocket.receive socket ts).bind fun ok => pure (some ok)) ∧
    ∀ (rs : List Reader) (w : World Z) (n : ℕ), Settled V w → (∀ t ∈ rs, t.Live w) →
      (V.incoming w.zmq h).length < n →
      AsDue V h (Reader.readAll rs) false (ReceivingSocket.receiveEach socket n rs) w ∧
      (rs ≠ [] → (∀ t ∈ rs, t.Follows) → ∀ msg, msg ≠ [] → ∀ rest,
        V.incoming w.zmq h = Framing.message msg ++ rest →
        ∃ w' result left, ReceivingSocket.receiveEach socket n rs w = (result, w') ∧
          Settled V w' ∧ V.incoming w'.zmq h = Framing.message left ++ rest ∧ left <:+ msg ∧
          (result = .returned (some true) ∧ left = [] ∨ result = .returned (some false) ∨
            ∃ e, result = .threw e ∧ left ≠ [])) := by
  refine ⟨Reader.follows_iff_composes r, Reader.Pattern.follows, fun ts n hn => ?_,
    fun rs w n hw hlive hn => ?_⟩
  · exact ⟨fun t _ => Reader.pattern_ofTree t, ReceivingSocket.receiveEach_ofTree socket hn⟩
  · have hdue := ReceivingSocket.receiveEach_asDue hZ hs hw hlive hn
    exact ⟨hdue, fun hrs hfollow msg hmsg rest hin => hdue.message hrs hfollow hmsg hin⟩

end Calls

namespace Reader

/-- All parts of a message, each into a new object. -/
def everything : Reader := fun got =>
  if (got.getLast?.map Frame.more).getD true then .take .kept else .stop true false

/-- One part, received with a flag of the class's own. -/
def ownFlag : Reader := fun got => if got = [] then .take .automatic else .stop true false

theorem everything_pattern : everything.Pattern := by
  constructor
  case receives => exact ⟨.kept, rfl⟩
  case passes =>
    intro got f ok more _ hstop
    cases hmore : f.more <;> simp [everything, hmore] at hstop
    exact hstop.2
  case checks =>
    intro got f place _ htake
    cases hmore : f.more <;> simp [everything, hmore] at htake
    rfl

theorem ownFlag_not_follows : ¬ownFlag.Follows := by
  intro hh
  have hmore := hh.tells [⟨[], true⟩] false ⟨⟨.automatic, rfl⟩, trivial⟩ rfl
  cases hmore

end Reader

/-- A class may take whatever parts there are; one that hides the flag does not compose. -/
theorem receivables_compose_iff_everything :
    Reader.everything.Composes ∧ ¬Reader.ownFlag.Composes ∧
      ∃ w', ReceivingSocket.receiveEach ⟨some 1⟩ 3 [Reader.everything] Loopback.arrivalEnd =
          (.returned (some true), w') ∧
        (Loopback.view true).incoming w'.zmq 1 = [] := by
  have hs : (⟨some 1⟩ : Socket).mSocket = some 1 := rfl
  have hfollows : Reader.everything.Follows :=
    (receivables_compose_iff (V := Loopback.view true) Loopback.laws hs _).2.1
      Reader.everything_pattern
  have hfollow : ∀ t ∈ [Reader.everything], t.Follows := by
    intro t ht
    rwa [List.mem_singleton.mp ht]
  have hlive : ∀ t ∈ [Reader.everything], t.Live Loopback.arrivalEnd := by
    intro t ht got i htake
    rw [List.mem_singleton.mp ht, Reader.everything] at htake
    split_ifs at htake
    cases htake
  have hin : (Loopback.view true).incoming Loopback.arrivalEnd.zmq 1 =
      Framing.message [[1], [2]] ++ [] := rfl
  have hgiven : (ReceivingSocket.receiveEach ⟨some 1⟩ 3 [Reader.everything]
      Loopback.arrivalEnd).1 = .returned (some true) := by
    decide +kernel
  refine ⟨?_, fun hh => ?_, ?_⟩
  · exact (receivables_compose_iff (V := Loopback.view true) Loopback.laws hs _).1.mp
      hfollows
  · apply Reader.ownFlag_not_follows
    exact (receivables_compose_iff (V := Loopback.view true) Loopback.laws hs _).1.mpr hh
  · obtain ⟨w', result, left, hx, _, hleft, _, ⟨rfl, rfl⟩ | rfl | ⟨e, rfl, _⟩⟩ :=
      ((receivables_compose_iff Loopback.laws hs Reader.everything).2.2.2 [Reader.everything]
        Loopback.arrivalEnd 3 Loopback.arrivalEnd_settled hlive (by rw [hin]; decide)).2
        (List.cons_ne_nil _ _) hfollow [[1], [2]] (List.cons_ne_nil _ _) [] hin
    · exact ⟨w', hx, hleft⟩
    · rw [hx] at hgiven
      cases hgiven
    · rw [hx] at hgiven
      cases hgiven

end CpperoMQ
