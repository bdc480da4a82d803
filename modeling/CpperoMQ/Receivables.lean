import CpperoMQ.Message
import CpperoMQ.PartTree

/-!
# Receivable objects and the order their leaves are filled in

A `Receivable` is an `IncomingMessage` or an object that receives its members
one after the other, passes the same `moreToReceive` to each and gives up when a
member fails or when nothing follows a member that is not the last. A call of
`ReceivingSocket::receive` chains its arguments and demands that the message
ends with the last of them. Nesting and argument count do not matter: only the
sequence of leaves does.
-/
namespace CpperoMQ
open Effects Effects.Exec

abbrev Receivable := PartTree Unit ObjId

section Source
variable {Z : Libzmq}

/-- `if (!x.receive(socket, more) || !more) return false;` or, for the last
member, without the test of `more`. Results carry the value left in `more`. -/
def memberThen (x : Action Z (Bool × Bool)) (isLast : Bool)
    (rest : Bool → Action Z (Bool × Bool)) : Action Z (Bool × Bool) :=
  x.bind fun r => if r.1 && (isLast || r.2) then rest r.2 else pure (false, r.2)

mutual

/-- `Receivable::receive` -/
def Receivable.receive (socket : Socket) : Receivable → Action Z (Bool × Bool)
  | .leaf message => IncomingMessage.receive message socket
  | .node _ first rest =>
    memberThen (Receivable.receive socket first) rest.isEmpty fun more =>
      Receivable.receiveRest socket more rest

/-- The members that are left, `moreToReceive` being the value in the reference. -/
def Receivable.receiveRest (socket : Socket) (moreToReceive : Bool) :
    List Receivable → Action Z (Bool × Bool)
  | [] => pure (true, moreToReceive)
  | member :: rest =>
    memberThen (Receivable.receive socket member) rest.isEmpty fun more =>
      Receivable.receiveRest socket more rest

end

/-- `ReceivingSocket::receive` -/
def ReceivingSocket.receive (socket : Socket) : List Receivable → Action Z Bool
  | [] => pure true
  | receivable :: receivables =>
    (Receivable.receive socket receivable).bind fun r =>
      if r.1 = false then pure false
      else if r.2 = false ∧ receivables.length > 0 then pure false
      else if r.2 = true ∧ receivables.length = 0 then pure false
      else ReceivingSocket.receive socket receivables

/-- Receive into some messages, one after the other. -/
def receiveLeaves (socket : Socket) (moreToReceive : Bool) :
    List ObjId → Action Z (Bool × Bool)
  | [] => pure (true, moreToReceive)
  | message :: rest =>
    memberThen (IncomingMessage.receive message socket) rest.isEmpty fun more =>
      receiveLeaves socket more rest

/-- A whole message was received: nothing failed and nothing follows. -/
def wholeMessage (r : Bool × Bool) : Bool := r.1 && !r.2

theorem memberThen_last (x : Action Z (Bool × Bool)) :
    memberThen x true (fun more => pure (true, more)) = x := by
  have hh : (fun r : Bool × Bool => if r.1 && (true || r.2) then
      (pure (true, r.2) : Action Z (Bool × Bool)) else pure (false, r.2)) = pure := by
    funext r
    obtain ⟨ok, more⟩ := r
    cases ok <;> rfl
  rw [memberThen, hh, bind_pure]

theorem memberThen_assoc (x : Action Z (Bool × Bool)) (isLast : Bool)
    (f g : Bool → Action Z (Bool × Bool)) :
    memberThen (memberThen x false f) isLast g =
      memberThen x false fun more => memberThen (f more) isLast g := by
  unfold memberThen
  rw [bind_assoc]
  congr 1
  funext r
  obtain ⟨ok, more⟩ := r
  cases ok <;> cases more <;> rfl

/-- The flag left by earlier messages is overwritten by the next one. -/
theorem receiveLeaves_flag (socket : Socket) (more more' : Bool) {is : List ObjId}
    (h : is ≠ []) :
    (receiveLeaves socket more is : Action Z (Bool × Bool)) = receiveLeaves socket more' is := by
  cases is with
  | nil => exact absurd rfl h
  | cons i is => rfl

/-- A group of messages followed by others is one longer group. -/
theorem receiveLeaves_append (socket : Socket) (more : Bool) {xs : List ObjId} (h : xs ≠ [])
    (ys : List ObjId) :
    (receiveLeaves socket more (xs ++ ys) : Action Z (Bool × Bool)) =
      memberThen (receiveLeaves socket more xs) ys.isEmpty fun more =>
        receiveLeaves socket more ys := by
  induction xs generalizing more with
  | nil => exact absurd rfl h
  | cons x xs ih =>
    cases xs with
    | nil =>
      show memberThen (IncomingMessage.receive x socket) ys.isEmpty _ =
        memberThen (memberThen (IncomingMessage.receive x socket) true fun more =>
          pure (true, more)) ys.isEmpty _
      rw [memberThen_last]
      rfl
    | cons x' xs =>
      show memberThen (IncomingMessage.receive x socket) false
          (fun more => receiveLeaves socket more (x' :: xs ++ ys)) =
        memberThen (memberThen (IncomingMessage.receive x socket) false fun more =>
          receiveLeaves socket more (x' :: xs)) ys.isEmpty _
      rw [memberThen_assoc]
      congr 1
      funext more'
      exact ih more' (List.cons_ne_nil x' xs)

theorem isEmpty_forestLeaves (ts : List Receivable) :
    (PartTree.forestLeaves ts).isEmpty = ts.isEmpty := by
  rw [Bool.eq_iff_iff, List.isEmpty_iff, List.isEmpty_iff, PartTree.forestLeaves_eq_nil]

/-- A tree receives into its leaves from left to right. -/
theorem Receivable.receive_eq_leaves (socket : Socket) :
    (∀ (t : Receivable) (more : Bool),
      (Receivable.receive socket t : Action Z (Bool × Bool)) =
        receiveLeaves socket more t.leaves) ∧
    ∀ (ts : List Receivable) (more : Bool),
      (Receivable.receiveRest socket more ts : Action Z (Bool × Bool)) =
        receiveLeaves socket more (PartTree.forestLeaves ts) := by
  apply PartTree.induction_both
  case leaf =>
    intro message more
    exact (memberThen_last _).symm
  case node =>
    intro _ first rest ihFirst ihRest more
    rw [PartTree.leaves, receiveLeaves_append socket more (PartTree.leaves_ne_nil first),
      isEmpty_forestLeaves, ← ihFirst more]
    simp only [← ihRest]
    rfl
  case nil =>
    intro more
    rfl
  case cons =>
    intro member rest ihMember ihRest more
    rw [PartTree.forestLeaves_cons,
      receiveLeaves_append socket more (PartTree.leaves_ne_nil member), isEmpty_forestLeaves,
      ← ihMember more]
    simp only [← ihRest]
    rfl

/-- A call receives into its leaves and demands that the message ends there. -/
theorem ReceivingSocket.receive_eq_leaves (socket : Socket) {receivables : List Receivable}
    (h : receivables ≠ []) :
    (ReceivingSocket.receive socket receivables : Action Z Bool) =
      (receiveLeaves socket false (PartTree.forestLeaves receivables)).bind fun r =>
        pure (wholeMessage r) := by
  induction receivables with
  | nil => exact absurd rfl h
  | cons t ts ih =>
    rw [ReceivingSocket.receive, (Receivable.receive_eq_leaves socket).1 t false,
      PartTree.forestLeaves_cons,
      receiveLeaves_append socket false (PartTree.leaves_ne_nil t), isEmpty_forestLeaves,
      memberThen, bind_assoc]
    congr 1
    funext r
    obtain ⟨ok, more⟩ := r
    cases ts with
    | nil => cases ok <;> cases more <;> rfl
    | cons t' ts =>
      have hne : PartTree.forestLeaves (t' :: ts) ≠ [] := by
        rw [Ne, PartTree.forestLeaves_eq_nil]
        exact List.cons_ne_nil t' ts
      cases ok with
      | false => cases more <;> rfl
      | true =>
        cases more with
        | false => rfl
        | true =>
          rw [ih (List.cons_ne_nil t' ts), receiveLeaves_flag socket false true hne]
          rfl

end Source
end CpperoMQ
