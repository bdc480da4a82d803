import Mathlib.Tactic.Common

/-!
# Multipart messages as streams of flagged frames

A message is a nonempty list of parts. It travels as one frame for each part,
whose flag says whether more frames of the same message follow. `assemble` reads
a stream back: it yields the messages that are complete and the parts of the
message still open at the end.
-/
namespace CpperoMQ

/-- One part of a message and whether more parts of that message follow it. -/
structure Frame (α : Type*) where
  part : α
  more : Bool
  deriving Repr, DecidableEq

namespace Framing
variable {α β : Type*}

/-- The frames of some parts, `last` being the flag of the last one. -/
def frames (last : Bool) : List α → List (Frame α)
  | [] => []
  | [a] => [⟨a, last⟩]
  | a :: b :: parts => ⟨a, true⟩ :: frames last (b :: parts)

/-- The frames of one whole message. -/
def message (parts : List α) : List (Frame α) := frames false parts

/-- Whole messages, one after the other. -/
def stream (messages : List (List α)) : List (Frame α) := messages.flatMap message

/-- Reassembly, with the parts already read of the message that is open. -/
def assemble (acc : List α) : List (Frame α) → List (List α) × List α
  | [] => ([], acc)
  | ⟨a, true⟩ :: fs => assemble (acc ++ [a]) fs
  | ⟨a, false⟩ :: fs => ((acc ++ [a]) :: (assemble [] fs).1, (assemble [] fs).2)

/-- The complete messages of a stream. -/
def completed (fs : List (Frame α)) : List (List α) := (assemble [] fs).1

/-- The parts of the message that is still open at the end of a stream. -/
def openParts (fs : List (Frame α)) : List α := (assemble [] fs).2

@[simp] theorem frames_nil (last : Bool) : frames last ([] : List α) = [] := rfl

@[simp] theorem frames_singleton (last : Bool) (a : α) : frames last [a] = [⟨a, last⟩] := rfl

theorem frames_cons (last : Bool) (a : α) {parts : List α} (h : parts ≠ []) :
    frames last (a :: parts) = ⟨a, true⟩ :: frames last parts := by
  cases parts with
  | nil => exact absurd rfl h
  | cons b parts => rfl

/-- The flag of the last frame is decided by the last group of parts alone. -/
theorem frames_append (last : Bool) (xs : List α) {ys : List α} (h : ys ≠ []) :
    frames last (xs ++ ys) = frames true xs ++ frames last ys := by
  induction xs with
  | nil => rfl
  | cons x xs ih =>
    rw [List.cons_append, frames_cons last x (by simp [h]), ih]
    cases xs with
    | nil => rfl
    | cons y xs => rfl

@[simp] theorem frames_length (last : Bool) (parts : List α) :
    (frames last parts).length = parts.length := by
  induction parts with
  | nil => rfl
  | cons a parts ih =>
    cases parts with
    | nil => rfl
    | cons b parts => simpa [frames] using ih

@[simp] theorem frames_eq_nil {last : Bool} {parts : List α} :
    frames last parts = [] ↔ parts = [] := by
  rw [← List.length_eq_zero_iff, frames_length, List.length_eq_zero_iff]

theorem frames_true (parts : List α) : frames true parts = parts.map (⟨·, true⟩) := by
  induction parts with
  | nil => rfl
  | cons a parts ih =>
    cases parts with
    | nil => rfl
    | cons b parts => simpa [frames] using ih

@[simp] theorem frames_map_part (last : Bool) (parts : List α) :
    (frames last parts).map Frame.part = parts := by
  induction parts with
  | nil => rfl
  | cons a parts ih =>
    cases parts with
    | nil => rfl
    | cons b parts => simpa [frames] using ih

/-- Relabelling the parts of a frame sequence keeps its flags. -/
theorem frames_map (f : α → β) (last : Bool) (parts : List α) :
    frames last (parts.map f) = (frames last parts).map (fun x => ⟨f x.part, x.more⟩) := by
  induction parts with
  | nil => rfl
  | cons a parts ih =>
    cases parts with
    | nil => rfl
    | cons b parts => simpa [frames] using ih

/-- All frames before the last announce more. -/
theorem frames_take (last : Bool) {parts : List α} {n : ℕ} (h : n < parts.length) :
    (frames last parts).take n = frames true (parts.take n) := by
  induction parts generalizing n with
  | nil => simp at h
  | cons a parts ih =>
    cases n with
    | zero => rfl
    | succ n =>
      have hn : n < parts.length := by simpa using h
      have hne : parts ≠ [] := List.ne_nil_of_length_pos (Nat.zero_lt_of_lt hn)
      rw [frames_cons last a hne, List.take_succ_cons, List.take_succ_cons, ih hn, frames_true,
        frames_true, List.map_cons]

/-- Frames taken off the front of a message announce more. -/
theorem message_take_more {parts : List α} {n : ℕ} (hn : 0 < n) (h : n < parts.length) :
    ((message parts).take n).getLast?.map Frame.more = some true := by
  have hne : parts.take n ≠ [] := by
    apply List.ne_nil_of_length_pos
    rw [List.length_take]
    omega
  rw [message, frames_take false h, frames_true, List.getLast?_map, Option.map_map,
    List.getLast?_eq_some_getLast hne]
  rfl

/-- The last frame of a message does not. -/
theorem message_last_more {parts : List α} (h : parts ≠ []) :
    (message parts).getLast?.map Frame.more = some false := by
  obtain ⟨init, last, rfl⟩ : ∃ init last, parts = init ++ [last] :=
    ⟨parts.dropLast, parts.getLast h, (List.dropLast_concat_getLast h).symm⟩
  rw [message, frames_append false init (by simp), frames_singleton, List.getLast?_concat]
  rfl

theorem message_cons (a : α) (parts : List α) :
    message (a :: parts) = ⟨a, !parts.isEmpty⟩ :: message parts := by
  cases parts <;> rfl

@[simp] theorem message_length (parts : List α) : (message parts).length = parts.length :=
  frames_length false parts

theorem message_drop (parts : List α) (n : ℕ) :
    (message parts).drop n = message (parts.drop n) := by
  induction parts generalizing n with
  | nil => simp [message]
  | cons a parts ih =>
    cases n with
    | zero => rfl
    | succ n => rw [message_cons, List.drop_succ_cons, List.drop_succ_cons, ih]

/-- The frame at an index: its part, and whether the index is not the last. -/
theorem message_getElem? (parts : List α) (x : ℕ) :
    (message parts)[x]? = parts[x]?.map fun a => ⟨a, decide (x + 1 < parts.length)⟩ := by
  induction parts generalizing x with
  | nil => rfl
  | cons a parts ih =>
    rw [message_cons]
    cases x with
    | zero => cases parts <;> simp
    | succ x =>
      rw [List.getElem?_cons_succ, List.getElem?_cons_succ, ih]
      simp

/-- A frame with others before and after it in a message. -/
theorem message_split {parts : List α} {before after : List (Frame α)} {f : Frame α}
    (h : message parts = before ++ f :: after) :
    before.length < parts.length ∧ before = (message parts).take before.length ∧
      parts[before.length]? = some f.part ∧
      f.more = decide (before.length + 1 < parts.length) := by
  have hlt : before.length < parts.length := by
    have hlength := congrArg List.length h
    rw [message_length, List.length_append, List.length_cons] at hlength
    omega
  have hget := message_getElem? parts before.length
  rw [h, List.getElem?_append_right (Nat.le_refl _), Nat.sub_self, List.getElem?_cons_zero] at hget
  obtain ⟨a, ha, hf⟩ := Option.map_eq_some_iff.mp hget.symm
  refine ⟨hlt, ?_, ?_, ?_⟩
  · rw [h, List.take_left]
  · rw [ha, ← hf]
  · rw [← hf]

/-! ### Reassembly -/

/-- Frames that all announce more leave the message open. -/
theorem assemble_open (acc parts : List α) (fs : List (Frame α)) :
    assemble acc (frames true parts ++ fs) = assemble (acc ++ parts) fs := by
  induction parts generalizing acc with
  | nil => simp
  | cons a parts ih =>
    have hcons : frames true (a :: parts) = ⟨a, true⟩ :: frames true parts := by
      simp [frames_true]
    rw [hcons, List.cons_append, assemble, ih, List.append_assoc, List.singleton_append]

/-- The frames of a whole message close the message that was open. -/
theorem assemble_message (acc : List α) {parts : List α} (h : parts ≠ [])
    (fs : List (Frame α)) :
    assemble acc (message parts ++ fs) =
      ((acc ++ parts) :: (assemble [] fs).1, (assemble [] fs).2) := by
  obtain ⟨init, last, rfl⟩ : ∃ init last, parts = init ++ [last] :=
    ⟨parts.dropLast, parts.getLast h, (List.dropLast_concat_getLast h).symm⟩
  rw [message, frames_append false init (by simp), List.append_assoc, assemble_open]
  simp [assemble]

/-- Reading a stream in two pieces carries the open message from one to the other. -/
theorem assemble_append (acc : List α) (fs gs : List (Frame α)) :
    assemble acc (fs ++ gs) =
      ((assemble acc fs).1 ++ (assemble (assemble acc fs).2 gs).1,
        (assemble (assemble acc fs).2 gs).2) := by
  induction fs generalizing acc with
  | nil => rfl
  | cons f fs ih =>
    obtain ⟨a, more⟩ := f
    cases more with
    | true => exact ih (acc ++ [a])
    | false => simp only [List.cons_append, assemble, ih []]

theorem openParts_append (fs gs : List (Frame α)) :
    openParts (fs ++ gs) = (assemble (openParts fs) gs).2 := by
  rw [openParts, assemble_append]
  rfl

/-- One more frame completes the open message, or leaves it open. -/
theorem completed_concat (fs : List (Frame α)) (a : α) (more : Bool) :
    completed (fs ++ [⟨a, more⟩]) =
      completed fs ++ if more then [] else [openParts fs ++ [a]] := by
  rw [completed, assemble_append]
  cases more <;> rfl

/-- Whole messages read back as they were written. -/
theorem assemble_stream {messages : List (List α)} (h : ∀ m ∈ messages, m ≠ []) :
    assemble [] (stream messages) = (messages, []) := by
  induction messages with
  | nil => rfl
  | cons m messages ih =>
    rw [stream, List.flatMap_cons, assemble_message [] (h m (by simp)),
      ← stream, ih fun x hx => h x (by simp [hx])]
    rfl

@[simp] theorem stream_nil : stream ([] : List (List α)) = [] := rfl

@[simp] theorem stream_cons (m : List α) (messages : List (List α)) :
    stream (m :: messages) = message m ++ stream messages := rfl

theorem stream_append (xs ys : List (List α)) :
    stream (xs ++ ys) = stream xs ++ stream ys := by simp [stream]

end Framing
end CpperoMQ
