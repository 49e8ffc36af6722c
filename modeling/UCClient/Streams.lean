import Mathlib.Data.List.Basic
import Mathlib.Data.List.Infix

/-!
# Messages Taken Over in Parts

A sender queues messages, a receiver takes bytes from the first message of the queue, as
many at a time as it likes. **Aligned** relates what the receiver has taken, the queue, and
the messages queued so far: the receiver stands somewhere within one message, the queue
begins with the rest of it, and the later messages follow untouched.

Queueing a message, taking part of the first one and dropping an empty one keep the
alignment (`Aligned.push`, `Aligned.take`, `Aligned.skip`). From it follows that nothing
is lost, duplicated or reordered (`Aligned.flatten_eq`).

Which messages the receiver has in full is computed from what it has taken (`completed`):
they are the first ones, and what is left over is a proper beginning of the next
(`completed_spec`).
-/

variable {α : Type}

/-- `Aligned taken queue sent`: of the messages `sent` the elements `taken` have been taken
over, and `queue` is left. -/
inductive Aligned : List α → List (List α) → List (List α) → Prop
  | idle (sent : List (List α)) : Aligned sent.flatten [] sent
  | within (before : List (List α)) (m : List α) (k : ℕ) (later : List (List α)) :
      Aligned (before.flatten ++ m.take k) (m.drop k :: later) (before ++ m :: later)

namespace Aligned

variable {taken : List α} {queue sent : List (List α)} {head m : List α} {rest : List (List α)}

/-- The receiver stands at the beginning of a message, or at the end of all. -/
theorem boundary (before later : List (List α)) :
    Aligned before.flatten later (before ++ later) := by
  cases later with
  | nil => simpa using idle before
  | cons m later => simpa using within before m 0 later

theorem push (h : Aligned taken queue sent) (m : List α) :
    Aligned taken (queue ++ [m]) (sent ++ [m]) := by
  cases h with
  | idle => exact boundary sent [m]
  | within before m' k later =>
      have h' := within before m' k (later ++ [m])
      rwa [List.append_assoc]

theorem take (h : Aligned taken (head :: rest) sent) (n : ℕ) :
    Aligned (taken ++ head.take n) (head.drop n :: rest) sent := by
  cases h with
  | within before m k later =>
      have h' := within before m (k + n) rest
      rwa [List.take_add, ← List.append_assoc, ← List.drop_drop] at h'

theorem skip (h : Aligned taken ([] :: rest) sent) : Aligned taken rest sent := by
  generalize hq : [] :: rest = queue at h
  cases h with
  | idle => cases hq
  | within before m k later =>
      obtain ⟨hdrop, rfl⟩ := List.cons.inj hq
      have htake : m.take k = m := List.take_of_length_le (List.drop_eq_nil_iff.mp hdrop.symm)
      have h' := boundary (before ++ [m]) rest
      rw [htake]
      simpa using h'

/-- **Nothing is lost, duplicated or reordered.** -/
theorem flatten_eq (h : Aligned taken queue sent) :
    taken ++ queue.flatten = sent.flatten := by
  cases h with
  | idle => simp
  | within before m k later =>
      simp only [List.flatten_cons, List.flatten_append, List.append_assoc]
      rw [← List.append_assoc (m.take k), List.take_append_drop]

/-- The first message of the queue is what is left of one message, and everything before
it has been taken over. -/
theorem head_eq (h : Aligned taken (head :: rest) sent) :
    ∃ before m k later, sent = before ++ m :: later ∧ head = m.drop k ∧
      taken = before.flatten ++ m.take k := by
  cases h with
  | within before m k later => exact ⟨before, m, k, rest, rfl, rfl, rfl⟩

end Aligned

/-! ### Messages taken over in full -/

section Completed

variable {β : Type} [DecidableEq α] (f : β → List α)

/-- The messages that are taken over in full; `f m` is the content of the message `m`. -/
def completed : List α → List β → List β
  | _, [] => []
  | taken, m :: rest =>
      if f m <+: taken then m :: completed (taken.drop (f m).length) rest else []

/-- They are the first ones that were queued. -/
theorem completed_isPrefix (taken : List α) (sent : List β) : completed f taken sent <+: sent := by
  induction sent generalizing taken with
  | nil => exact List.prefix_rfl
  | cons m rest ih =>
      rw [completed]
      split_ifs
      · exact List.cons_prefix_cons.mpr ⟨rfl, ih _⟩
      · exact List.nil_prefix

/-- **What was taken is the completed messages and a proper beginning of the next.** -/
theorem completed_spec {taken : List α} {sent : List β} (h : taken <+: (sent.map f).flatten) :
    ∃ part, taken = ((completed f taken sent).map f).flatten ++ part ∧
      ((completed f taken sent = sent ∧ part = []) ∨
        ∃ m rest, sent = completed f taken sent ++ m :: rest ∧ part <+: f m ∧ part ≠ f m) := by
  induction sent generalizing taken with
  | nil => exact ⟨[], by simpa [completed] using h, .inl ⟨rfl, rfl⟩⟩
  | cons m rest ih =>
      rw [List.map_cons, List.flatten_cons] at h
      rw [completed]
      by_cases hm : f m <+: taken
      · obtain ⟨more, rfl⟩ := hm
        rw [List.prefix_append_right_inj] at h
        obtain ⟨part, htaken, hrest⟩ := ih h
        rw [if_pos (List.prefix_append ..), List.drop_left]
        refine ⟨part, ?_, ?_⟩
        · rw [List.map_cons, List.flatten_cons, List.append_assoc, ← htaken]
        · rcases hrest with ⟨hall, rfl⟩ | ⟨m', rest', hsent, hpart⟩
          · exact .inl ⟨by rw [hall], rfl⟩
          · refine .inr ⟨m', rest', ?_, hpart⟩
            rw [List.cons_append, ← hsent]
      · rw [if_neg hm]
        refine ⟨taken, rfl, .inr ⟨m, rest, rfl, ?_, ?_⟩⟩
        · rcases List.prefix_or_prefix_of_prefix h (List.prefix_append ..) with h' | h'
          · exact h'
          · exact absurd h' hm
        · rintro rfl
          exact hm List.prefix_rfl

end Completed
