import Mathlib.Data.List.Induction
import Mathlib.Data.String.Basic
import TextMatch.Position

/-!
# What the counters count

The position after some points, in closed form. The counters are kept by one step a point; here
they are read off the points themselves, those of the open line for the two that restart.
-/
namespace TextMatch.Position

open String (utf8Len)

/-- The position of the point that follows `before`. -/
def after (before : List Char) : Position :=
  before.foldl (fun p c => p.step c.utf8Size (c == '\n')) start

/-- The points of `before` since its last newline. -/
def openLine (before : List Char) : List Char :=
  (before.reverse.takeWhile (· != '\n')).reverse

theorem after_concat (before : List Char) (c : Char) :
    after (before ++ [c]) = (after before).step c.utf8Size (c == '\n') := by
  simp [after]

@[simp] theorem openLine_newline (before : List Char) : openLine (before ++ ['\n']) = [] := by
  simp [openLine]

theorem openLine_concat (before : List Char) {c : Char} (other : c ≠ '\n') :
    openLine (before ++ [c]) = openLine before ++ [c] := by
  simp [openLine, other]

/-- The open line is behind the last newline, or it is everything. -/
theorem exists_openLine (before : List Char) : ∃ closed, before = closed ++ openLine before ∧
    '\n' ∉ openLine before ∧ (closed = [] ∨ ∃ lines, closed = lines ++ ['\n']) := by
  induction before using List.reverseRecOn with
  | nil => exact ⟨[], rfl, by simp [openLine], .inl rfl⟩
  | append_singleton before c ih =>
    by_cases newline : c = '\n'
    · subst newline
      refine ⟨before ++ ['\n'], ?_, ?_, .inr ⟨before, rfl⟩⟩ <;> simp
    · obtain ⟨closed, split, free, begins⟩ := ih
      rw [openLine_concat before newline]
      refine ⟨closed, ?_, ?_, begins⟩
      · rw [← List.append_assoc, ← split]
      · simp [free, Ne.symm newline]

theorem after_eq (before : List Char) :
    after before =
      ⟨before.count '\n' + 1, (openLine before).length + 1, utf8Len (openLine before) + 1,
        before.length + 1⟩ := by
  induction before using List.reverseRecOn with
  | nil => rfl
  | append_singleton before c ih =>
    rw [after_concat, ih]
    by_cases newline : c = '\n'
    · subst newline
      simp [step]
    · rw [openLine_concat before newline]
      simp [step, newline, Nat.add_right_comm]

end TextMatch.Position
