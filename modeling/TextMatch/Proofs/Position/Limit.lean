import TextMatch.Proofs.Position.Counters
import TextMatch.Proofs.Source.Points

/-!
# Counters of 32 bits

Counters that have 32 bits each count some points as far as all of them hold their values
(`Position.after?`). If they do, the count is that of unbounded counters, and over fewer than 2^32
bytes they always do (`after?_eq_some`). No such counter numbers more points than there are values
of 32 bits (`after?_eq_none`).
-/
namespace TextMatch.Position

open String (utf8Len)

variable {p q : Position} {before : List Char} {width : Nat} {newline : Bool}

/-- The position of the point that follows `before`, as counters of 32 bits come to it. -/
def after? (before : List Char) : Option Position :=
  before.foldlM (fun p c => p.step? c.utf8Size (c == '\n')) start

theorem step?_eq_some_iff :
    p.step? width newline = some q ↔ q = p.step width newline ∧ q.Fits := by
  unfold step?
  by_cases fits : (p.step width newline).Fits
  · rw [if_pos fits, Option.some.injEq]
    constructor
    · rintro rfl
      exact ⟨rfl, fits⟩
    · exact fun same => same.1.symm
  · rw [if_neg fits]
    refine iff_of_false nofun ?_
    rintro ⟨rfl, fitsToo⟩
    exact fits fitsToo

theorem after?_concat (before : List Char) (c : Char) :
    after? (before ++ [c]) =
      (after? before).bind fun p => p.step? c.utf8Size (c == '\n') := by
  simp [after?, List.foldlM_append]

theorem fits_after (small : utf8Len before + 1 < UInt32.size) : (after before).Fits := by
  obtain ⟨closed, split, _⟩ := exists_openLine before
  have wide : utf8Len closed + utf8Len (openLine before) = utf8Len before := by
    rw [← String.utf8Len_append, ← split]
  have lines := before.count_le_length (a := '\n')
  have points := Source.length_le_utf8Len before
  have linePoints := Source.length_le_utf8Len (openLine before)
  rw [after_eq]
  unfold Fits
  dsimp only
  omega

/-- What is counted is what unbounded counters count. -/
theorem eq_after_of_after? (counted : after? before = some p) : p = after before ∧ p.Fits := by
  induction before using List.reverseRecOn generalizing p with
  | nil =>
    cases counted
    exact ⟨rfl, by decide⟩
  | append_singleton before c ih =>
    rw [after?_concat, Option.bind_eq_some_iff] at counted
    obtain ⟨q, counted, stepped⟩ := counted
    obtain ⟨rfl, fits⟩ := step?_eq_some_iff.mp stepped
    rw [(ih counted).1, after_concat]
    rw [(ih counted).1] at fits
    exact ⟨rfl, fits⟩

theorem after?_eq_some (small : utf8Len before + 1 < UInt32.size) :
    after? before = some (after before) := by
  induction before using List.reverseRecOn with
  | nil => rfl
  | append_singleton before c ih =>
    have shorter : utf8Len before + 1 < UInt32.size := by
      rw [String.utf8Len_append] at small
      omega
    rw [after?_concat, ih shorter, Option.bind_some, step?_eq_some_iff, after_concat]
    exact ⟨rfl, after_concat before c ▸ fits_after small⟩

theorem after?_eq_none (many : UInt32.size ≤ before.length + 1) : after? before = none := by
  refine Option.eq_none_iff_forall_ne_some.mpr fun p counted => ?_
  obtain ⟨rfl, fits⟩ := eq_after_of_after? counted
  have number : (after before).point = before.length + 1 := by rw [after_eq]
  have bound := fits.2.2.2
  omega

end TextMatch.Position
