import TextMatch.Proofs.Reading.Boundary

/-!
# Matches go forward

Inside a match the scanner goes back whenever an expression fails or looks ahead. From outside none
of this shows: a match that succeeds leaves the scanner where some number of advances takes a copy
of it, and gives back the cursor there or the one before (`Scanner.expect_forward`). So whatever
the text of a match is taken to be, it begins at the start and has at most one point too many or
too few.
-/
namespace TextMatch

/-- A copy of the scanner is at `c` after `n` advances. -/
def Scanner.AdvancesTo (t : Scanner) (n : Nat) (c : Cursor) : Prop :=
  ∃ u, t.advanceBy n = (.ok (), u) ∧ u.current = c

variable {s : Source} {t : Scanner} {rest stop : List Char}

/-- There is a cursor for the point consumed last as well. -/
theorem Source.Leaves.boundary {last : Option Char} (leaves : s.Leaves stop)
    (within : last.toList ++ stop <:+ s.points) : s.Leaves (last.toList ++ stop) := by
  cases last with
  | none => exact leaves
  | some c => exact ⟨within, leaves.nonempty, nofun⟩

namespace Scanner

theorem AdvancesTo.eq_of_zero {c : Cursor} (nowhere : t.AdvancesTo 0 c) : c = t.current := by
  obtain ⟨u, advanced, rfl⟩ := nowhere
  cases advanced
  rfl

/-- A cursor that leaves fewer points is ahead, by as many advances. -/
theorem At.advancesTo {i : Nat} (here : t.At s rest) (index : i + rest.length = s.points.length)
    (leaves : s.Leaves stop) (suffix : stop <:+ rest) :
    ∃ n, n + stop.length = rest.length ∧ t.AdvancesTo n (s.cursorAt stop) ∧
      s.Visits (i + n) (s.cursorAt stop) := by
  obtain ⟨passed, rfl⟩ := suffix
  obtain ⟨u, advanced, there⟩ := here.advanceBy_append leaves.readable
  refine ⟨passed.length, by simp, ⟨u, advanced, there.current_eq⟩, ?_⟩
  refine Source.visits_iff.mpr ⟨stop, leaves, ?_, rfl⟩
  rw [← index, List.length_append, Nat.add_assoc]

/-- A match that succeeds comes to a cursor ahead, and gives back this cursor or the one before it,
but none before the start. -/
theorem expect_forward {i : Nat} {es : List Expr} {m : Match} {boundary : Cursor}
    (visited : t.source.Visits i t.current) (free : Expr.hooksIn es = [])
    (finished : t.expect es = some m) (succeeded : m.result = .ok boundary) :
    ∃ j k, j ≤ k ∧ k ≤ j + 1 ∧
      t.AdvancesTo j boundary ∧ t.source.Visits (i + j) boundary ∧
      t.AdvancesTo k m.scanner.current ∧ t.source.Visits (i + k) m.scanner.current ∧
      (k = 0 → boundary = t.current ∧ m.scanner.current = t.current) ∧
      t.current.offset ≤ boundary.offset ∧ boundary.offset ≤ m.scanner.current.offset := by
  obtain ⟨rest, start, index⟩ := At.of_visits rfl visited
  obtain ⟨n, same, result, left⟩ := start.expect free
  cases finished.symm.trans same
  have within := Expr.listReader_advances t.source.isReadable es rest
  generalize Expr.listReader t.source.isReadable es rest = reading at result left within
  rw [succeeded] at result
  cases reading with
  | error f => cases result
  | ok last stop =>
    -- the boundary leaves the points behind the match, and one more if it was consumed last
    obtain rfl : boundary = t.source.cursorAt (last.toList ++ stop) := Except.ok.inj result
    have left : m.scanner.At t.source stop := left
    have suffix : last.toList ++ stop <:+ rest := within
    have inside := suffix.trans start.leaves.suffix
    have atMostOne : last.toList.length ≤ 1 := by cases last <;> simp
    obtain ⟨j, toBoundary, advanced, met⟩ :=
      start.advancesTo index (left.leaves.boundary inside) suffix
    obtain ⟨k, toStop, advancedToo, metToo⟩ := start.advancesTo index left.leaves within.suffix
    rw [List.length_append] at toBoundary
    rw [left.current_eq]
    refine ⟨j, k, by omega, by omega, advanced, met, advancedToo, metToo, ?_, ?_, ?_⟩
    · rintro rfl
      obtain rfl : j = 0 := by omega
      exact ⟨advanced.eq_of_zero, advancedToo.eq_of_zero⟩
    · rw [start.current_eq]
      exact Source.offset_cursorAt_le suffix start.leaves.suffix
    · exact Source.offset_cursorAt_le (List.suffix_append _ _) inside

/-- Two digits behind a letter of two bytes. Over the semicolon the match only looks ahead, and the
unit is not there; so it comes to the semicolon. -/
theorem expect_forward_digits :
    let t : Scanner := ⟨.ofString "é12;", ⟨⟨1, 2, 3, 2⟩, some '1', 2⟩, none, none⟩
    let es : List Expr :=
      [.atLeast 1 (.range '0' '9'), .ahead [.untilAny [.point ';'] true], .optional [.literal "px"]]
    t.source.Visits 1 t.current ∧ Expr.hooksIn es = [] ∧
      ∃ m boundary, t.expect es = some m ∧ m.result = .ok boundary ∧
        m.scanner.current.offset = 4 ∧ ∃ j k, j ≤ k ∧ k ≤ j + 1 ∧ t.AdvancesTo j boundary ∧
          t.AdvancesTo k m.scanner.current := by
  intro t es
  have first : t.source.Visits 0 ⟨.start, some 'é', 0⟩ := .first (by decide)
  have visited : t.source.Visits 1 t.current := .after first (by decide)
  have came : (t.expect es).map (fun m => (m.result.toOption, m.scanner)) =
      some (some ⟨⟨1, 4, 5, 4⟩, some ';', 4⟩,
        ⟨.ofString "é12;", ⟨⟨1, 4, 5, 4⟩, some ';', 4⟩, none, none⟩) := by decide +kernel
  obtain ⟨m, finished, succeeded, left⟩ := expect_of_map came
  obtain ⟨j, k, ordered, close, toBoundary, _, toStop, _⟩ :=
    expect_forward visited rfl finished succeeded
  refine ⟨visited, rfl, m, _, finished, succeeded, ?_, j, k, ordered, close, toBoundary, toStop⟩
  rw [left]

end Scanner
end TextMatch
