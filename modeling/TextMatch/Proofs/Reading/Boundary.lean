import TextMatch.Proofs.Reading.Agreement
import TextMatch.Proofs.Reading.Consuming
import TextMatch.Proofs.Source.Shown

/-!
# The boundary of a match

A match gives back the cursor of the last point consumed, so that its text runs from the start of
the match through the boundary and what remains comes after. This holds where the last part of the
match consumed a point (`Expr.EndsConsuming`), and where nothing is consumed at all
(`expect_boundary_iff`). A part that succeeds without consuming gives back the cursor where it was
tried: behind a part that did consume, the boundary is then the point after the match, and its text
has one point too many, unless that is the end of data.
-/
namespace TextMatch

open String (utf8Len)

namespace Source

variable {s : Source} {before rest : List Char}

/-- The boundary ends where `rest` begins if it holds a point before `rest`, and at the end of
data, which is as long as its place. -/
theorem next_boundaryAt_iff {last : Option Char} (within : last.toList ++ rest <:+ s.points) :
    (s.boundaryAt last rest).next = (s.cursorAt rest).offset ↔
      last.isSome = true ∨ rest.isEmpty = true := by
  obtain ⟨before, split⟩ := within
  cases last with
  | some c =>
    have onward : s.points = (before ++ [c]) ++ rest := by rw [← split]; simp
    have next : (s.boundaryAt (some c) rest).next = utf8Len before + c.utf8Size :=
      next_cursorAt split.symm
    rw [next, offset_cursorAt onward]
    simp
  | none =>
    cases rest with
    | nil => exact iff_of_true (Cursor.next_of_end rfl) (Or.inr rfl)
    | cons d rest =>
      have wide := d.utf8Size_pos
      have next : (s.boundaryAt none (d :: rest)).next =
          (s.cursorAt (d :: rest)).offset + d.utf8Size :=
        Cursor.next_of_point (point_cursorAt s (d :: rest))
      rw [next]
      simp
      omega

end Source

namespace Scanner

variable {s : Source} {t u : Scanner} {consumed rest : List Char}

/-- The text from a scanner to a boundary that ends where another stands, with the points between
them, and with what that one has left. -/
theorem At.textThrough_eq {boundary : Cursor} (start : t.At s (consumed ++ rest))
    (here : u.At s rest) (ends : boundary.next = u.current.offset) :
    t.textThrough t.current boundary = String.ofList consumed ∧
      t.textThrough t.current boundary ++ u.rest = t.rest := by
  obtain ⟨before, split⟩ := start.leaves.split
  have onward : s.points = (before ++ consumed) ++ rest := by rw [split, List.append_assoc]
  unfold textThrough Scanner.rest
  rw [ends, start.source_eq, here.source_eq, start.current_eq, here.current_eq,
    Source.offset_cursorAt split, Source.offset_cursorAt onward]
  exact ⟨Source.text_utf8Len onward, Source.text_append_rest onward⟩

/-- A success in parts that can be evaluated. -/
theorem expect_of_map {es : List Expr} {boundary : Cursor}
    (came : (t.expect es).map (fun m => (m.result.toOption, m.scanner)) =
      some (some boundary, u)) :
    ∃ m, t.expect es = some m ∧ m.result = .ok boundary ∧ m.scanner = u := by
  obtain ⟨⟨result, scanner, events⟩, finished, parts⟩ := Option.map_eq_some_iff.mp came
  cases result with
  | ok c =>
    cases parts
    exact ⟨_, finished, rfl, rfl⟩
  | error e => cases parts

/-- Exactly when the boundary is the last point consumed. Where it is, the text of the match runs
up to where the scanner stands, with all the rest behind it; where it is not, it is the cursor that
the scanner stands at. -/
theorem expect_boundary_iff {i : Nat} {es : List Expr} {m : Match} {boundary : Cursor}
    (visited : t.source.Visits i t.current) (free : Expr.hooksIn es = [])
    (finished : t.expect es = some m) (succeeded : m.result = .ok boundary) :
    (m.scanner.current = t.current → boundary = t.current) ∧
      (m.scanner.current ≠ t.current →
        (boundary.next = m.scanner.current.offset ↔
          Expr.EndsConsuming t.source.isReadable es (t.source.points.drop i) ∨
            m.scanner.atEnd = true)) ∧
      (boundary.next = m.scanner.current.offset →
        ∃ j, t.source.Visits j m.scanner.current ∧
          t.textThrough t.current boundary =
            String.ofList ((t.source.points.drop i).take (j - i)) ∧
          t.textThrough t.current boundary ++ m.scanner.rest = t.rest) ∧
      (boundary.next ≠ m.scanner.current.offset → boundary = m.scanner.current) := by
  obtain ⟨inside, start⟩ := At.of_index rfl visited
  have agrees := Session.expect_agrees free (show (Session.mk t []).scanner.At _ _ from start)
  have within := Expr.listReader_advances t.source.isReadable es (t.source.points.drop i)
  unfold Scanner.expect at finished
  unfold Expr.EndsConsuming
  generalize Session.expect es ⟨t, []⟩ = outcome,
    Expr.listReader t.source.isReadable es (t.source.points.drop i) = reading
    at agrees finished within ⊢
  cases agrees with
  | error left =>
    cases finished
    cases succeeded
  | @ok c last τ stop isBoundary here =>
    cases finished
    cases succeeded
    have inPoints : last.toList ++ stop <:+ t.source.points :=
      List.IsSuffix.trans within start.leaves.suffix
    have current : τ.scanner.current = t.source.cursorAt stop := here.current_eq
    refine ⟨?_, ?_, ?_, ?_⟩
    · intro same
      cases last with
      | none => exact isBoundary.trans (current.symm.trans same)
      | some d =>
        -- the point consumed last is among those left at the start, so the scanner has moved
        rw [current, start.current_eq] at same
        have unmoved := Source.cursorAt_inj here.leaves start.leaves same
        have fewer := within.length_le
        rw [← unmoved] at fewer
        simp at fewer
    · intro _
      dsimp only
      rw [isBoundary, current, Source.next_boundaryAt_iff inPoints, atEnd, current,
        Source.isEnd_cursorAt]
      cases last with
      | none => simp
      | some d => simp
    · intro ends
      obtain ⟨consumed, split⟩ := within.suffix
      rw [← split] at start
      refine ⟨_, here.visits, ?_⟩
      have count : t.source.points.length - stop.length - i = consumed.length := by
        have sizes := congrArg List.length split
        rw [List.length_append, List.length_drop] at sizes
        omega
      rw [count, ← split, List.take_left]
      exact start.textThrough_eq here ends
    · intro beyond
      rw [isBoundary, current, ne_eq, Source.next_boundaryAt_iff inPoints] at beyond
      cases last with
      | none => exact isBoundary.trans current.symm
      | some d => exact absurd (Or.inl rfl) beyond

/-- Digits alone, of which the last is the boundary. -/
theorem boundary_of_digits :
    let t : Scanner := ⟨.ofString "12x", ⟨.start, some '1', 0⟩, none, none⟩
    let es : List Expr := [.atLeast 1 (.range '0' '9')]
    Expr.EndsConsuming t.source.isReadable es (t.source.points.drop 0) ∧
      ∃ m boundary, t.expect es = some m ∧ m.result = .ok boundary ∧
        boundary.next = m.scanner.current.offset ∧
        t.textThrough t.current boundary ++ m.scanner.rest = t.rest := by
  intro t es
  have came : (t.expect es).map (fun m => (m.result.toOption, m.scanner)) =
      some (some ⟨⟨1, 2, 2, 2⟩, some '2', 1⟩,
        ⟨.ofString "12x", ⟨⟨1, 3, 3, 3⟩, some 'x', 2⟩, none, none⟩) := by decide
  obtain ⟨m, finished, succeeded, left⟩ := expect_of_map came
  obtain ⟨_, moved, text, _⟩ :=
    expect_boundary_iff (t := t) (.first (by decide)) rfl finished succeeded
  rw [left] at moved text
  refine ⟨((moved (by decide)).mp rfl).resolve_right (by decide), m, _, finished, succeeded, ?_⟩
  rw [left]
  obtain ⟨j, _, _, whole⟩ := text rfl
  exact ⟨rfl, whole⟩

/-- Digits with a unit that is not there: the boundary is the letter after the digits. -/
theorem boundary_of_missing_unit :
    let t : Scanner := ⟨.ofString "12x", ⟨.start, some '1', 0⟩, none, none⟩
    let es : List Expr := [.seq [.atLeast 1 (.range '0' '9'), .optional [.literal "u"]]]
    t.source.Visits 0 t.current ∧ Expr.hooksIn es = [] ∧
      ∃ m boundary, t.expect es = some m ∧ m.result = .ok boundary ∧
        m.scanner.current ≠ t.current ∧ boundary.next ≠ m.scanner.current.offset ∧
        t.textThrough t.current boundary = "12x" ∧ m.scanner.rest = "x" := by
  intro t es
  have came : (t.expect es).map (fun m => (m.result.toOption, m.scanner)) =
      some (some ⟨⟨1, 3, 3, 3⟩, some 'x', 2⟩,
        ⟨.ofString "12x", ⟨⟨1, 3, 3, 3⟩, some 'x', 2⟩, none, none⟩) := by decide
  obtain ⟨m, finished, succeeded, left⟩ := expect_of_map came
  refine ⟨.first (by decide), by decide, m, _, finished, succeeded, ?_⟩
  rw [left]
  exact ⟨by decide, by decide, by decide +kernel, by decide +kernel⟩

end Scanner
end TextMatch
