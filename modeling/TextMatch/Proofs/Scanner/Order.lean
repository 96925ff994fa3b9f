import TextMatch.Proofs.Position.Order
import TextMatch.Proofs.Scanner.Reach

/-!
# Cursors in the order of their positions

Offsets, positions and numbers of points put the cursors of a source in one and the same order,
that in which they are read, and a position belongs to one point only. The end of data shares the
position of the last point, so an advance may leave the position as it is but never lowers it.
-/
namespace TextMatch

namespace Source

variable {s : Source} {p q i : Nat} {a b c d e : Cursor}

theorem Visits.lt_length (visited : s.Visits i c) (isPoint : c.isEnd = false) :
    i < s.points.length := by
  have found := visited.point_eq
  rw [Cursor.isEnd, Option.isNone_eq_false_iff, found, isSome_getElem?] at isPoint
  exact isPoint

theorem Visits.position_eq (visited : s.Visits i c) (isPoint : c.isEnd = false) :
    c.position = .after (s.points.take i) := by
  have some_left : s.points.drop i ≠ [] := by
    rw [Ne, List.drop_eq_nil_iff, not_le]
    exact visited.lt_length isPoint
  rw [visited.at_index.2.2, cursorAt_of_split (List.take_append_drop i s.points).symm,
    Cursor.between, if_neg some_left]

/-- Points are numbered from one. -/
theorem Visits.point_position (visited : s.Visits i c) (isPoint : c.isEnd = false) :
    c.position.point = i + 1 := by
  have inside := visited.lt_length isPoint
  rw [visited.position_eq isPoint, Position.after_eq]
  simp only [List.length_take, Nat.min_eq_left inside.le]

theorem Visits.position_lt_iff (first : s.Visits p a) (second : s.Visits q b)
    (firstPoint : a.isEnd = false) (secondPoint : b.isEnd = false) :
    a.position < b.position ↔ p < q := by
  have firstInside := first.lt_length firstPoint
  have secondInside := second.lt_length secondPoint
  rw [first.position_eq firstPoint, second.position_eq secondPoint]
  rcases Nat.lt_trichotomy p q with before | rfl | behind
  · exact iff_of_true (Position.after_take_lt before firstInside) before
  · exact iff_of_false (Position.lt_irrefl _) (Nat.lt_irrefl p)
  · have reversed := Position.after_take_lt behind secondInside
    exact iff_of_false (fun below => Position.lt_irrefl _ (Position.lt_trans below reversed))
      behind.asymm

theorem isEnd_of_cursorAfter_some (stepped : s.cursorAfter c = .ok (some d)) :
    c.isEnd = false := by
  cases point : c.point with
  | none =>
    rw [s.cursorAfter_end point] at stepped
    cases stepped
  | some here => rw [Cursor.isEnd, point, Option.isNone_some]

/-- A step to the end of data keeps the position, and every other step raises it. -/
theorem position_cursorAfter (stepped : s.cursorAfter c = .ok (some d)) :
    if d.isEnd then d.position = c.position else c.position < d.position := by
  unfold cursorAfter at stepped
  split at stepped
  · cases stepped
  · split at stepped
    · cases stepped
    · cases stepped
      rfl
    · cases stepped
      exact Position.lt_step _ _ _

theorem position_cursorAfter_le (stepped : s.cursorAfter c = .ok (some d)) :
    c.position ≤ d.position := by
  have step := position_cursorAfter stepped
  rw [Position.le_iff_lt_or_eq]
  split at step
  · exact .inr step.symm
  · exact .inl step

/-- Before the end of data there is a last point. -/
theorem Visits.exists_last (visited : s.Visits i e) (ended : e.isEnd = true) :
    ∃ last, s.Visited last ∧ s.cursorAfter last = .ok (some e) := by
  cases visited with
  | first found =>
    obtain ⟨nonempty, rfl⟩ := firstCursor_eq_ok_iff.mp found
    rw [isEnd_cursorAt, List.isEmpty_iff] at ended
    exact absurd ended nonempty
  | after visited stepped => exact ⟨_, ⟨_, visited⟩, stepped⟩

end Source

namespace Scanner

variable {source : Source} {first t u : Scanner} {c : Cursor}

theorem position_advance_le (advanced : t.advance = .ok u) :
    t.current.position ≤ u.current.position := by
  unfold advance at advanced
  split at advanced
  · cases advanced
  · cases advanced
    exact Position.le_refl _
  · next stepped =>
    cases advanced
    exact Source.position_cursorAfter_le stepped

theorem position_advanceBy_le (t : Scanner) (n : Nat) :
    t.current.position ≤ (t.advanceBy n).2.current.position := by
  induction n generalizing t with
  | zero => exact Position.le_refl _
  | succ n ih =>
    rw [advanceBy_succ]
    cases advanced : t.advance with
    | error e => exact Position.le_refl _
    | ok u => exact Position.le_trans (position_advance_le advanced) (ih u)

/-- What has been reached over a source is in the order of its positions. -/
theorem positions_in_reading_order (made : ofSource source = .ok first) :
    (∀ a b, first.Gives a → first.Gives b → a.isEnd = false → b.isEnd = false →
      (a.offset < b.offset ↔ a.position < b.position) ∧
        (a.position < b.position ↔ a.position.point < b.position.point) ∧
        (a.position = b.position → a = b)) ∧
      (∀ e, first.Gives e → e.isEnd = true →
        ∃ last, first.Gives last ∧ last.isEnd = false ∧
          source.cursorAfter last = .ok (some e) ∧ e.position = last.position) ∧
      ∀ (t : Scanner) n, t.current.position ≤ (t.advanceBy n).2.current.position := by
  have start := canonical_ofSource made
  refine ⟨fun a b givenA givenB pointA pointB => ?_, fun e given ended => ?_,
    position_advanceBy_le⟩
  · obtain ⟨p, visitsA⟩ := givenA.visited start
    obtain ⟨q, visitsB⟩ := givenB.visited start
    have numberA := visitsA.point_position pointA
    have numberB := visitsB.point_position pointB
    rw [visitsA.offset_lt_iff visitsB, visitsA.position_lt_iff visitsB pointA pointB]
    refine ⟨Iff.rfl, by omega, fun same => ?_⟩
    have index : p = q := by
      have number := congrArg Position.point same
      omega
    subst index
    exact visitsA.at_index.2.2.trans visitsB.at_index.2.2.symm
  · obtain ⟨i, visits⟩ := given.visited start
    obtain ⟨last, visited, stepped⟩ := visits.exists_last ended
    have reads := start.source_eq
    obtain ⟨t, reached, _, rfl⟩ := reaches_of_visited (reads.symm ▸ visited)
    have kept := Source.position_cursorAfter stepped
    rw [if_pos ended] at kept
    exact ⟨t.current, .current reached, Source.isEnd_of_cursorAfter_some stepped, stepped, kept⟩

/-- Two points with a newline between them, so that the counters within the line fall, and the end
of data behind the second. -/
theorem positions_across_newline :
    let source := Source.ofString "aé\nb"
    let first : Scanner := ⟨source, ⟨.start, some 'a', 0⟩, none, none⟩
    let a : Cursor := ⟨⟨1, 2, 2, 2⟩, some 'é', 1⟩
    let b : Cursor := ⟨⟨2, 1, 1, 4⟩, some 'b', 4⟩
    let e : Cursor := ⟨⟨2, 1, 1, 4⟩, none, 5⟩
    ofSource source = .ok first ∧ first.Gives a ∧ first.Gives b ∧ first.Gives e ∧
      ((a.offset < b.offset ↔ a.position < b.position) ∧
        (a.position < b.position ↔ a.position.point < b.position.point) ∧
        (a.position = b.position → a = b)) ∧
      (∃ last, first.Gives last ∧ last.isEnd = false ∧
        source.cursorAfter last = .ok (some e) ∧ e.position = last.position) ∧
      first.current.position ≤ (first.advanceBy 9).2.current.position := by
  intro source first a b e
  have made : ofSource source = .ok first := by decide
  have given : ∀ n c, (first.advanceBy n).2.current = c → first.Gives c := fun n c arrived =>
    arrived ▸ .current (.advanceBy n .origin)
  have givenA := given 1 a (by decide)
  have givenB := given 3 b (by decide)
  have givenE := given 4 e (by decide)
  obtain ⟨ordered, ends, rises⟩ := positions_in_reading_order made
  exact ⟨made, givenA, givenB, givenE, ordered a b givenA givenB rfl rfl, ends e givenE rfl,
    rises first 9⟩

end Scanner
end TextMatch
