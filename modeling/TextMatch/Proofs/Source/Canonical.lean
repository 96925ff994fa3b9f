import TextMatch.Proofs.Source.Cursors

/-!
# Canonical cursors

The cursors that a walk over the source meets, and what this makes of their parts: what is decoded
there, how the four counters follow from the points in front, and how the end of data differs from
every other place. `Visited.canonical` derives all of it from the walk.
-/
namespace TextMatch

open String (utf8Len)

namespace Source

/-- The cursor is reached by some number of steps from the first point on. -/
def Visited (s : Source) (c : Cursor) : Prop := ∃ i, s.Visits i c

/-- A cursor that the walk over `s` meets, and what its parts are for that. -/
structure Canonical (s : Source) (c : Cursor) : Prop where
  visited : s.Visited c
  /-- The point and the number of its bytes are what is decoded there. -/
  decoded : ∀ p, c.point = some p →
    s.decodeAt c.offset = .ok (some (p, c.size)) ∧ c.next = c.offset + c.size ∧ c.next ≤ s.size
  /-- The counters, from the points whose encoding is in front. -/
  counted : ∀ p, c.point = some p → ∃ before : List Char,
    s.bytes.extract 0 c.offset = before.utf8Encode ∧ s.Visits before.length c ∧
      c.position = ⟨before.count '\n' + 1, (Position.openLine before).length + 1,
        utf8Len (Position.openLine before) + 1, before.length + 1⟩
  ended : c.point = none →
    c.offset = s.size ∧ c.next = s.size ∧ c.size = 0 ∧
      ∃ last, s.Visited last ∧ last.point ≠ none ∧ last.next = s.size ∧
        c.position = last.position
  /-- The end of data is where nothing is left to decode, and each of these tells it. -/
  point_eq_none_iff : c.point = none ↔ s.decodeAt c.offset = .ok none
  isEnd_iff : c.isEnd = true ↔ s.decodeAt c.offset = .ok none
  size_eq_zero_iff : c.size = 0 ↔ s.decodeAt c.offset = .ok none

variable {s : Source} {c : Char} {rest : List Char}

theorem Leaves.pointAt_offset (leaves : s.Leaves (c :: rest)) :
    s.pointAt (s.cursorAt (c :: rest)).offset = .ok (some c) := by
  obtain ⟨before, split⟩ := leaves.split
  rw [offset_cursorAt split, pointAt_after split, front]

theorem Leaves.next_le_size (leaves : s.Leaves (c :: rest)) :
    (s.cursorAt (c :: rest)).next ≤ s.size := by
  obtain ⟨before, split⟩ := leaves.split
  have onward : s.points = (before ++ [c]) ++ rest := by rw [split]; simp
  calc
    (s.cursorAt (c :: rest)).next = utf8Len (before ++ [c]) := by rw [next_cursorAt split]; simp
    _ ≤ s.readableSize := utf8Len_le_readableSize onward
    _ ≤ s.size := s.readableSize_le_size

theorem position_cursorAt {before : List Char} (split : s.points = before ++ c :: rest) :
    (s.cursorAt (c :: rest)).position =
      ⟨before.count '\n' + 1, (Position.openLine before).length + 1,
        utf8Len (Position.openLine before) + 1, before.length + 1⟩ := by
  rw [cursorAt_of_split split, Cursor.between, if_neg (List.cons_ne_nil c rest),
    Position.after_eq]

theorem Leaves.counters (leaves : s.Leaves (c :: rest)) : ∃ before : List Char,
    s.bytes.extract 0 (s.cursorAt (c :: rest)).offset = before.utf8Encode ∧
      s.Visits before.length (s.cursorAt (c :: rest)) ∧
      (s.cursorAt (c :: rest)).position =
        ⟨before.count '\n' + 1, (Position.openLine before).length + 1,
          utf8Len (Position.openLine before) + 1, before.length + 1⟩ := by
  obtain ⟨before, split⟩ := leaves.split
  refine ⟨before, ?_, ?_, position_cursorAt split⟩
  · rw [offset_cursorAt split, extract_zero_utf8Len split]
  · have index : s.points.length - (c :: rest).length = before.length := by simp [split]
    exact index ▸ leaves.visits

/-- The end of data lies after the last point and keeps its counters. -/
theorem Leaves.last (leaves : s.Leaves []) :
    (s.cursorAt []).offset = s.size ∧ ∃ c, s.Leaves [c] ∧ (s.cursorAt [c]).next = s.size ∧
      (s.cursorAt []).position = (s.cursorAt [c]).position := by
  have whole : utf8Len s.points = s.size := by
    simpa [isReadable, readableSize] using leaves.readable rfl
  obtain ⟨before, c, split⟩ : ∃ before c, s.points = before ++ [c] := by
    simpa [leaves.nonempty] using List.eq_nil_or_concat s.points
  have all : s.points = (before ++ [c]) ++ [] := by rw [split, List.append_nil]
  refine ⟨?_, c, ⟨⟨before, split.symm⟩, leaves.nonempty, by simp⟩, ?_, ?_⟩
  · rw [offset_cursorAt all, ← split, whole]
  · rw [next_cursorAt split, ← whole, split]
    simp
  · rw [cursorAt_of_split all, cursorAt_of_split split]
    simp [Cursor.between]

theorem Leaves.decodeAt_offset (leaves : s.Leaves (c :: rest)) :
    s.decodeAt (s.cursorAt (c :: rest)).offset =
      .ok (some (c, (s.cursorAt (c :: rest)).size)) :=
  decodeAt_of_pointAt leaves.pointAt_offset

theorem Visited.canonical {c : Cursor} (visited : s.Visited c) : s.Canonical c := by
  obtain ⟨i, atIndex⟩ := visited
  obtain ⟨rest, leaves, -, rfl⟩ := atIndex.leaves
  cases rest with
  | nil =>
    obtain ⟨offset, last, lastLeaves, next, position⟩ := leaves.last
    have ended : s.decodeAt (s.cursorAt []).offset = .ok none := decodeAt_eq_none_iff.mpr offset.ge
    exact
      { visited := ⟨i, atIndex⟩
        decoded := fun p here => by cases here
        counted := fun p here => by cases here
        ended := fun nothing =>
          ⟨offset, by rw [Cursor.next_of_end nothing, offset], rfl, _, ⟨_, lastLeaves.visits⟩,
            by simp, next, position⟩
        point_eq_none_iff := iff_of_true rfl ended
        isEnd_iff := iff_of_true rfl ended
        size_eq_zero_iff := iff_of_true rfl ended }
  | cons d rest =>
    have found := leaves.decodeAt_offset
    have left : s.decodeAt (s.cursorAt (d :: rest)).offset ≠ .ok none := by
      rw [found]
      nofun
    exact
      { visited := ⟨i, atIndex⟩
        decoded := fun p here => by
          cases here
          exact ⟨found, rfl, leaves.next_le_size⟩
        counted := fun p here => leaves.counters
        ended := fun nothing => by cases nothing
        point_eq_none_iff := iff_of_false (by simp) left
        isEnd_iff := iff_of_false (by simp) left
        size_eq_zero_iff := iff_of_false d.utf8Size_pos.ne' left }

end Source

end TextMatch
