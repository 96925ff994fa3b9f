import TextMatch.Proofs.Position.Counters
import TextMatch.Proofs.Source.Points
import TextMatch.Source.Walk

/-!
# The cursors of a source

A cursor is known by the points that are left to be read from it on. `cursorAt` gives it in
closed form, `cursorAfter_cursorAt` says that a walk over the source goes from one such cursor to
the next, and `visits_iff` that it meets no others. The last point can be stepped over only where
all the bytes are readable, so only then is there a cursor that leaves nothing.
-/
namespace TextMatch

open String (utf8Len)

/-- The cursor between the points `before` and the points `rest`. At the end of data the counters
are those of the last point. -/
def Cursor.between (before rest : List Char) : Cursor :=
  ⟨.after (if rest = [] then before.dropLast else before), rest.head?, utf8Len before⟩

namespace Source

/-- The cursor from which the points `rest` are left to be read. -/
def cursorAt (s : Source) (rest : List Char) : Cursor :=
  .between (s.points.take (s.points.length - rest.length)) rest

/-- There is a cursor of the source from which `rest` is left to be read. -/
structure Leaves (s : Source) (rest : List Char) : Prop where
  suffix : rest <:+ s.points
  nonempty : s.points ≠ []
  readable : rest = [] → s.isReadable = true

/-- The cursor is reached by as many steps from the first point on. -/
inductive Visits (s : Source) : Nat → Cursor → Prop
  | first {c : Cursor} (found : s.firstCursor = .ok c) : Visits s 0 c
  | after {i : Nat} {c d : Cursor} (visited : Visits s i c)
      (stepped : s.cursorAfter c = .ok (some d)) : Visits s (i + 1) d

variable {s : Source} {before rest : List Char}

theorem cursorAt_of_split (split : s.points = before ++ rest) :
    s.cursorAt rest = .between before rest := by
  have front : s.points.take (s.points.length - rest.length) = before := by
    rw [split, List.length_append, Nat.add_sub_cancel]
    exact List.take_left
  rw [cursorAt, front]

@[simp] theorem point_cursorAt (s : Source) (rest : List Char) :
    (s.cursorAt rest).point = rest.head? := rfl

@[simp] theorem isEnd_cursorAt (s : Source) (rest : List Char) :
    (s.cursorAt rest).isEnd = rest.isEmpty := by
  cases rest <;> rfl

theorem offset_cursorAt (split : s.points = before ++ rest) :
    (s.cursorAt rest).offset = utf8Len before := by
  rw [cursorAt_of_split split]
  rfl

theorem next_cursorAt {c : Char} (split : s.points = before ++ c :: rest) :
    (s.cursorAt (c :: rest)).next = utf8Len before + c.utf8Size := by
  rw [Cursor.next_of_point (point_cursorAt s (c :: rest)), offset_cursorAt split]

namespace Leaves

theorem tail {c : Char} (leaves : s.Leaves (c :: rest))
    (readable : rest = [] → s.isReadable = true) : s.Leaves rest :=
  ⟨(List.suffix_cons c rest).trans leaves.suffix, leaves.nonempty, readable⟩

theorem split (leaves : s.Leaves rest) : ∃ before, s.points = before ++ rest := by
  obtain ⟨before, split⟩ := leaves.suffix
  exact ⟨before, split.symm⟩

theorem points (nonempty : s.points ≠ []) : s.Leaves s.points :=
  ⟨List.suffix_rfl, nonempty, fun nothing => absurd nothing nonempty⟩

theorem length_le (leaves : s.Leaves rest) : rest.length ≤ s.points.length :=
  leaves.suffix.length_le

end Leaves

theorem eq_of_isPrefix {short long : List Char} (shorter : short <+: long)
    (sizes : utf8Len short = utf8Len long) : short = long := by
  obtain ⟨more, rfl⟩ := shorter
  have nothing : more = [] := String.utf8Len_eq_zero.mp (by simpa using sizes)
  rw [nothing, List.append_nil]

theorem eq_of_splits {beforeLeft left beforeRight right : List Char}
    (leftSplit : s.points = beforeLeft ++ left) (rightSplit : s.points = beforeRight ++ right)
    (sizes : utf8Len beforeLeft = utf8Len beforeRight) : beforeLeft = beforeRight := by
  rcases List.prefix_or_prefix_of_prefix ⟨left, leftSplit.symm⟩ ⟨right, rightSplit.symm⟩ with
    shorter | shorter
  · exact eq_of_isPrefix shorter sizes
  · exact (eq_of_isPrefix shorter sizes.symm).symm

/-- No two cursors of a source are equal. -/
theorem cursorAt_inj {left right : List Char} (leftLeaves : s.Leaves left)
    (rightLeaves : s.Leaves right) (same : s.cursorAt left = s.cursorAt right) :
    left = right := by
  obtain ⟨beforeLeft, leftSplit⟩ := leftLeaves.split
  obtain ⟨beforeRight, rightSplit⟩ := rightLeaves.split
  have offsets := congrArg Cursor.offset same
  rw [offset_cursorAt leftSplit, offset_cursorAt rightSplit] at offsets
  have front := eq_of_splits leftSplit rightSplit offsets
  rw [leftSplit, front] at rightSplit
  exact List.append_cancel_left rightSplit

/-- No two points of a source end at the same byte. -/
theorem cons_eq_of_next_eq {c d : Char} {left right : List Char}
    (leftLeaves : s.Leaves (c :: left)) (rightLeaves : s.Leaves (d :: right))
    (same : (s.cursorAt (c :: left)).next = (s.cursorAt (d :: right)).next) :
    c :: left = d :: right := by
  obtain ⟨beforeLeft, leftSplit⟩ := leftLeaves.split
  obtain ⟨beforeRight, rightSplit⟩ := rightLeaves.split
  rw [next_cursorAt leftSplit, next_cursorAt rightSplit] at same
  have leftOnward : s.points = (beforeLeft ++ [c]) ++ left := by rw [leftSplit]; simp
  have rightOnward : s.points = (beforeRight ++ [d]) ++ right := by rw [rightSplit]; simp
  have front := eq_of_splits leftOnward rightOnward (by simpa using same)
  obtain ⟨before, last⟩ := List.append_inj' front rfl
  rw [leftSplit, before] at rightSplit
  exact List.append_cancel_left rightSplit

/-- Of two cursors, the one with the greater offset leaves fewer points. -/
theorem offset_cursorAt_lt_iff {left right : List Char} (leftLeaves : s.Leaves left)
    (rightLeaves : s.Leaves right) :
    (s.cursorAt left).offset < (s.cursorAt right).offset ↔ right.length < left.length := by
  obtain ⟨beforeLeft, leftSplit⟩ := leftLeaves.split
  obtain ⟨beforeRight, rightSplit⟩ := rightLeaves.split
  have counts := congrArg List.length (leftSplit.symm.trans rightSplit)
  rw [List.length_append, List.length_append] at counts
  rw [offset_cursorAt leftSplit, offset_cursorAt rightSplit]
  rcases List.prefix_or_prefix_of_prefix ⟨left, leftSplit.symm⟩ ⟨right, rightSplit.symm⟩ with
    ⟨between, rfl⟩ | ⟨between, rfl⟩
  · have wide := length_le_utf8Len between
    rw [List.length_append] at counts
    cases between with
    | nil => simpa using counts.le
    | cons c between =>
      rw [List.length_cons] at wide counts
      rw [String.utf8Len_append]
      exact iff_of_true (by omega) (by omega)
  · rw [List.length_append] at counts
    rw [String.utf8Len_append]
    exact iff_of_false (by omega) (by omega)

/-- The offset of a cursor does not fall as the points left become fewer. -/
theorem offset_cursorAt_le {short long : List Char} (shorter : short <:+ long)
    (inside : long <:+ s.points) : (s.cursorAt long).offset ≤ (s.cursorAt short).offset := by
  obtain ⟨between, rfl⟩ := shorter
  obtain ⟨before, split⟩ := inside
  have splitToo : s.points = (before ++ between) ++ short := by
    rw [← split, List.append_assoc]
  rw [offset_cursorAt split.symm, offset_cursorAt splitToo, String.utf8Len_append]
  exact Nat.le_add_right _ _

theorem suffix_of_offset_le {left right : List Char} (leftLeaves : s.Leaves left)
    (rightLeaves : s.Leaves right)
    (ordered : (s.cursorAt left).offset ≤ (s.cursorAt right).offset) : right <:+ left := by
  refine List.suffix_of_suffix_length_le rightLeaves.suffix leftLeaves.suffix ?_
  rw [← not_lt, ← offset_cursorAt_lt_iff rightLeaves leftLeaves]
  exact not_lt.mpr ordered

theorem firstCursor_of_nonempty (nonempty : s.points ≠ []) :
    s.firstCursor = .ok (s.cursorAt s.points) := by
  have found := pointAt_after (s := s) (List.nil_append s.points).symm
  rw [String.utf8Len_nil] at found
  obtain ⟨c, rest, points⟩ := List.exists_cons_of_ne_nil nonempty
  rw [points, front] at found
  rw [firstCursor, found, cursorAt_of_split (List.nil_append s.points).symm, points]
  rfl

theorem firstCursor_of_empty (empty : s.points = []) :
    s.firstCursor = .error (if s.isReadable then .emptyInput else .malformed 0) := by
  have found := pointAt_after (s := s) (List.nil_append s.points).symm
  have none : s.readableSize = 0 := by rw [readableSize, empty, String.utf8Len_nil]
  rw [String.utf8Len_nil, empty, front, none] at found
  rw [firstCursor, found]
  cases s.isReadable <;> rfl

theorem firstCursor_eq_ok_iff {c : Cursor} :
    s.firstCursor = .ok c ↔ s.points ≠ [] ∧ c = s.cursorAt s.points := by
  by_cases empty : s.points = []
  · simp [firstCursor_of_empty empty, empty]
  · simp [firstCursor_of_nonempty empty, empty, eq_comm]

/-- A step goes by the width that was decoded with the point. -/
theorem cursorAfter_eq_decodeAt {c : Cursor} {point : Char} {width : Nat}
    (here : c.point = some point) (decoded : s.decodeAt c.offset = .ok (some (point, width))) :
    s.cursorAfter c = (s.decodeAt (c.offset + width)).map fun next =>
      some (next.elim c.endAfter fun found =>
        ⟨c.position.step width (point == '\n'), some found.1, c.offset + width⟩) := by
  obtain rfl := width_of_decodeAt decoded
  rw [cursorAfter, here, Cursor.next_of_point here, pointAt]
  cases s.decodeAt (c.offset + point.utf8Size) with
  | error e => rfl
  | ok next => cases next <;> rfl

/-- The step from one cursor to the next, over the point `c`. -/
theorem cursorAfter_cursorAt {c : Char} (leaves : s.Leaves (c :: rest)) :
    s.cursorAfter (s.cursorAt (c :: rest)) =
      if rest = [] ∧ s.isReadable = false then .error (.malformed s.readableSize)
      else .ok (some (s.cursorAt rest)) := by
  obtain ⟨before, split⟩ := leaves.split
  have onward : s.points = (before ++ [c]) ++ rest := by rw [split]; simp
  have found := pointAt_after onward
  have next : (s.cursorAt (c :: rest)).next = utf8Len (before ++ [c]) := by
    rw [next_cursorAt split]
    simp
  rw [cursorAfter, point_cursorAt, List.head?_cons]
  simp only [next, found]
  cases rest with
  | nil =>
    cases readable : s.isReadable with
    | false => simp [front, readable]
    | true =>
      simp [front, readable, cursorAt_of_split onward, cursorAt_of_split split, Cursor.endAfter,
        Cursor.between, Cursor.next, Cursor.size]
  | cons d rest =>
    simp [front, cursorAt_of_split onward, cursorAt_of_split split, Cursor.between,
      Position.after_concat]

/-- A point ends where the next cursor is. -/
theorem next_eq_offset {c : Char} (leaves : s.Leaves (c :: rest)) :
    (s.cursorAt (c :: rest)).next = (s.cursorAt rest).offset := by
  obtain ⟨before, split⟩ := leaves.split
  have onward : s.points = (before ++ [c]) ++ rest := by rw [split]; simp
  rw [next_cursorAt split, offset_cursorAt onward]
  simp

theorem cursorAfter_cursorAt_nil (s : Source) : s.cursorAfter (s.cursorAt []) = .ok none :=
  s.cursorAfter_end rfl

theorem Visits.leaves {i : Nat} {c : Cursor} (visited : s.Visits i c) :
    ∃ rest, s.Leaves rest ∧ i + rest.length = s.points.length ∧ c = s.cursorAt rest := by
  induction visited with
  | first found =>
    obtain ⟨nonempty, rfl⟩ := firstCursor_eq_ok_iff.mp found
    exact ⟨s.points, .points nonempty, Nat.zero_add _, rfl⟩
  | after _ stepped ih =>
    obtain ⟨rest, leaves, count, rfl⟩ := ih
    cases rest with
    | nil => rw [cursorAfter_cursorAt_nil] at stepped; cases stepped
    | cons d rest =>
      rw [cursorAfter_cursorAt leaves] at stepped
      split at stepped
      · cases stepped
      · next open_ =>
        cases stepped
        have readable : rest = [] → s.isReadable = true := by simpa using open_
        exact ⟨rest, leaves.tail readable, by simp at count; omega, rfl⟩

theorem Leaves.visits (leaves : s.Leaves rest) :
    s.Visits (s.points.length - rest.length) (s.cursorAt rest) := by
  obtain ⟨before, split⟩ := leaves.split
  have count : s.points.length - rest.length = before.length := by simp [split]
  rw [count]
  clear count
  -- from the first point on, one step for each point of `before`
  induction before using List.reverseRecOn generalizing rest with
  | nil =>
    have first : s.points = rest := split
    subst first
    exact .first (firstCursor_of_nonempty leaves.nonempty)
  | append_singleton before c ih =>
    have earlier : s.points = before ++ c :: rest := by rw [split]; simp
    have leavesEarlier : s.Leaves (c :: rest) :=
      ⟨⟨before, earlier.symm⟩, leaves.nonempty, by simp⟩
    rw [List.length_append]
    refine .after (ih leavesEarlier earlier) ?_
    rw [cursorAfter_cursorAt leavesEarlier, if_neg]
    rintro ⟨nothing, unreadable⟩
    rw [leaves.readable nothing] at unreadable
    cases unreadable

/-- The cursor with an index is the one from which the points behind that index are left. -/
theorem Visits.at_index {i : Nat} {c : Cursor} (visited : s.Visits i c) :
    i ≤ s.points.length ∧ s.Leaves (s.points.drop i) ∧ c = s.cursorAt (s.points.drop i) := by
  obtain ⟨rest, leaves, count, current⟩ := visited.leaves
  obtain ⟨before, split⟩ := leaves.split
  have index : i = before.length := by
    rw [split, List.length_append] at count
    omega
  refine ⟨by omega, ?_⟩
  rw [split, index, List.drop_left]
  exact ⟨leaves, current⟩

theorem Visits.point_eq {i : Nat} {c : Cursor} (visited : s.Visits i c) :
    c.point = s.points[i]? := by
  rw [visited.at_index.2.2, point_cursorAt, List.head?_drop]

theorem Visits.offset_eq {i : Nat} {c : Cursor} (visited : s.Visits i c) :
    c.offset = utf8Len (s.points.take i) := by
  rw [visited.at_index.2.2, offset_cursorAt (List.take_append_drop i s.points).symm]

theorem Visits.next_eq {i : Nat} {c : Cursor} (visited : s.Visits i c) :
    c.next = utf8Len (s.points.take (i + 1)) := by
  obtain ⟨_, leaves, rfl⟩ := visited.at_index
  rcases Nat.lt_or_ge i s.points.length with inside | ended
  · rw [List.drop_eq_getElem_cons inside] at leaves ⊢
    rw [next_eq_offset leaves, offset_cursorAt (List.take_append_drop (i + 1) s.points).symm]
  · have nothing : s.points.drop i = [] := List.drop_eq_nil_of_le ended
    have all : s.points.take (i + 1) = s.points := List.take_of_length_le (by omega)
    rw [nothing, Cursor.next_of_end rfl, all,
      offset_cursorAt (List.append_nil s.points).symm]

theorem Visits.offset_lt_iff {p q : Nat} {c d : Cursor} (first : s.Visits p c)
    (second : s.Visits q d) : c.offset < d.offset ↔ p < q := by
  obtain ⟨inside, leaves, rfl⟩ := first.at_index
  obtain ⟨insideToo, leavesToo, rfl⟩ := second.at_index
  rw [offset_cursorAt_lt_iff leaves leavesToo, List.length_drop, List.length_drop]
  omega

/-- The cursors that a walk meets, each after its number of steps. -/
theorem visits_iff {i : Nat} {c : Cursor} :
    s.Visits i c ↔
      ∃ rest, s.Leaves rest ∧ i + rest.length = s.points.length ∧ c = s.cursorAt rest := by
  constructor
  · exact Visits.leaves
  · rintro ⟨rest, leaves, count, rfl⟩
    have index : i = s.points.length - rest.length := by omega
    rw [index]
    exact leaves.visits

end Source
end TextMatch
