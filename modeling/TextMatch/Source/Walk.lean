import TextMatch.Cursor
import TextMatch.Source.Basic

/-!
# Walking over a source

The cursor of a source's first point, and the cursor one point further. Each step to a further
cursor shortens the `distance` to the end of data, so every walk over a source ends.
-/
namespace TextMatch.Source

def firstCursor (s : Source) : Except ScanError Cursor :=
  match s.pointAt 0 with
  | .error e => .error e
  | .ok none => .error .emptyInput
  | .ok (some point) => .ok ⟨.start, some point, 0⟩

/-- The cursor one point past `c`, or `none` if `c` is the end of data already. The point after
has to be decoded first: where it is malformed, there is no stepping over the one before. A point
is as wide as it was when it was decoded (`cursorAfter_eq_decodeAt`). -/
def cursorAfter (s : Source) (c : Cursor) : Except ScanError (Option Cursor) :=
  match c.point with
  | none => .ok none
  | some here =>
    match s.pointAt c.next with
    | .error e => .error e
    | .ok none => .ok (some c.endAfter)
    | .ok (some point) =>
      .ok (some ⟨c.position.step here.utf8Size (here == '\n'), some point, c.next⟩)

/-- More than the number of points from `c` on; nothing at the end of data. -/
def distance (s : Source) (c : Cursor) : Nat :=
  match c.point with
  | none => 0
  | some _ => s.size - c.offset + 1

theorem cursorAfter_end (s : Source) {c : Cursor} (ended : c.point = none) :
    s.cursorAfter c = .ok none := by
  simp [cursorAfter, ended]

theorem isEnd_of_cursorAfter {s : Source} {c : Cursor} (stuck : s.cursorAfter c = .ok none) :
    c.isEnd = true := by
  unfold cursorAfter at stuck
  split at stuck
  · next ended => simp [Cursor.isEnd, ended]
  · split at stuck <;> cases stuck

theorem offset_of_cursorAfter {s : Source} {c d : Cursor}
    (stepped : s.cursorAfter c = .ok (some d)) : d.offset = c.next := by
  unfold cursorAfter at stepped
  split at stepped
  · cases stepped
  · split at stepped
    · cases stepped
    · cases stepped
      rfl
    · cases stepped
      rfl

theorem distance_cursorAfter_lt {s : Source} {c d : Cursor}
    (stepped : s.cursorAfter c = .ok (some d)) : s.distance d < s.distance c := by
  unfold cursorAfter at stepped
  split at stepped
  · cases stepped
  · rename_i here pointHere
    split at stepped
    · cases stepped
    · cases stepped
      simp [distance, pointHere, Cursor.endAfter]
    · rename_i point decoded
      cases stepped
      have inside := lt_size_of_pointAt decoded
      have wide := here.utf8Size_pos
      rw [Cursor.next_of_point pointHere] at inside
      simp only [distance, pointHere, Cursor.next_of_point pointHere]
      omega

end TextMatch.Source
