import TextMatch.Position
import TextMatch.Text.Quoted

/-!
# Cursors

One place in a source: the point there, the offset of its first byte and its position. The end
of data is a place too. It holds no point and keeps the counters of the last one, so that they
still tell how many points there were. Cursors are plain values and serve as bookmarks.
-/
namespace TextMatch

structure Cursor where
  position : Position
  /-- The point here, `none` at the end of data. -/
  point : Option Char
  offset : Nat
  deriving DecidableEq, Repr

namespace Cursor

/-- Number of bytes of the point, zero at the end of data. -/
def size (c : Cursor) : Nat :=
  match c.point with
  | some point => point.utf8Size
  | none => 0

/-- Offset of the byte after the point. -/
def next (c : Cursor) : Nat := c.offset + c.size

def isEnd (c : Cursor) : Bool := c.point.isNone

def isAt (c : Cursor) (point : Char) : Bool := c.point == some point

/-- The end of data, when `c` holds the last point. -/
def endAfter (c : Cursor) : Cursor := ⟨c.position, none, c.next⟩

/-- Code point, quoted point and position, then the number of the point and of its first byte,
both counted from one. -/
def render (c : Cursor) : String :=
  match c.point with
  | none => "<EOD>"
  | some point =>
    Text.codePoint point ++ " " ++ Text.quoteChar point ++ " " ++ c.position.render ++
      " (" ++ toString c.position.point ++ "-" ++ toString (c.offset + 1) ++ ")"

instance : ToString Cursor := ⟨render⟩

@[simp] theorem next_of_end {c : Cursor} (ended : c.point = none) : c.next = c.offset := by
  simp [next, size, ended]

theorem next_of_point {c : Cursor} {point : Char} (here : c.point = some point) :
    c.next = c.offset + point.utf8Size := by
  simp [next, size, here]

theorem offset_le_next (c : Cursor) : c.offset ≤ c.next := Nat.le_add_right _ _

@[simp] theorem isEnd_endAfter (c : Cursor) : c.endAfter.isEnd = true := rfl

@[simp] theorem next_endAfter (c : Cursor) : c.endAfter.next = c.next := rfl

end Cursor
end TextMatch
