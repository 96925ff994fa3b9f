import TextMatch.Source.Walk

/-!
# Scanners

A source, the cursor at the next point to be read, the cursor before the last advance (if the
scanner advanced and has not jumped since), and one slot for a bookmark.
-/
namespace TextMatch

structure Scanner where
  source : Source
  current : Cursor
  previous : Option Cursor
  bookmark : Option Cursor
  deriving DecidableEq

namespace Scanner

/-- A scanner at the first point of `source`. -/
def ofSource (source : Source) : Except ScanError Scanner :=
  match source.firstCursor with
  | .error e => .error e
  | .ok first => .ok ⟨source, first, none, none⟩

def atEnd (s : Scanner) : Bool := s.current.isEnd

/-- To `c`, one point further. -/
def moveTo (s : Scanner) (c : Cursor) : Scanner :=
  { s with current := c, previous := some s.current }

/-- Accept the current point. At the end of data nothing changes. -/
def advance (s : Scanner) : Except ScanError Scanner :=
  match s.source.cursorAfter s.current with
  | .error e => .error e
  | .ok none => .ok s
  | .ok (some c) => .ok (s.moveTo c)

/-- Advance `n` times; a failure leaves the scanner where the failing advance found it. -/
def advanceBy : Nat → Scanner → Except ScanError Unit × Scanner
  | 0, s => (.ok (), s)
  | n + 1, s =>
    match s.source.cursorAfter s.current with
    | .error e => (.error e, s)
    | .ok none => (.ok (), s)
    | .ok (some c) => advanceBy n (s.moveTo c)

/-- To any cursor of the same source. -/
def jump (s : Scanner) (c : Cursor) : Scanner := { s with current := c, previous := none }

/-- Put the current cursor into the bookmark slot. -/
def setBookmark (s : Scanner) : Scanner := { s with bookmark := some s.current }

/-- Jump to the bookmark and empty the slot; `false` if the slot was empty. -/
def returnToBookmark (s : Scanner) : Bool × Scanner :=
  match s.bookmark with
  | none => (false, s)
  | some c => (true, { s.jump c with bookmark := none })

/-- The text of the next `n` points, or of fewer where the points end. A point is as wide as it was
when it was decoded (`skip_of_decodeAt`). -/
def peek (s : Scanner) (n : Nat) : String :=
  s.source.text s.current.offset (skip s.source n s.current.offset)
where
  skip (source : Source) : Nat → Nat → Nat
    | 0, offset => offset
    | n + 1, offset =>
      match source.pointAt offset with
      | .ok (some point) => skip source n (offset + point.utf8Size)
      | _ => offset

/-- The text from the point at `first` through the point at `last`. -/
def textThrough (s : Scanner) (first last : Cursor) : String :=
  s.source.text first.offset last.next

/-- The text between the current point and the one at `c`, both included, whichever is first. -/
def textTo (s : Scanner) (c : Cursor) : String :=
  if c.offset < s.current.offset then s.textThrough c s.current else s.textThrough s.current c

/-- The text from the current point to the end of the source. -/
def rest (s : Scanner) : String := s.source.text s.current.offset s.source.size

instance : ToString Scanner := ⟨fun s => s.current.render⟩

@[simp] theorem current_jump (s : Scanner) (c : Cursor) : (s.jump c).current = c := rfl

@[simp] theorem previous_jump (s : Scanner) (c : Cursor) : (s.jump c).previous = none := rfl

@[simp] theorem source_jump (s : Scanner) (c : Cursor) : (s.jump c).source = s.source := rfl

@[simp] theorem bookmark_jump (s : Scanner) (c : Cursor) : (s.jump c).bookmark = s.bookmark := rfl

@[simp] theorem current_moveTo (s : Scanner) (c : Cursor) : (s.moveTo c).current = c := rfl

@[simp] theorem previous_moveTo (s : Scanner) (c : Cursor) :
    (s.moveTo c).previous = some s.current := rfl

@[simp] theorem source_moveTo (s : Scanner) (c : Cursor) : (s.moveTo c).source = s.source := rfl

@[simp] theorem bookmark_moveTo (s : Scanner) (c : Cursor) :
    (s.moveTo c).bookmark = s.bookmark := rfl

theorem advance_end {s : Scanner} (ended : s.current.point = none) : s.advance = .ok s := by
  simp [advance, s.source.cursorAfter_end ended]

end Scanner
end TextMatch
