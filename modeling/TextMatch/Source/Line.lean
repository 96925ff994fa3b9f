import TextMatch.Source.Basic

/-!
# Lines of a source

The bounds of the line that holds a byte. A newline belongs to the line it ends, and the bounds
leave it out, together with one carriage return right before the end.
-/
namespace TextMatch.Source

def newline : UInt8 := 0x0A

def carriageReturn : UInt8 := 0x0D

/-- Offset after the last newline before `offset`, or the beginning. -/
def lineStart (s : Source) : Nat → Nat
  | 0 => 0
  | offset + 1 =>
    if Utf8.byte? s.bytes offset = some newline then offset + 1 else s.lineStart offset

/-- Offset of the first newline from `offset` on, or the end of the source. -/
def lineStop (s : Source) (offset : Nat) : Nat :=
  if offset < s.size then
    if Utf8.byte? s.bytes offset = some newline then offset else s.lineStop (offset + 1)
  else s.size
termination_by s.size - offset

/-- First byte of a line, and the offset after its last one. -/
structure Line where
  start : Nat
  stop : Nat
  deriving DecidableEq, Repr

/-- The line that holds the byte at `offset`; past the end, the last line. -/
def lineAt (s : Source) (offset : Nat) : Line :=
  let offset := min offset s.size
  let start := s.lineStart offset
  let stop := s.lineStop offset
  if start < stop && Utf8.byte? s.bytes (stop - 1) == some carriageReturn then ⟨start, stop - 1⟩
  else ⟨start, stop⟩

end TextMatch.Source
