import TextMatch.MatchError.Report
import TextMatch.Proofs.Position.Limit
import TextMatch.Proofs.Source.Canonical
import TextMatch.Proofs.Source.Lossy
import TextMatch.Proofs.Source.OpenLine

/-!
# Where a report points

The number of the shown line is a counter of the cursor, while the line and the place of the caret
are searched for in the bytes. `render_points_at` says that they belong together: the line holds the
point of the cursor, at the end of data the last point, and its number counts the newlines in front
of this same line. Counters of 32 bits get so far on every source of fewer than 2^32 bytes, and on
one of 2^32 newlines they do not (`newlines_exceed_counters`).
-/
namespace TextMatch

open String (utf8Len)
open Position (openLine)

namespace Source

variable {s : Source} {c : Cursor} {d : Char} {before rest : List Char} {start stop : Nat}

/-- The bytes from `start` to `stop` are the line of `p`, which is the point at `c` or, at the end
of data, the last point. A newline is on the line that it ends. -/
structure LineAround (s : Source) (c p : Cursor) (start stop : Nat) : Prop where
  visited : s.Visited p
  point : p.point ≠ none
  position : c.position = p.position
  place : p = c ∨ c.point = none ∧ p.next = s.size
  segment : s.Segment start stop
  after : start ≤ p.offset
  before : p.offset ≤ stop
  numbered : c.position.line = s.newlinesBefore start + 1

/-- The line of a point is that of any cursor with its counters. -/
theorem PointLine.around (line : s.PointLine before d start stop) (leaves : s.Leaves (d :: rest))
    (split : s.points = before ++ d :: rest)
    (place : s.cursorAt (d :: rest) = c ∨
      c.point = none ∧ (s.cursorAt (d :: rest)).next = s.size)
    (position : c.position = (s.cursorAt (d :: rest)).position) :
    s.LineAround c (s.cursorAt (d :: rest)) start stop where
  visited := ⟨_, leaves.visits⟩
  point := by simp
  position := position
  place := place
  segment := line.segment
  after := (offset_cursorAt split).symm ▸ line.after
  before := (offset_cursorAt split).symm ▸ line.reaches
  numbered := by rw [position, position_cursorAt split, line.numbered]

/-- Counters of 32 bits come to those of `p` over the points in front of it. -/
def Counts (s : Source) (p : Cursor) : Prop :=
  ∃ before : List Char, s.bytes.extract 0 p.offset = before.utf8Encode ∧
    Position.after? before = some p.position

theorem Visited.counts {p : Cursor} (visited : s.Visited p) (isPoint : p.point ≠ none)
    (small : s.size < UInt32.size) : s.Counts p := by
  obtain ⟨here, found⟩ := Option.ne_none_iff_exists'.mp isPoint
  obtain ⟨decoded, next, inside⟩ := visited.canonical.decoded here found
  obtain ⟨before, encoded, _, position⟩ := visited.canonical.counted here found
  have wide := width_of_decodeAt decoded
  have narrow := here.utf8Size_pos
  have length : utf8Len before = p.offset := by
    have sizes := congrArg ByteArray.size encoded
    rw [Utf8.size_utf8Encode, ByteArray.size_extract] at sizes
    unfold size at inside
    omega
  refine ⟨before, encoded, ?_⟩
  rw [position, ← Position.after_eq]
  exact Position.after?_eq_some (by omega)

theorem Counts.eq_after {p : Cursor} (counts : s.Counts p)
    (encoded : s.bytes.extract 0 p.offset = before.utf8Encode) :
    Position.after? before = some p.position := by
  obtain ⟨front, encodedToo, counted⟩ := counts
  have same : front = before := by
    rw [encoded, ← String.toByteArray_ofList, ← String.toByteArray_ofList,
      String.toByteArray_inj] at encodedToo
    exact (String.ofList_inj.mp encodedToo).symm
  rwa [← same]

end Source

namespace MatchError

variable {s : Source} {c : Cursor} {e : MatchError} {d : Char} {rest : List Char}

/-- The shown line behind its number, and under it the caret. So many spaces are in front of the
caret, behind a gutter as wide as the number. -/
def framed (number : Nat) (shown : List Char) (column : Nat) : String :=
  "\n " ++ toString number ++ " | " ++ String.ofList shown ++
    "\n " ++ String.ofList (List.replicate (toString number).length ' ') ++ " | " ++
      String.ofList (List.replicate column ' ') ++ "^"

/-- Number of characters of the shown line that are in front of the caret. -/
def caretColumn (c : Cursor) (shown : List Char) : Nat :=
  if c.point = none then shown.length else min (c.position.linePoint - 1) shown.length

/-- What was asked for, or who refused, without the place. -/
def complaint : MatchError → String
  | .unmet expr _ => expr.demand
  | .refused name _ => "hook " ++ Text.quote name ++ " failed"
  | .defective kind defect => message (.defective kind defect)
  | .unreadable error => message (.unreadable error)

/-- The place, or at the end of data the number of points in the whole source. -/
def placeNote (s : Source) (c : Cursor) : String :=
  if c.point = none then
    ", exceeded data length (" ++ toString s.points.length ++
      (if s.points.length = 1 then " rune)" else " runes)")
  else " at " ++ c.render

theorem message_eq (stopped : e.cursor? = some c) : e.message = e.complaint ++ c.whereabouts := by
  cases e with
  | unmet expr cursor =>
    cases stopped
    rfl
  | refused name cursor =>
    cases stopped
    rfl
  | defective kind defect => cases stopped
  | unreadable error => cases stopped

theorem render_eq (stopped : e.cursor? = some c) : e.render s = e.message ++ excerpt s c := by
  rw [render, stopped]

/-- The byte whose line is shown. -/
def shownByte (c : Cursor) : Nat := if c.isEnd then c.offset - 1 else c.offset

theorem excerpt_of_lineAt {line : Source.Line} (found : s.lineAt (shownByte c) = line) :
    excerpt s c = framed c.position.line (s.text line.start line.stop).toList
      (s.text line.start (min c.offset line.stop)).length := by
  subst found
  rw [framed, String.ofList_toList]
  rfl

/-- What the excerpt shows, and what that has to do with the cursor. -/
def ShowsPlace (s : Source) (c : Cursor) : Prop :=
  ∃ p start stop, s.LineAround c p start stop ∧
    let shown := (s.text start (s.dropReturn start stop)).toList
    excerpt s c = framed c.position.line shown (caretColumn c shown)

theorem showsPlace_cons (leaves : s.Leaves (d :: rest)) :
    ShowsPlace s (s.cursorAt (d :: rest)) := by
  obtain ⟨before, split⟩ := leaves.split
  have offset := Source.offset_cursorAt split
  obtain ⟨start, stop, line⟩ :=
    Source.exists_pointLine (split.trans (List.append_cons before d rest))
  have byte : shownByte (s.cursorAt (d :: rest)) = utf8Len before := by
    rw [shownByte, Source.isEnd_cursorAt, offset]
    rfl
  have found : s.lineAt (shownByte (s.cursorAt (d :: rest))) =
      ⟨start, s.dropReturn start stop⟩ := by
    rw [byte]
    exact line.segment.lineAt_eq line.after line.reaches
  have caret : ∀ shown, caretColumn (s.cursorAt (d :: rest)) shown =
      min (openLine before).length shown.length := by
    intro shown
    rw [caretColumn, if_neg (by simp), Source.position_cursorAt split]
    rfl
  refine ⟨_, start, stop, line.around leaves split (.inl rfl) rfl, ?_⟩
  dsimp only
  rw [excerpt_of_lineAt found, offset, line.column, caret, String.length_toList]

/-- The byte before the end of data belongs to the last point. -/
theorem showsPlace_nil (leaves : s.Leaves []) : ShowsPlace s (s.cursorAt []) := by
  obtain ⟨offset, d, lastLeaves, next, position⟩ := leaves.last
  obtain ⟨before, split⟩ := lastLeaves.split
  have apart : s.points = before ++ [d] ++ [] := by rw [split, List.append_nil]
  obtain ⟨start, stop, line⟩ := Source.exists_pointLine apart
  have whole : utf8Len (before ++ [d]) = s.size := by
    rw [← next, Source.next_cursorAt split]
    simp
  have wide : utf8Len before < utf8Len (before ++ [d]) := by simp [d.utf8Size_pos]
  have after := line.after
  have byte : shownByte (s.cursorAt []) = s.size - 1 := by
    rw [shownByte, Source.isEnd_cursorAt, offset]
    rfl
  have found : s.lineAt (shownByte (s.cursorAt [])) = ⟨start, s.dropReturn start stop⟩ := by
    rw [byte]
    exact line.segment.lineAt_eq (by omega) (line.holds _ (by omega) (by omega))
  have ended : min s.size (s.dropReturn start stop) = s.dropReturn start stop :=
    Nat.min_eq_right ((s.dropReturn_le start stop).trans line.segment.inside)
  refine ⟨_, start, stop, line.around lastLeaves split (.inr ⟨rfl, next⟩) position, ?_⟩
  rw [excerpt_of_lineAt found, offset, ended]
  rfl

theorem showsPlace (visited : s.Visited c) : ShowsPlace s c := by
  obtain ⟨i, atIndex⟩ := visited
  obtain ⟨rest, leaves, -, rfl⟩ := atIndex.leaves
  cases rest with
  | nil => exact showsPlace_nil leaves
  | cons d rest => exact showsPlace_cons leaves

/-- The counter that the end of data keeps counts all the points. -/
theorem whereabouts_eq (visited : s.Visited c) : c.whereabouts = placeNote s c := by
  obtain ⟨i, atIndex⟩ := visited
  obtain ⟨rest, leaves, -, rfl⟩ := atIndex.leaves
  cases rest with
  | nil =>
    obtain ⟨-, d, lastLeaves, -, position⟩ := leaves.last
    obtain ⟨before, split⟩ := lastLeaves.split
    have counters := position.trans (Source.position_cursorAt split)
    have all : before.length + 1 = s.points.length := by simp [split]
    rw [Cursor.whereabouts, counters, all]
    rfl
  | cons d rest => rfl

/-- The report on a mismatch: its message, which at the end of data counts all the points, and the
line of the cursor with a caret behind as much of it as is in front of the point. -/
theorem render_points_at (small : s.size < UInt32.size) (stopped : e.cursor? = some c)
    (visited : s.Visited c) :
    (∃ p start stop shown, s.LineAround c p start stop ∧ s.Counts p ∧
      Utf8.ShownAs (s.bytes.extract start (s.dropReturn start stop)).data.toList shown ∧
      e.render s = e.message ++ framed c.position.line shown (caretColumn c shown)) ∧
    e.message = e.complaint ++ placeNote s c := by
  obtain ⟨p, start, stop, around, shown⟩ := showsPlace visited
  have fits := (s.dropReturn_le start stop).trans around.segment.inside
  refine ⟨⟨p, start, stop, _, around, around.visited.counts around.point small,
    Source.text_shownAs (s.le_dropReturn around.segment.ordered) fits, ?_⟩, ?_⟩
  · rw [render_eq stopped, shown]
  · rw [message_eq stopped, whereabouts_eq visited]

/-- On the second line, of two characters, a stray byte and a carriage return that is not shown. -/
theorem render_points_at_second_line :
    let s : Source := ⟨⟨#[0x61, 0x0A, 0xC3, 0xA9, 0x78, 0xFF, 0x0D, 0x0A]⟩⟩
    let c : Cursor := ⟨⟨2, 2, 3, 4⟩, some 'x', 4⟩
    let e : MatchError := .unmet .any c
    s.size < UInt32.size ∧ e.cursor? = some c ∧ s.Visited c ∧
      (∃ p start stop shown, s.LineAround c p start stop ∧ s.Counts p ∧
        Utf8.ShownAs (s.bytes.extract start (s.dropReturn start stop)).data.toList shown ∧
        e.render s = e.message ++ framed c.position.line shown (caretColumn c shown)) ∧
      e.message = e.complaint ++ placeNote s c ∧
      e.render s = "expected any rune at U+0078 'x' 2,2-3 (4-5)\n 2 | éx\uFFFD\n   |  ^" := by
  intro s c e
  have first : s.Visits 0 ⟨.start, some 'a', 0⟩ := .first (by decide)
  have second : s.Visits 1 ⟨⟨1, 2, 2, 2⟩, some '\n', 1⟩ := first.after (by decide)
  have third : s.Visits 2 ⟨⟨2, 1, 1, 3⟩, some 'é', 2⟩ := second.after (by decide)
  have visited : s.Visited c := ⟨3, third.after (by decide)⟩
  have small : s.size < UInt32.size := by decide
  obtain ⟨place, message⟩ := render_points_at (e := e) small rfl visited
  exact ⟨small, rfl, visited, place, message, by decide +kernel⟩

/-- The only point of a source without a newline, and the end of data behind it. -/
example : (MatchError.unmet .any ⟨.start, none, 1⟩).render (.ofString "a") =
    "expected any rune, exceeded data length (1 rune)\n 1 | a\n   |  ^" := by decide +kernel

/-- The last of too many newlines is on a line with no number of 32 bits. -/
theorem newlines_exceed {n : Nat} (many : UInt32.size ≤ n) :
    let s : Source := .ofString (String.ofList (List.replicate n '\n'))
    ∃ c start stop, s.Visited c ∧ s.LineAround c c start stop ∧
      s.newlinesBefore start + 1 = n ∧ ¬s.Counts c := by
  intro s
  have some : 0 < UInt32.size := by decide
  obtain ⟨m, rfl⟩ := Nat.exists_eq_add_one.mpr (some.trans_le many)
  have split : s.points = List.replicate m '\n' ++ '\n' :: [] := by
    rw [Source.points_ofString, String.toList_ofList, List.replicate_succ']
  have leaves : s.Leaves ['\n'] := ⟨⟨_, split.symm⟩, by simp [split], by simp⟩
  have apart : s.points = List.replicate m '\n' ++ ['\n'] ++ [] := by rw [split, List.append_nil]
  obtain ⟨start, stop, line⟩ := Source.exists_pointLine apart
  refine ⟨s.cursorAt ['\n'], start, stop, ⟨_, leaves.visits⟩,
    line.around leaves split (.inl rfl) rfl, ?_, fun counts => ?_⟩
  · rw [line.numbered, List.count_replicate_self]
  · have encoded : s.bytes.extract 0 (s.cursorAt ['\n']).offset =
        (List.replicate m '\n').utf8Encode := by
      rw [Source.offset_cursorAt split, Source.extract_zero_utf8Len split]
    have counted := counts.eq_after encoded
    rw [Position.after?_eq_none (by simpa using many)] at counted
    cases counted

/-- No number of 32 bits is that of the last of 2^32 lines, and no counters of 32 bits come so
far. -/
theorem newlines_exceed_counters :
    let s : Source := .ofString (String.ofList (List.replicate UInt32.size '\n'))
    ∃ c start stop, s.Visited c ∧ s.LineAround c c start stop ∧
      (∀ number : UInt32, number.toNat ≠ s.newlinesBefore start + 1) ∧ ¬s.Counts c := by
  intro s
  obtain ⟨c, start, stop, visited, around, lines, exceeds⟩ := newlines_exceed (le_refl UInt32.size)
  refine ⟨c, start, stop, visited, around, fun number => ?_, exceeds⟩
  rw [lines]
  exact number.toNat_lt.ne

end MatchError
end TextMatch
