import TextMatch.Proofs.Source.Decoding
import TextMatch.Source.Line

/-!
# The lines of a source

Newlines cut the source into segments, and the line of an offset is the segment around it, without
a carriage return at its end (`Segment.lineAt_eq`). Where a newline follows, the bytes left out are
a terminator. Where the source ends instead, there is none to leave out, but a carriage return is
left out all the same: `lines_tile_iff` says that the lines and their terminators rebuild every
source but those that end in one.
-/
namespace TextMatch.Source

open Utf8 (byte?)

/-- A longest stretch without a newline: it begins with the source or behind one, and ends with the
source or in front of one. -/
structure Segment (s : Source) (start stop : Nat) : Prop where
  ordered : start ≤ stop
  inside : stop ≤ s.size
  begins : start = 0 ∨ byte? s.bytes (start - 1) = some newline
  free : ∀ i, start ≤ i → i < stop → byte? s.bytes i ≠ some newline
  ends : stop = s.size ∨ byte? s.bytes stop = some newline

variable {s : Source} {start stop offset : Nat}

/-! The two searches, to the left and to the right. -/

theorem lineStart_le (s : Source) (offset : Nat) : s.lineStart offset ≤ offset := by
  induction offset with
  | zero => exact Nat.le_refl 0
  | succ offset ih =>
    unfold lineStart
    split
    · exact Nat.le_refl _
    · exact Nat.le_succ_of_le ih

theorem lineStart_begins (s : Source) (offset : Nat) :
    s.lineStart offset = 0 ∨ byte? s.bytes (s.lineStart offset - 1) = some newline := by
  induction offset with
  | zero => exact .inl rfl
  | succ offset ih =>
    unfold lineStart
    split
    · next found => exact .inr found
    · exact ih

theorem lineStart_free (s : Source) (offset : Nat) :
    ∀ i, s.lineStart offset ≤ i → i < offset → byte? s.bytes i ≠ some newline := by
  induction offset with
  | zero => exact fun i _ before => absurd before (Nat.not_lt_zero i)
  | succ offset ih =>
    intro i after before
    unfold lineStart at after
    split at after
    · omega
    · next other =>
      rcases Nat.lt_succ_iff_lt_or_eq.mp before with earlier | rfl
      · exact ih i after earlier
      · exact other

theorem lineStart_eq_of_free (begins : start = 0 ∨ byte? s.bytes (start - 1) = some newline)
    (after : start ≤ offset)
    (free : ∀ i, start ≤ i → i < offset → byte? s.bytes i ≠ some newline) :
    s.lineStart offset = start := by
  have reached := s.lineStart_le offset
  refine Nat.le_antisymm (Nat.le_of_not_lt fun late => ?_) (Nat.le_of_not_lt fun early => ?_)
  · rcases s.lineStart_begins offset with zero | found
    · omega
    · exact free _ (by omega) (by omega) found
  · rcases begins with zero | found
    · omega
    · exact s.lineStart_free offset _ (by omega) (by omega) found

theorem le_lineStop (inside : offset ≤ s.size) : offset ≤ s.lineStop offset := by
  fun_induction lineStop s offset with
  | case1 offset _ found => exact Nat.le_refl _
  | case2 offset within _ ih => exact Nat.le_of_succ_le (ih within)
  | case3 offset _ => exact inside

theorem lineStop_le (inside : offset ≤ s.size) : s.lineStop offset ≤ s.size := by
  fun_induction lineStop s offset with
  | case1 offset _ found => exact inside
  | case2 offset within _ ih => exact ih within
  | case3 offset _ => exact Nat.le_refl _

theorem lineStop_ends (s : Source) (offset : Nat) :
    s.lineStop offset = s.size ∨ byte? s.bytes (s.lineStop offset) = some newline := by
  fun_induction lineStop s offset with
  | case1 offset _ found => exact .inr found
  | case2 offset _ _ ih => exact ih
  | case3 offset _ => exact .inl rfl

theorem lineStop_free (s : Source) (offset : Nat) :
    ∀ i, offset ≤ i → i < s.lineStop offset → byte? s.bytes i ≠ some newline := by
  fun_induction lineStop s offset with
  | case1 offset _ found => exact fun i after before => by omega
  | case2 offset _ other ih =>
    intro i after before
    rcases Nat.eq_or_lt_of_le after with rfl | later
    · exact other
    · exact ih i later before
  | case3 offset beyond => exact fun i after before => by omega

theorem segment_around (inside : offset ≤ s.size) :
    s.Segment (s.lineStart offset) (s.lineStop offset) where
  ordered := (s.lineStart_le offset).trans (le_lineStop inside)
  inside := lineStop_le inside
  begins := s.lineStart_begins offset
  free i after before := by
    rcases Nat.lt_or_ge i offset with left | right
    · exact s.lineStart_free offset i after left
    · exact s.lineStop_free offset i right before
  ends := s.lineStop_ends offset

namespace Segment

/-- From every offset of a segment, and from its newline, the search to the left ends where it
begins. -/
theorem lineStart_eq (segment : s.Segment start stop) (after : start ≤ offset)
    (before : offset ≤ stop) : s.lineStart offset = start :=
  lineStart_eq_of_free segment.begins after fun i later earlier =>
    segment.free i later (earlier.trans_le before)

theorem lineStop_eq (segment : s.Segment start stop) (after : start ≤ offset)
    (before : offset ≤ stop) : s.lineStop offset = stop := by
  have inside := before.trans segment.inside
  have reached := le_lineStop inside
  refine Nat.le_antisymm (Nat.le_of_not_lt fun late => ?_) (Nat.le_of_not_lt fun early => ?_)
  · rcases segment.ends with whole | found
    · have := lineStop_le inside
      omega
    · exact s.lineStop_free offset stop before late found
  · rcases s.lineStop_ends offset with whole | found
    · have := segment.inside
      omega
    · exact segment.free _ (by omega) early found

end Segment

/-- The end of a stretch without a carriage return there. -/
def dropReturn (s : Source) (start stop : Nat) : Nat :=
  if start < stop ∧ byte? s.bytes (stop - 1) = some carriageReturn then stop - 1 else stop

theorem le_dropReturn (ordered : start ≤ stop) : start ≤ s.dropReturn start stop := by
  unfold dropReturn
  split
  · omega
  · exact ordered

theorem dropReturn_le (s : Source) (start stop : Nat) : s.dropReturn start stop ≤ stop := by
  unfold dropReturn
  split
  · omega
  · exact Nat.le_refl _

theorem lineAt_min (s : Source) (offset : Nat) :
    s.lineAt (min offset s.size) = s.lineAt offset := by
  unfold lineAt
  rw [Nat.min_assoc, Nat.min_self]

theorem Segment.lineAt_eq (segment : s.Segment start stop) (after : start ≤ offset)
    (before : offset ≤ stop) : s.lineAt offset = ⟨start, s.dropReturn start stop⟩ := by
  unfold lineAt dropReturn
  rw [Nat.min_eq_left (before.trans segment.inside)]
  dsimp only
  rw [segment.lineStart_eq after before, segment.lineStop_eq after before]
  by_cases ends : start < stop ∧ byte? s.bytes (stop - 1) = some carriageReturn
  · rw [if_pos ends, if_pos (by simpa using ends)]
  · rw [if_neg ends, if_neg (by simpa using ends)]

/-! What is left out between a line and the next. -/

/-- What ends a line: a newline, alone or behind a carriage return. -/
def IsTerminator (bytes : ByteArray) : Prop :=
  bytes = [newline].toByteArray ∨ bytes = [carriageReturn, newline].toByteArray

/-- The last byte is a carriage return. -/
def EndsInReturn (s : Source) : Prop := byte? s.bytes (s.size - 1) = some carriageReturn

instance (s : Source) : Decidable s.EndsInReturn :=
  inferInstanceAs (Decidable (byte? s.bytes (s.size - 1) = some carriageReturn))

/-- What the last line leaves out: a carriage return at the end of the source, which no newline
follows. -/
def lost (s : Source) : ByteArray :=
  if s.EndsInReturn then [carriageReturn].toByteArray else .empty

theorem lost_eq_empty_iff : s.lost = .empty ↔ ¬ s.EndsInReturn := by
  unfold lost
  split
  · next ends => exact iff_of_false (by decide) (not_not_intro ends)
  · next other => exact iff_of_true rfl other

/-- The first newline from `offset` on is at `stop`. -/
structure NewlineAfter (s : Source) (offset stop : Nat) : Prop where
  after : offset ≤ stop
  found : byte? s.bytes stop = some newline
  free : ∀ i, offset ≤ i → i < stop → byte? s.bytes i ≠ some newline

theorem NewlineAfter.lineStop_eq (follows : s.NewlineAfter offset stop) :
    s.lineStop offset = stop := by
  have within : stop < s.size := Utf8.lt_size_of_byte? follows.found
  have inside : offset ≤ s.size := follows.after.trans within.le
  refine Nat.le_antisymm (Nat.le_of_not_lt fun late => ?_) (Nat.le_of_not_lt fun early => ?_)
  · exact s.lineStop_free offset stop follows.after late follows.found
  · rcases s.lineStop_ends offset with whole | found
    · omega
    · exact follows.free _ (le_lineStop inside) early found

theorem lineStop_eq_size (inside : offset ≤ s.size)
    (free : ∀ i, offset ≤ i → byte? s.bytes i ≠ some newline) : s.lineStop offset = s.size :=
  (s.lineStop_ends offset).resolve_right fun found => free _ (le_lineStop inside) found

theorem isTerminator_dropReturn (found : byte? s.bytes stop = some newline) (start : Nat) :
    IsTerminator (s.bytes.extract (s.dropReturn start stop) (stop + 1)) := by
  have last := Utf8.extract_of_byte? found
  unfold dropReturn
  split
  · next ends =>
    have before : stop - 1 + 1 = stop := by omega
    have first := Utf8.extract_of_byte? ends.2
    rw [before] at first
    right
    rw [ByteArray.extract_eq_extract_append_extract stop (by omega) (by omega), first, last,
      ← List.toByteArray_append]
    rfl
  · exact .inl last

theorem Segment.endsInReturn_iff (segment : s.Segment start s.size) :
    s.EndsInReturn ↔ start < s.size ∧ byte? s.bytes (s.size - 1) = some carriageReturn := by
  refine ⟨fun ends => ⟨Nat.lt_of_not_le fun beyond => ?_, ends⟩, And.right⟩
  have whole : start = s.size := Nat.le_antisymm segment.ordered beyond
  have nonempty := Utf8.lt_size_of_byte? ends
  rcases segment.begins with zero | found
  · unfold size at whole nonempty
    omega
  · rw [whole] at found
    cases ends.symm.trans found

theorem Segment.extract_last (segment : s.Segment start s.size) :
    s.bytes.extract (s.dropReturn start s.size) s.size = s.lost := by
  unfold dropReturn lost
  simp only [← segment.endsInReturn_iff]
  split
  · next ends =>
    have nonempty := Utf8.lt_size_of_byte? ends
    have before : s.size - 1 + 1 = s.size := by
      unfold size at nonempty ⊢
      omega
    have last := Utf8.extract_of_byte? ends
    rwa [before] at last
  · exact ByteArray.extract_same

/-! All lines, one after the other. -/

/-- The lines from `start` on, each with what is left out behind it. -/
inductive Tiles (s : Source) : Nat → List (Line × ByteArray) → Prop
  | last {start : Nat} (free : ∀ i, start ≤ i → byte? s.bytes i ≠ some newline) :
      Tiles s start [(s.lineAt start, .empty)]
  | more {start stop : Nat} {terminator : ByteArray} {rest : List (Line × ByteArray)}
      (follows : s.NewlineAfter start stop)
      (between : s.bytes.extract (s.lineAt start).stop (stop + 1) = terminator)
      (terminates : IsTerminator terminator) (behind : Tiles s (stop + 1) rest) :
      Tiles s start ((s.lineAt start, terminator) :: rest)

/-- The bytes of the lines, each with what is behind it. -/
def join (s : Source) : List (Line × ByteArray) → ByteArray
  | [] => .empty
  | (line, terminator) :: rest =>
    s.bytes.extract line.start line.stop ++ terminator ++ s.join rest

theorem NewlineAfter.segment (follows : s.NewlineAfter start stop)
    (begins : start = 0 ∨ byte? s.bytes (start - 1) = some newline) : s.Segment start stop where
  ordered := follows.after
  inside := (Utf8.lt_size_of_byte? follows.found).le
  begins := begins
  free := follows.free
  ends := .inr follows.found

theorem segment_of_free (inside : start ≤ s.size)
    (begins : start = 0 ∨ byte? s.bytes (start - 1) = some newline)
    (free : ∀ i, start ≤ i → byte? s.bytes i ≠ some newline) : s.Segment start s.size where
  ordered := inside
  inside := Nat.le_refl _
  begins := begins
  free i after _ := free i after
  ends := .inl rfl

theorem exists_newlineAfter (s : Source) (offset : Nat) :
    (∃ stop, s.NewlineAfter offset stop) ∨ ∀ i, offset ≤ i → byte? s.bytes i ≠ some newline := by
  have none : ∀ i, s.size ≤ i → byte? s.bytes i ≠ some newline := by
    intro i beyond
    rw [Utf8.byte?_eq_none_iff.mpr beyond]
    exact (Option.some_ne_none _).symm
  by_cases inside : offset ≤ s.size
  · rcases s.lineStop_ends offset with whole | found
    · refine .inr fun i after => ?_
      rcases Nat.lt_or_ge i s.size with before | beyond
      · exact s.lineStop_free offset i after (whole ▸ before)
      · exact none i beyond
    · exact .inl ⟨_, le_lineStop inside, found, s.lineStop_free offset⟩
  · exact .inr fun i after => none i (by omega)

theorem exists_tiles (inside : start ≤ s.size)
    (begins : start = 0 ∨ byte? s.bytes (start - 1) = some newline) :
    ∃ lines, s.Tiles start lines := by
  -- the bytes left from `start` on become fewer with every newline
  induction left : s.size - start using Nat.strong_induction_on generalizing start with
  | _ n ih =>
    rcases s.exists_newlineAfter start with ⟨stop, follows⟩ | free
    · have within : stop < s.size := Utf8.lt_size_of_byte? follows.found
      have after := follows.after
      obtain ⟨rest, behind⟩ :=
        ih (s.size - (stop + 1)) (by omega) within (.inr follows.found) rfl
      have line := (follows.segment begins).lineAt_eq (Nat.le_refl _) after
      refine ⟨_, .more follows rfl ?_ behind⟩
      rw [line]
      exact isTerminator_dropReturn follows.found start
    · exact ⟨_, .last free⟩

/-- The lines from `start` on, with what is behind each, are the bytes from there on but for the
lost ones. -/
theorem Tiles.join_append {lines : List (Line × ByteArray)} (tiles : s.Tiles start lines)
    (inside : start ≤ s.size) (begins : start = 0 ∨ byte? s.bytes (start - 1) = some newline) :
    s.join lines ++ s.lost = s.bytes.extract start s.size := by
  induction tiles with
  | @last start free =>
    have segment := segment_of_free inside begins free
    rw [join, segment.lineAt_eq (Nat.le_refl _) inside, join, ByteArray.append_empty,
      ByteArray.append_empty, ← segment.extract_last]
    exact (ByteArray.extract_eq_extract_append_extract _ (le_dropReturn inside)
      (s.dropReturn_le start s.size)).symm
  | @more start stop terminator rest follows between terminates behind ih =>
    have segment := follows.segment begins
    have within : stop < s.size := Utf8.lt_size_of_byte? follows.found
    have line := segment.lineAt_eq (Nat.le_refl _) follows.after
    rw [join, ByteArray.append_assoc, ih within (.inr follows.found), ← between, line,
      ← ByteArray.extract_eq_extract_append_extract _ (le_dropReturn follows.after)
        (Nat.le_succ_of_le (s.dropReturn_le start stop))]
    exact (ByteArray.extract_eq_extract_append_extract _ (Nat.le_succ_of_le follows.after)
      within).symm

theorem Tiles.join_eq_iff {lines : List (Line × ByteArray)} (tiles : s.Tiles 0 lines) :
    s.join lines = s.bytes ↔ ¬ s.EndsInReturn := by
  have joined := tiles.join_append (Nat.zero_le _) (.inl rfl)
  rw [show s.bytes.extract 0 s.size = s.bytes from ByteArray.extract_zero_size] at joined
  rw [← lost_eq_empty_iff]
  constructor
  · intro same
    rw [same] at joined
    exact ByteArray.append_right_inj s.bytes |>.mp (joined.trans ByteArray.append_empty.symm)
  · intro empty
    rwa [empty, ByteArray.append_empty] at joined

/-- What the line of an offset is, the offset held within the source. -/
structure IsLineOf (s : Source) (offset : Nat) (line : Line) : Prop where
  covers : line.start ≤ offset
  ordered : line.start ≤ line.stop
  inside : line.stop ≤ s.size
  begins : line.start = 0 ∨ byte? s.bytes (line.start - 1) = some newline
  before : ∀ i, line.start ≤ i → i < offset → byte? s.bytes i ≠ some newline
  within : ∀ i, line.start ≤ i → i < line.stop → byte? s.bytes i ≠ some newline
  /-- Its newline is on the line too. -/
  same : ∀ other, s.lineAt other = line ↔ line.start ≤ min other s.size ∧
    ∀ i, line.start ≤ i → i < min other s.size → byte? s.bytes i ≠ some newline
  terminated : ∀ i, s.NewlineAfter offset i →
    IsTerminator (s.bytes.extract line.stop (i + 1))
  last : (∀ i, offset ≤ i → byte? s.bytes i ≠ some newline) →
    s.bytes.extract line.stop s.size = s.lost

/-- Before and on its newline, and nowhere else, an offset is on the line. -/
theorem Segment.lineAt_eq_iff (segment : s.Segment start stop) :
    s.lineAt offset = ⟨start, s.dropReturn start stop⟩ ↔ start ≤ min offset s.size ∧
      ∀ i, start ≤ i → i < min offset s.size → byte? s.bytes i ≠ some newline := by
  have inside : min offset s.size ≤ s.size := Nat.min_le_right _ _
  rw [← lineAt_min]
  constructor
  · intro same
    have around := segment_around inside
    rw [around.lineAt_eq (s.lineStart_le _) (le_lineStop inside)] at same
    cases (congrArg Line.start same : s.lineStart _ = start)
    exact ⟨s.lineStart_le _, s.lineStart_free _⟩
  · rintro ⟨after, free⟩
    refine segment.lineAt_eq after (Nat.le_of_not_lt fun beyond => ?_)
    rcases segment.ends with whole | found
    · omega
    · exact free stop segment.ordered beyond found

theorem isLineOf_lineAt (inside : offset ≤ s.size) : s.IsLineOf offset (s.lineAt offset) := by
  have segment := segment_around inside
  have ordered := s.lineStart_le offset
  have reached := le_lineStop inside
  have dropped := s.dropReturn_le (s.lineStart offset) (s.lineStop offset)
  rw [segment.lineAt_eq ordered reached]
  exact {
    covers := ordered
    ordered := le_dropReturn segment.ordered
    inside := dropped.trans segment.inside
    begins := segment.begins
    before := s.lineStart_free offset
    within := fun i after before => segment.free i after (before.trans_le dropped)
    same := fun other => segment.lineAt_eq_iff
    terminated := fun i follows => by
      rw [follows.lineStop_eq]
      exact isTerminator_dropReturn follows.found _
    last := fun free => by
      rw [lineStop_eq_size inside free] at segment ⊢
      exact segment.extract_last }

/-- Every offset has its line, and the lines with their terminators are the source, up to a carriage
return that the source ends in. -/
theorem lines_tile_iff (s : Source) :
    (∀ offset, s.IsLineOf (min offset s.size) (s.lineAt offset)) ∧
      ∃ lines, s.Tiles 0 lines ∧ s.join lines ++ s.lost = s.bytes ∧
        (s.join lines = s.bytes ↔ ¬ s.EndsInReturn) := by
  refine ⟨fun offset => ?_, ?_⟩
  · rw [← lineAt_min]
    exact isLineOf_lineAt (Nat.min_le_right _ _)
  · obtain ⟨lines, tiles⟩ := exists_tiles (Nat.zero_le s.size) (.inl rfl)
    have joined := tiles.join_append (Nat.zero_le _) (.inl rfl)
    exact ⟨lines, tiles, joined.trans ByteArray.extract_zero_size, tiles.join_eq_iff⟩

/-- The line of `"ab\r"`, the only one, is `"ab"`. -/
theorem last_line_loses_return :
    (ofString "ab\r").lineAt 0 = ⟨0, 2⟩ ∧
      (ofString "ab\r").bytes.extract 2 (ofString "ab\r").size = [carriageReturn].toByteArray ∧
      ∀ lines, (ofString "ab\r").Tiles 0 lines →
        (ofString "ab\r").join lines ≠ (ofString "ab\r").bytes := by
  have segment : (ofString "ab\r").Segment 0 3 := by
    refine segment_of_free (by decide) (.inl rfl) fun i _ => ?_
    rcases Nat.lt_or_ge i 3 with before | beyond
    · revert i
      decide
    · rw [Utf8.byte?_eq_none_iff.mpr beyond]
      exact (Option.some_ne_none _).symm
  refine ⟨?_, by decide, fun lines tiles same => ?_⟩
  · rw [segment.lineAt_eq (Nat.le_refl _) (Nat.zero_le _)]
    decide
  · exact tiles.join_eq_iff.mp same (by decide)

end TextMatch.Source
