import TextMatch.Proofs.Source.Cursors
import TextMatch.Proofs.Source.Lines
import TextMatch.Proofs.Source.Shown

/-!
# The line of a point

Lines are cut by the bytes and counted by the points. The two agree, since no byte below `0x80`
is found within the encoding of another character (`count_encode`): the search to the left from a
point ends behind the last newline among the points in front (`lineStart_utf8Len`), and in front of
that place there are as many newline bytes as points.
-/
namespace TextMatch

open String (utf8Len)
open Position (openLine)

namespace Utf8

variable {cs : List Char} {b : UInt8}

theorem byte?_utf8Encode (cs : List Char) (i : Nat) :
    byte? cs.utf8Encode i = (cs.flatMap String.utf8EncodeChar)[i]? :=
  byte?_toByteArray _ i

/-- A byte below `0x80` is found as often as its character. -/
theorem count_encode (small : b < 0x80) (cs : List Char) :
    (cs.flatMap String.utf8EncodeChar).count b = cs.count (.ofUInt8 b) := by
  induction cs with
  | nil => rfl
  | cons c cs ih =>
    rw [List.flatMap_cons, List.count_append, ih, List.count_cons, Nat.add_comm]
    by_cases same : c = .ofUInt8 b
    · rw [same, encode_ofUInt8 small]
      simp
    · have other : b ∉ String.utf8EncodeChar c := fun found => same (encode_of_mem found small).1
      simp [List.count_eq_zero_of_not_mem other, same]

theorem mem_encode_iff (small : b < 0x80) :
    b ∈ cs.flatMap String.utf8EncodeChar ↔ Char.ofUInt8 b ∈ cs := by
  rw [← List.count_pos_iff, count_encode small, List.count_pos_iff]

/-- Where a byte below `0x80` is the last one, its character is the last one. -/
theorem getLast?_of_encode (small : b < 0x80)
    (last : (cs.flatMap String.utf8EncodeChar).getLast? = some b) :
    cs.getLast? = some (.ofUInt8 b) := by
  rcases List.eq_nil_or_concat cs with rfl | ⟨front, c, rfl⟩
  · cases last
  · rw [List.concat_eq_append] at last ⊢
    obtain ⟨lead, tail, encoded⟩ := exists_lead c
    rw [List.flatMap_append, List.flatMap_singleton, encoded,
      List.getLast?_append_of_ne_nil _ (List.cons_ne_nil lead tail), ← encoded] at last
    rw [List.getLast?_concat, (encode_of_mem (List.mem_of_getLast? last) small).1]

end Utf8

namespace Source

variable {s : Source} {before middle rest closed line : List Char} {c : Char} {i : Nat}

/-- Number of newline bytes in front of an offset. -/
def newlinesBefore (s : Source) (offset : Nat) : Nat :=
  (s.bytes.data.toList.take offset).count newline

theorem byte?_middle (split : s.points = before ++ middle ++ rest) (inside : i < utf8Len middle) :
    Utf8.byte? s.bytes (utf8Len before + i) = (middle.flatMap String.utf8EncodeChar)[i]? := by
  have within : utf8Len before + i < utf8Len (before ++ middle) := by
    rw [String.utf8Len_append]
    omega
  rw [← Utf8.byte?_extract_of_lt s.bytes within, extract_utf8Len split, Utf8.byte?_utf8Encode]

theorem newline_mem (split : s.points = before ++ middle ++ rest) (after : utf8Len before ≤ i)
    (inside : i < utf8Len (before ++ middle)) (found : Utf8.byte? s.bytes i = some newline) :
    '\n' ∈ middle := by
  obtain ⟨k, rfl⟩ := Nat.exists_eq_add_of_le after
  rw [String.utf8Len_append] at inside
  rw [byte?_middle split (by omega)] at found
  exact (Utf8.mem_encode_iff (by decide)).mp (List.mem_of_getElem? found)

theorem byte?_newline (split : s.points = before ++ ['\n'] ++ rest) :
    Utf8.byte? s.bytes (utf8Len before) = some newline :=
  byte?_middle (i := 0) split (by decide)

/-- The line of a point begins behind the last newline among the points in front. -/
theorem lineStart_utf8Len (split : s.points = closed ++ line ++ rest) (free : '\n' ∉ line)
    (begins : closed = [] ∨ ∃ lines, closed = lines ++ ['\n']) :
    s.lineStart (utf8Len (closed ++ line)) = utf8Len closed := by
  refine lineStart_eq_of_free ?_ (by simp) fun i after inside found => ?_
  · rcases begins with rfl | ⟨lines, rfl⟩
    · exact .inl rfl
    · right
      rw [List.append_assoc] at split
      have narrow : utf8Len (lines ++ ['\n']) - 1 = utf8Len lines := by
        rw [String.utf8Len_append]
        exact Nat.add_sub_cancel _ 1
      rw [narrow]
      exact byte?_newline split
  · exact free (newline_mem split after inside found)

theorem newlinesBefore_utf8Len (split : s.points = before ++ rest) :
    s.newlinesBefore (utf8Len before) = before.count '\n' := by
  have encoded := congrArg (fun bytes => bytes.data.toList) (extract_zero_utf8Len split)
  simp only [ByteArray.data_extract, Array.toList_extract, List.extract_eq_take_drop,
    List.drop_zero, Nat.sub_zero, List.utf8Encode, List.data_toByteArray] at encoded
  rw [newlinesBefore, encoded, Utf8.count_encode (by decide)]
  rfl

/-- No byte of a point lies behind the end of its line. -/
theorem le_lineStop_of_point (split : s.points = before ++ [c] ++ rest)
    (after : utf8Len before ≤ i) (inside : i < utf8Len (before ++ [c])) :
    i ≤ s.lineStop (utf8Len before) := by
  have fits := (utf8Len_le_readableSize split).trans s.readableSize_le_size
  have reached : utf8Len before ≤ s.lineStop (utf8Len before) := le_lineStop (by omega)
  refine Nat.le_of_not_lt fun early => ?_
  rcases s.lineStop_ends (utf8Len before) with whole | found
  · omega
  · have newline : '\n' ∈ [c] := newline_mem split reached (early.trans inside) found
    obtain rfl := List.mem_singleton.mp newline
    have narrow : utf8Len (before ++ ['\n']) = utf8Len before + 1 := String.utf8Len_append _ _
    omega

theorem dropReturn_eq_of_lt {start stop : Nat} (shorter : s.dropReturn start stop < stop) :
    start < stop ∧ Utf8.byte? s.bytes (stop - 1) = some carriageReturn ∧
      s.dropReturn start stop = stop - 1 := by
  unfold dropReturn at shorter ⊢
  split
  · next ends => exact ⟨ends.1, ends.2, rfl⟩
  · next other =>
    rw [if_neg other] at shorter
    omega

/-- A carriage return right in front of a point is the point before it. -/
theorem exists_return (split : s.points = closed ++ line ++ rest) (nonempty : 0 < utf8Len line)
    (found : Utf8.byte? s.bytes (utf8Len (closed ++ line) - 1) = some carriageReturn) :
    ∃ front, line = front ++ ['\r'] := by
  have size : (line.flatMap String.utf8EncodeChar).length = utf8Len line := by
    rw [← Utf8.size_utf8Encode, List.utf8Encode, List.size_toByteArray]
  have place : utf8Len (closed ++ line) - 1 = utf8Len closed + (utf8Len line - 1) := by
    rw [String.utf8Len_append]
    omega
  rw [place, byte?_middle split (by omega), ← size, ← List.getLast?_eq_getElem?] at found
  exact List.getLast?_eq_some_iff.mp (Utf8.getLast?_of_encode (by decide) found)

/-- As many characters of the shown line are in front of a point as points of its line, but no more
than the line has: in front of a newline there may be a carriage return that is not shown. -/
theorem length_text_column {stop : Nat} (split : s.points = closed ++ line ++ rest)
    (inside : utf8Len (closed ++ line) ≤ stop) (fits : stop ≤ s.size) :
    (s.text (utf8Len closed)
        (min (utf8Len (closed ++ line)) (s.dropReturn (utf8Len closed) stop))).length =
      min line.length (s.text (utf8Len closed) (s.dropReturn (utf8Len closed) stop)).length := by
  have dropped := s.dropReturn_le (utf8Len closed) stop
  rcases Nat.lt_or_ge (s.dropReturn (utf8Len closed) stop) (utf8Len (closed ++ line)) with
    short | reaches
  · -- only a newline lies behind the shown line, with the carriage return in front of it
    obtain ⟨begins, found, shown⟩ := dropReturn_eq_of_lt (short.trans_le inside)
    have last : stop = utf8Len (closed ++ line) := by omega
    subst last
    have nonempty : 0 < utf8Len line := by
      rw [String.utf8Len_append] at begins
      omega
    obtain ⟨front, rfl⟩ := exists_return split nonempty found
    have narrow : utf8Len (closed ++ (front ++ ['\r'])) - 1 = utf8Len (closed ++ front) := by
      rw [← List.append_assoc, String.utf8Len_append]
      exact Nat.add_sub_cancel _ 1
    have onward : s.points = closed ++ front ++ (['\r'] ++ rest) := by rw [split]; simp
    rw [Nat.min_eq_right short.le, shown, narrow, text_utf8Len onward]
    simp
  · rw [Nat.min_eq_left reaches, ← text_append_text split reaches (dropped.trans fits),
      text_utf8Len split]
    simp

/-- The line of the point `c` behind the points `before`. -/
structure PointLine (s : Source) (before : List Char) (c : Char) (start stop : Nat) : Prop where
  segment : s.Segment start stop
  after : start ≤ utf8Len before
  holds : ∀ i, utf8Len before ≤ i → i < utf8Len (before ++ [c]) → i ≤ stop
  numbered : s.newlinesBefore start = before.count '\n'
  column : (s.text start (min (utf8Len before) (s.dropReturn start stop))).length =
    min (openLine before).length (s.text start (s.dropReturn start stop)).length

theorem PointLine.reaches {start stop : Nat} (line : s.PointLine before c start stop) :
    utf8Len before ≤ stop :=
  line.holds _ le_rfl (by simp [c.utf8Size_pos])

theorem exists_pointLine (split : s.points = before ++ [c] ++ rest) :
    ∃ start stop, s.PointLine before c start stop := by
  have fits := (utf8Len_le_readableSize split).trans s.readableSize_le_size
  have inside : utf8Len before ≤ s.size := by
    rw [String.utf8Len_append] at fits
    omega
  obtain ⟨closed, apart, free, begins⟩ := Position.exists_openLine before
  have splitOpen : s.points = closed ++ openLine before ++ ([c] ++ rest) := by
    rw [← apart, split, List.append_assoc]
  have segment := segment_around inside
  have start : s.lineStart (utf8Len before) = utf8Len closed := by
    have found := lineStart_utf8Len splitOpen free begins
    rwa [← apart] at found
  rw [start] at segment
  refine ⟨_, _, segment, ?_, fun i => le_lineStop_of_point split, ?_, ?_⟩
  · rw [← start]
    exact s.lineStart_le _
  · rw [List.append_assoc] at splitOpen
    rw [newlinesBefore_utf8Len splitOpen, apart, List.count_append,
      List.count_eq_zero_of_not_mem free, Nat.add_zero]
  · have column := length_text_column splitOpen (apart ▸ le_lineStop inside) segment.inside
    rwa [← apart] at column

end Source
end TextMatch
