import TextMatch.Proofs.Source.Decoding

/-!
# The points of a source

The characters that can be decoded one after the other from the first byte on. They are those of
the longest beginning of the source that is UTF-8: `extract_zero_utf8Len` says that they encode to
the bytes in front, `utf8Len_le_readableSize` that no longer beginning is well-formed, and
`pointAt_after` what decoding finds after any number of them. Nothing is said about bytes that
follow the first malformed one.
-/
namespace TextMatch

open String (utf8Len)

namespace Source

/-- The points from `offset` on, up to where no more can be decoded. -/
def pointsFrom (s : Source) (offset : Nat) : List Char :=
  match _decoded : s.bytes.utf8DecodeChar? offset with
  | some c => c :: s.pointsFrom (offset + c.utf8Size)
  | none => []
termination_by s.size - offset
decreasing_by
  have := ByteArray.le_size_of_utf8DecodeChar?_eq_some _decoded
  have := c.utf8Size_pos
  unfold size
  omega

/-- All the points that can be read, in order. -/
def points (s : Source) : List Char := s.pointsFrom 0

/-- Number of bytes that the points take. -/
def readableSize (s : Source) : Nat := utf8Len s.points

/-- Whether the points take all the bytes. -/
def isReadable (s : Source) : Bool := s.readableSize == s.size

variable {s : Source} {offset : Nat}

theorem head?_pointsFrom (s : Source) (offset : Nat) :
    (s.pointsFrom offset).head? = s.bytes.utf8DecodeChar? offset := by
  rw [pointsFrom]
  split
  · simp [*]
  · simp [*]

theorem pointsFrom_of_decode {c : Char} (decoded : s.bytes.utf8DecodeChar? offset = some c) :
    s.pointsFrom offset = c :: s.pointsFrom (offset + c.utf8Size) := by
  rw [pointsFrom]
  split
  · next d decodedAgain =>
    rw [decoded] at decodedAgain
    cases decodedAgain
    rfl
  · next undecoded =>
    rw [decoded] at undecoded
    cases undecoded

theorem pointsFrom_eq_cons {c : Char} {rest : List Char}
    (decoded : s.pointsFrom offset = c :: rest) :
    s.bytes.utf8DecodeChar? offset = some c ∧ s.pointsFrom (offset + c.utf8Size) = rest := by
  have first := s.head?_pointsFrom offset
  rw [decoded, List.head?_cons] at first
  rw [pointsFrom_of_decode first.symm] at decoded
  exact ⟨first.symm, List.tail_eq_of_cons_eq decoded⟩

theorem pointsFrom_after {before rest : List Char} (split : s.pointsFrom offset = before ++ rest) :
    s.pointsFrom (offset + utf8Len before) = rest := by
  induction before generalizing offset with
  | nil => simpa using split
  | cons c before ih =>
    have tail := (pointsFrom_eq_cons split).2
    rw [String.utf8Len_cons, Nat.add_comm (utf8Len before), ← Nat.add_assoc]
    exact ih tail

theorem extract_pointsFrom {before rest : List Char}
    (split : s.pointsFrom offset = before ++ rest) :
    s.bytes.extract offset (offset + utf8Len before) = before.utf8Encode := by
  induction before generalizing offset with
  | nil => simp
  | cons c before ih =>
    obtain ⟨first, tail⟩ := pointsFrom_eq_cons split
    rw [List.utf8Encode_cons, ← Utf8.extract_of_decode first, ← ih tail,
      ByteArray.extract_append_extract, String.utf8Len_cons]
    congr 1 <;> omega

/-- Characters whose encoding stands at `offset` are all read from there. -/
theorem isPrefix_pointsFrom {cs : List Char} {rest : ByteArray}
    (encoded : s.bytes.extract offset s.bytes.size = cs.utf8Encode ++ rest) :
    cs <+: s.pointsFrom offset := by
  induction cs generalizing offset with
  | nil => exact List.nil_prefix
  | cons c cs ih =>
    have decoded := Utf8.decode_of_extract encoded
    have wide := ByteArray.le_size_of_utf8DecodeChar?_eq_some decoded
    have tail : s.bytes.extract (offset + c.utf8Size) s.bytes.size = cs.utf8Encode ++ rest := by
      rw [ByteArray.extract_eq_extract_append_extract (offset + c.utf8Size) (by omega) wide,
        Utf8.extract_of_decode decoded, List.utf8Encode_cons (l := cs),
        ByteArray.append_assoc] at encoded
      exact (ByteArray.append_right_inj _).mp encoded
    rw [pointsFrom_of_decode decoded]
    exact List.cons_prefix_cons.mpr ⟨rfl, ih tail⟩

/-- The characters read first from `offset` on are those whose encoding stands there. -/
theorem isPrefix_pointsFrom_iff {cs : List Char} :
    cs <+: s.pointsFrom offset ↔
      s.bytes.extract offset (offset + utf8Len cs) = cs.utf8Encode := by
  constructor
  · rintro ⟨rest, split⟩
    exact extract_pointsFrom split.symm
  · intro encoded
    have sizes := congrArg ByteArray.size encoded
    rw [Utf8.size_utf8Encode, ByteArray.size_extract] at sizes
    by_cases nothing : utf8Len cs = 0
    · rw [String.utf8Len_eq_zero.mp nothing]
      exact List.nil_prefix
    · have begins : s.bytes.extract offset s.bytes.size =
          cs.utf8Encode ++ s.bytes.extract (offset + utf8Len cs) s.bytes.size := by
        rw [← encoded]
        exact ByteArray.extract_eq_extract_append_extract _ (Nat.le_add_right _ _) (by omega)
      exact isPrefix_pointsFrom begins

theorem decode_after {before rest : List Char} (split : s.points = before ++ rest) :
    s.bytes.utf8DecodeChar? (utf8Len before) = rest.head? := by
  have tail := pointsFrom_after (show s.pointsFrom 0 = before ++ rest from split)
  rw [Nat.zero_add] at tail
  rw [← tail, head?_pointsFrom]

theorem extract_zero_utf8Len {before rest : List Char} (split : s.points = before ++ rest) :
    s.bytes.extract 0 (utf8Len before) = before.utf8Encode := by
  simpa using extract_pointsFrom (show s.pointsFrom 0 = before ++ rest from split)

theorem readableSize_le_size (s : Source) : s.readableSize ≤ s.size := by
  have encoded := extract_zero_utf8Len (s := s) (List.append_nil s.points).symm
  have sizes := congrArg ByteArray.size encoded
  rw [Utf8.size_utf8Encode, ByteArray.size_extract] at sizes
  unfold readableSize size
  omega

theorem length_le_utf8Len (cs : List Char) : cs.length ≤ utf8Len cs := by
  induction cs with
  | nil => exact Nat.zero_le _
  | cons c cs ih =>
    have := c.utf8Size_pos
    rw [List.length_cons, String.utf8Len_cons]
    omega

theorem length_points_le (s : Source) : s.points.length ≤ s.size :=
  (length_le_utf8Len s.points).trans s.readableSize_le_size

theorem utf8Len_le_readableSize {before rest : List Char} (split : s.points = before ++ rest) :
    utf8Len before ≤ s.readableSize := by
  rw [readableSize, split, String.utf8Len_append]
  omega

/-- What decoding finds where the points `rest` are left: the next one, the end, or what is
malformed. -/
def front (s : Source) : List Char → Except ScanError (Option Char)
  | c :: _ => .ok (some c)
  | [] => if s.isReadable then .ok none else .error (.malformed s.readableSize)

theorem front_eq_ok_iff {rest : List Char} :
    (∃ next, s.front rest = .ok next) ↔ (rest = [] → s.isReadable = true) := by
  cases rest with
  | nil => by_cases readable : s.isReadable <;> simp [front, readable]
  | cons c rest => simp [front]

theorem pointAt_after {before rest : List Char} (split : s.points = before ++ rest) :
    s.pointAt (utf8Len before) = s.front rest := by
  have decoded := decode_after split
  cases rest with
  | cons c rest => exact pointAt_eq_some_iff.mpr decoded
  | nil =>
    have all : utf8Len before = s.readableSize := by rw [readableSize, split, List.append_nil]
    by_cases readable : s.isReadable
    · rw [front, if_pos readable, pointAt_eq_none_iff, all, eq_of_beq readable]
    · have inside : utf8Len before < s.size := by
        have := s.readableSize_le_size
        simp only [isReadable, beq_iff_eq] at readable
        omega
      rw [front, if_neg readable, ← all]
      exact pointAt_of_undecoded inside decoded

/-- No beginning of a source that is longer than its points is UTF-8. -/
theorem le_readableSize {stop : Nat} (inside : stop ≤ s.size)
    (valid : (s.bytes.extract 0 stop).IsValidUTF8) : stop ≤ s.readableSize := by
  obtain ⟨cs, encoded⟩ := valid
  have whole : s.bytes.extract 0 s.bytes.size =
      cs.utf8Encode ++ s.bytes.extract stop s.bytes.size := by
    rw [← encoded]
    exact ByteArray.extract_eq_extract_append_extract stop (Nat.zero_le _) inside
  obtain ⟨rest, split⟩ := isPrefix_pointsFrom whole
  have fits := utf8Len_le_readableSize (s := s) split.symm
  have sizes := congrArg ByteArray.size encoded
  rw [Utf8.size_utf8Encode, ByteArray.size_extract] at sizes
  unfold size at inside
  omega

/-- The longest beginning of the source that is UTF-8 ends at `stop`. -/
structure LongestValid (s : Source) (stop : Nat) : Prop where
  inside : stop ≤ s.size
  valid : (s.bytes.extract 0 stop).IsValidUTF8
  longest : ∀ other ≤ s.size, (s.bytes.extract 0 other).IsValidUTF8 → other ≤ stop

theorem longestValid_readableSize (s : Source) : s.LongestValid s.readableSize where
  inside := s.readableSize_le_size
  valid := ⟨s.points, extract_zero_utf8Len (List.append_nil s.points).symm⟩
  longest _ := le_readableSize

theorem readableSize_lt_size (s : Source) (unreadable : s.isReadable = false) :
    s.readableSize < s.size := by
  have fits := s.readableSize_le_size
  simp only [isReadable, beq_eq_false_iff_ne] at unreadable
  omega

/-- What is read from an offset on depends on the bytes from there on alone. -/
theorem pointsFrom_congr {s' : Source} {i j : Nat}
    (same : s.bytes.extract i s.bytes.size = s'.bytes.extract j s'.bytes.size) :
    s.pointsFrom i = s'.pointsFrom j := by
  induction points : s.pointsFrom i generalizing i j with
  | nil =>
    have nothing := s.head?_pointsFrom i
    rw [points, ByteArray.utf8DecodeChar?_eq_utf8DecodeChar?_extract, same,
      ← ByteArray.utf8DecodeChar?_eq_utf8DecodeChar?_extract, ← s'.head?_pointsFrom] at nothing
    exact (List.head?_eq_none_iff.mp nothing.symm).symm
  | cons c rest ih =>
    obtain ⟨first, tail⟩ := pointsFrom_eq_cons points
    have firstToo : s'.bytes.utf8DecodeChar? j = some c := by
      rw [ByteArray.utf8DecodeChar?_eq_utf8DecodeChar?_extract, ← same,
        ← ByteArray.utf8DecodeChar?_eq_utf8DecodeChar?_extract, first]
    have fits := ByteArray.le_size_of_utf8DecodeChar?_eq_some first
    have fitsToo := ByteArray.le_size_of_utf8DecodeChar?_eq_some firstToo
    have behind : s.bytes.extract (i + c.utf8Size) s.bytes.size =
        s'.bytes.extract (j + c.utf8Size) s'.bytes.size := by
      have cut := congrArg (fun bytes => bytes.extract c.utf8Size bytes.size) same
      have all : i + (s.bytes.size - i) = s.bytes.size := by omega
      have allToo : j + (s'.bytes.size - j) = s'.bytes.size := by omega
      simpa [ByteArray.extract_extract, all, allToo] using cut
    rw [pointsFrom_of_decode firstToo, ih behind tail]

/-- Behind the encoding of some characters the points are those of the bytes that follow. -/
theorem points_append (cs : List Char) (bytes : ByteArray) :
    (mk (cs.utf8Encode ++ bytes)).points = cs ++ (mk bytes).points := by
  have encoded : (cs.utf8Encode ++ bytes).extract 0 (cs.utf8Encode ++ bytes).size =
      cs.utf8Encode ++ bytes := ByteArray.extract_zero_size
  obtain ⟨rest, split⟩ := isPrefix_pointsFrom (s := ⟨cs.utf8Encode ++ bytes⟩) encoded
  have behind := pointsFrom_after split.symm
  have same : (cs.utf8Encode ++ bytes).extract (0 + utf8Len cs) (cs.utf8Encode ++ bytes).size =
      (mk bytes).bytes.extract 0 (mk bytes).bytes.size := by
    rw [Nat.zero_add, ← Utf8.size_utf8Encode, ByteArray.size_append]
    exact ByteArray.extract_append_size_add (i := 0)
  rw [pointsFrom_congr same] at behind
  rw [points, points, behind, split]

theorem readableSize_append (cs : List Char) (bytes : ByteArray) :
    (mk (cs.utf8Encode ++ bytes)).readableSize = utf8Len cs + (mk bytes).readableSize := by
  rw [readableSize, points_append, String.utf8Len_append, readableSize]

theorem isReadable_append (cs : List Char) (bytes : ByteArray) :
    (mk (cs.utf8Encode ++ bytes)).isReadable = (mk bytes).isReadable := by
  have sizes : (mk (cs.utf8Encode ++ bytes)).size = utf8Len cs + (mk bytes).size := by
    rw [size, size, ByteArray.size_append, Utf8.size_utf8Encode]
  rw [isReadable, isReadable, readableSize_append, sizes, Bool.eq_iff_iff, beq_iff_eq, beq_iff_eq]
  omega

/-- A source that begins with the readable bytes of another has all its points in front. -/
theorem isPrefix_points {s' : Source}
    (begins : s'.bytes.extract 0 s.readableSize = s.bytes.extract 0 s.readableSize) :
    s.points <+: s'.points := by
  have encoded : s.bytes.extract 0 s.readableSize = s.points.utf8Encode :=
    extract_zero_utf8Len (List.append_nil s.points).symm
  have sizes := congrArg ByteArray.size (begins.trans encoded)
  rw [Utf8.size_utf8Encode, ByteArray.size_extract] at sizes
  have inside : s.readableSize ≤ s'.bytes.size := by
    unfold readableSize at sizes ⊢
    omega
  have split : s'.bytes.extract 0 s'.bytes.size =
      s.points.utf8Encode ++ s'.bytes.extract s.readableSize s'.bytes.size := by
    rw [← encoded, ← begins]
    exact ByteArray.extract_eq_extract_append_extract _ (Nat.zero_le _) inside
  exact isPrefix_pointsFrom split

/-- All of a text is read from its encoding. -/
theorem points_ofString (text : String) : (ofString text).points = text.toList := by
  have encoded : (ofString text).bytes.extract 0 (ofString text).bytes.size =
      text.toList.utf8Encode ++ ByteArray.empty := by
    rw [ByteArray.extract_zero_size, String.utf8Encode_toList, ByteArray.append_empty]
    rfl
  obtain ⟨rest, split⟩ := isPrefix_pointsFrom encoded
  have fits := readableSize_le_size (ofString text)
  have sizes : (ofString text).size = utf8Len text.toList := by
    rw [← Utf8.size_utf8Encode, String.utf8Encode_toList]
    rfl
  rw [readableSize, points, ← split, String.utf8Len_append, sizes] at fits
  have nothing : rest = [] := String.utf8Len_eq_zero.mp (by omega)
  rw [points, ← split, nothing, List.append_nil]

theorem isReadable_ofString (text : String) : (ofString text).isReadable = true := by
  rw [isReadable, beq_iff_eq, readableSize, points_ofString, ← Utf8.size_utf8Encode,
    String.utf8Encode_toList]
  rfl

end Source
end TextMatch
