import Mathlib.Data.String.Basic
import TextMatch.Source.Basic

/-!
# Decoding one point

The byte at an offset announces how many bytes to look at, and it does so even where it leads no
character. Still never too few bytes are looked at nor too many. The bytes of a character are a
`Utf8.Sequence`, whose first byte announces its length (`Sequence.length_eq`), and so bytes that are
UTF-8 as a whole are this one character (`encodes_of_firstOf`). What is decoded is what is encoded
there, every encoding is decoded, and all else is refused, for one of three reasons:
`decodes_exactly_utf8`.
-/
namespace TextMatch

open String (utf8Len)

namespace Utf8

theorem size_utf8Encode (cs : List Char) : cs.utf8Encode.size = utf8Len cs := by
  rw [← String.toByteArray_ofList, ← String.utf8ByteSize_ofList]
  rfl

theorem extract_of_decode {bytes : ByteArray} {offset : Nat} {c : Char}
    (decoded : bytes.utf8DecodeChar? offset = some c) :
    bytes.extract offset (offset + c.utf8Size) = [c].utf8Encode := by
  have encoded := ByteArray.utf8EncodeChar_utf8DecodeChar (h := by simp [decoded])
    (b := bytes) (i := offset)
  simp only [ByteArray.utf8DecodeChar, decoded, Option.get_some] at encoded
  rw [List.utf8Encode_singleton, encoded]

theorem decode_of_extract {bytes : ByteArray} {offset : Nat} {c : Char} {cs : List Char}
    {rest : ByteArray}
    (encoded : bytes.extract offset bytes.size = (c :: cs).utf8Encode ++ rest) :
    bytes.utf8DecodeChar? offset = some c := by
  rw [ByteArray.utf8DecodeChar?_eq_utf8DecodeChar?_extract, encoded, List.utf8Encode_cons,
    ByteArray.append_assoc]
  exact List.utf8DecodeChar?_utf8Encode_singleton_append

theorem byte?_of_lt {bytes : ByteArray} {i : Nat} (inside : i < bytes.size) :
    byte? bytes i = some bytes[i] := dif_pos inside

theorem byte?_eq_none_iff {bytes : ByteArray} {i : Nat} :
    byte? bytes i = none ↔ bytes.size ≤ i := by
  simp [byte?]

/-- The bytes that encode one character: a byte below `0x80`, or a lead with as many continuation
bytes as it announces, the first of them one that can follow this lead. -/
inductive Sequence : List UInt8 → Prop
  | one {a : UInt8} (small : a < 0x80) : Sequence [a]
  | two {a b : UInt8} (leads : a ≤ 0xDF) (follows : canFollow a b = true) : Sequence [a, b]
  | three {a b c : UInt8} (leads : 0xE0 ≤ a ∧ a ≤ 0xEF) (follows : canFollow a b = true)
      (continues : isContinuation c = true) : Sequence [a, b, c]
  | four {a b c d : UInt8} (leads : 0xF0 ≤ a) (follows : canFollow a b = true)
      (continues : isContinuation c = true) (ends : isContinuation d = true) :
      Sequence [a, b, c, d]

theorem isContinuation_iff {b : UInt8} :
    isContinuation b = true ↔ 0x80 ≤ b.toNat ∧ b.toNat ≤ 0xBF := by
  simp [isContinuation, UInt8.le_iff_toNat_le]

/-- The table of leads by its bounds. -/
theorem canFollow_iff {a b : UInt8} : canFollow a b = true ↔
    0xC2 ≤ a.toNat ∧ a.toNat ≤ 0xF4 ∧ 0x80 ≤ b.toNat ∧ b.toNat ≤ 0xBF ∧
      (a.toNat = 0xE0 → 0xA0 ≤ b.toNat) ∧ (a.toNat = 0xED → b.toNat ≤ 0x9F) ∧
      (a.toNat = 0xF0 → 0x90 ≤ b.toNat) ∧ (a.toNat = 0xF4 → b.toNat ≤ 0x8F) := by
  unfold canFollow isContinuation
  simp only [UInt8.lt_iff_toNat_lt, UInt8.le_iff_toNat_le, ← UInt8.toNat_inj, UInt8.reduceToNat]
  grind

theorem isScalar (c : Char) :
    c.val.toNat < 0xD800 ∨ 0xDFFF < c.val.toNat ∧ c.val.toNat < 0x110000 :=
  c.valid

theorem exists_scalar {v : Nat} (scalar : v < 0xD800 ∨ 0xDFFF < v ∧ v < 0x110000) :
    ∃ c : Char, c.val.toNat = v :=
  ⟨.ofNatAux v scalar, rfl⟩

theorem sequence_encode (c : Char) : Sequence (String.utf8EncodeChar c) := by
  have scalar := isScalar c
  fun_cases String.utf8EncodeChar c
  · refine .one ?_
    simp only [UInt8.lt_iff_toNat_lt, UInt8.toNat_ofNat', UInt8.reduceToNat]
    omega
  · refine .two ?_ (canFollow_iff.mpr ?_)
    all_goals
      simp only [UInt8.le_iff_toNat_le, UInt8.toNat_ofNat', UInt8.reduceToNat]
      omega
  · refine .three ?_ (canFollow_iff.mpr ?_) (isContinuation_iff.mpr ?_)
    all_goals
      simp only [UInt8.le_iff_toNat_le, UInt8.toNat_ofNat', UInt8.reduceToNat]
      omega
  · refine .four ?_ (canFollow_iff.mpr ?_) (isContinuation_iff.mpr ?_)
      (isContinuation_iff.mpr ?_)
    all_goals
      simp only [UInt8.le_iff_toNat_le, UInt8.toNat_ofNat', UInt8.reduceToNat]
      omega

theorem encode_ofUInt8 {a : UInt8} (small : a < 0x80) :
    String.utf8EncodeChar (.ofUInt8 a) = [a] := by
  have value : (Char.ofUInt8 a).val.toNat = a.toNat := UInt8.toNat_toUInt32 a
  have bound : a.toNat ≤ 127 := by
    simp only [UInt8.lt_iff_toNat_lt, UInt8.reduceToNat] at small
    omega
  unfold String.utf8EncodeChar
  dsimp only
  rw [value, if_pos bound, UInt8.ofNat_toNat]

/-- Every such sequence encodes some character. -/
theorem Sequence.exists_encode {bytes : List UInt8} (sequence : Sequence bytes) :
    ∃ c, String.utf8EncodeChar c = bytes := by
  cases sequence with
  | one small => exact ⟨_, encode_ofUInt8 small⟩
  | @two a b leads follows =>
    simp only [canFollow_iff, UInt8.le_iff_toNat_le, UInt8.reduceToNat] at leads follows
    obtain ⟨x, value⟩ := exists_scalar
      (v := (a.toNat - 0xC0) * 64 + (b.toNat - 0x80)) (by omega)
    refine ⟨x, ?_⟩
    unfold String.utf8EncodeChar
    dsimp only
    rw [if_neg (by omega), if_pos (by omega)]
    simp only [List.cons.injEq, ← UInt8.toNat_inj, UInt8.toNat_ofNat', and_true]
    omega
  | @three a b c leads follows continues =>
    simp only [canFollow_iff, isContinuation_iff, UInt8.le_iff_toNat_le, UInt8.reduceToNat]
      at leads follows continues
    obtain ⟨x, value⟩ := exists_scalar
      (v := (a.toNat - 0xE0) * 4096 + (b.toNat - 0x80) * 64 + (c.toNat - 0x80)) (by omega)
    refine ⟨x, ?_⟩
    unfold String.utf8EncodeChar
    dsimp only
    rw [if_neg (by omega), if_neg (by omega), if_pos (by omega)]
    simp only [List.cons.injEq, ← UInt8.toNat_inj, UInt8.toNat_ofNat', and_true]
    omega
  | @four a b c d leads follows continues ends =>
    simp only [canFollow_iff, isContinuation_iff, UInt8.le_iff_toNat_le, UInt8.reduceToNat]
      at leads follows continues ends
    obtain ⟨x, value⟩ := exists_scalar
      (v := (a.toNat - 0xF0) * 262144 + (b.toNat - 0x80) * 4096 + (c.toNat - 0x80) * 64 +
        (d.toNat - 0x80)) (by omega)
    refine ⟨x, ?_⟩
    unfold String.utf8EncodeChar
    dsimp only
    rw [if_neg (by omega), if_neg (by omega), if_neg (by omega)]
    simp only [List.cons.injEq, ← UInt8.toNat_inj, UInt8.toNat_ofNat', and_true]
    omega

/-- The first byte announces the length. -/
theorem Sequence.length_eq {lead : UInt8} {tail : List UInt8} (sequence : Sequence (lead :: tail)) :
    leadWidth lead = tail.length + 1 := by
  unfold leadWidth
  simp only [UInt8.lt_iff_toNat_lt, UInt8.le_iff_toNat_le, UInt8.reduceToNat]
  cases sequence with
  | one small =>
    simp only [UInt8.lt_iff_toNat_lt, UInt8.reduceToNat] at small
    rw [if_pos (by omega)]
    rfl
  | two leads follows =>
    simp only [canFollow_iff, UInt8.le_iff_toNat_le, UInt8.reduceToNat] at leads follows
    rw [if_neg (by omega), if_pos (by omega)]
    rfl
  | three leads follows continues =>
    simp only [UInt8.le_iff_toNat_le, UInt8.reduceToNat] at leads
    rw [if_neg (by omega), if_neg (by omega), if_pos (by omega)]
    rfl
  | four leads follows continues ends =>
    simp only [canFollow_iff, UInt8.le_iff_toNat_le, UInt8.reduceToNat] at leads follows
    rw [if_neg (by omega), if_neg (by omega), if_neg (by omega), if_pos (by omega)]
    rfl

/-- A lead that announces more bytes is followed by one that can follow it. -/
theorem Sequence.follows {lead : UInt8} {tail : List UInt8} (sequence : Sequence (lead :: tail))
    (wide : 0x80 ≤ lead) : ∃ second rest, tail = second :: rest ∧ canFollow lead second = true := by
  cases sequence with
  | one small => exact absurd small (UInt8.not_lt.mpr wide)
  | two _ follows => exact ⟨_, _, rfl, follows⟩
  | three _ follows _ => exact ⟨_, _, rfl, follows⟩
  | four _ follows _ _ => exact ⟨_, _, rfl, follows⟩

theorem Sequence.continues {lead b : UInt8} {tail : List UInt8}
    (sequence : Sequence (lead :: tail)) (later : b ∈ tail) : isContinuation b = true := by
  have second : ∀ {a b : UInt8}, canFollow a b = true → isContinuation b = true := by
    intro a b follows
    rw [canFollow_iff] at follows
    exact isContinuation_iff.mpr ⟨follows.2.2.1, follows.2.2.2.1⟩
  cases sequence with
  | one small => cases later
  | two _ follows =>
    obtain rfl : b = _ := by simpa using later
    exact second follows
  | three _ follows continues =>
    simp only [List.mem_cons, List.not_mem_nil, or_false] at later
    rcases later with rfl | rfl
    · exact second follows
    · exact continues
  | four _ follows continues ends =>
    simp only [List.mem_cons, List.not_mem_nil, or_false] at later
    rcases later with rfl | rfl | rfl
    · exact second follows
    · exact continues
    · exact ends

theorem leadWidth_eq {lead : UInt8} (leads : 0xC2 ≤ lead ∧ lead ≤ 0xF4) :
    leadWidth lead = 2 ∧ lead ≤ 0xDF ∨ leadWidth lead = 3 ∧ 0xE0 ≤ lead ∧ lead ≤ 0xEF ∨
      leadWidth lead = 4 ∧ 0xF0 ≤ lead := by
  unfold leadWidth
  simp only [UInt8.lt_iff_toNat_lt, UInt8.le_iff_toNat_le, UInt8.reduceToNat] at leads ⊢
  split_ifs
  all_goals omega

theorem leadWidth_of_encode {c : Char} {lead : UInt8} {tail : List UInt8}
    (encoded : String.utf8EncodeChar c = lead :: tail) : leadWidth lead = c.utf8Size := by
  have sequence := sequence_encode c
  rw [encoded] at sequence
  rw [sequence.length_eq, ← String.length_utf8EncodeChar, encoded, List.length_cons]

/-- A byte below `0x80` is the whole encoding. -/
theorem eq_ofUInt8_of_encode {c : Char} {lead : UInt8} {tail : List UInt8}
    (encoded : String.utf8EncodeChar c = lead :: tail) (small : lead < 0x80) :
    c = .ofUInt8 lead := by
  have sequence := sequence_encode c
  rw [encoded] at sequence
  have alone : tail = [] := by
    have length := sequence.length_eq
    unfold leadWidth at length
    rw [if_pos (by simp only [UInt8.lt_iff_toNat_lt, UInt8.reduceToNat] at small ⊢; omega)]
      at length
    exact List.length_eq_zero_iff.mp (by omega)
  have decoded : [c].utf8Encode.utf8DecodeChar? 0 = some (.ofUInt8 lead) := by
    rw [List.utf8Encode_singleton, encoded, alone, ← encode_ofUInt8 small,
      ← List.utf8Encode_singleton, List.utf8DecodeChar?_utf8Encode_singleton]
  rw [List.utf8DecodeChar?_utf8Encode_singleton] at decoded
  exact Option.some.inj decoded

/-- No byte below `0x80` belongs to the encoding of another character. -/
theorem encode_of_mem {c : Char} {b : UInt8} (found : b ∈ String.utf8EncodeChar c)
    (small : b < 0x80) : c = .ofUInt8 b ∧ String.utf8EncodeChar c = [b] := by
  have sequence := sequence_encode c
  generalize encoded : String.utf8EncodeChar c = bytes at found sequence
  cases bytes with
  | nil => cases found
  | cons lead tail =>
    rcases List.mem_cons.mp found with rfl | later
    · have point := eq_ofUInt8_of_encode encoded small
      refine ⟨point, ?_⟩
      rw [← encoded, point, encode_ofUInt8 small]
    · have wide := (isContinuation_iff.mp (sequence.continues later)).1
      simp only [UInt8.lt_iff_toNat_lt, UInt8.reduceToNat] at small
      omega

theorem firstOf_eq_some_iff {window : ByteArray} {c : Char} :
    firstOf window = some c ↔ ∃ cs, window = (c :: cs).utf8Encode := by
  unfold firstOf String.fromUTF8?
  constructor
  · intro found
    split at found
    · next valid =>
      obtain ⟨cs, chars⟩ := List.head?_eq_some_iff.mp found
      refine ⟨cs, ?_⟩
      rw [← chars, String.utf8Encode_toList]
      rfl
    · cases found
  · rintro ⟨cs, rfl⟩
    have valid : (c :: cs).utf8Encode.IsValidUTF8 := ⟨_, rfl⟩
    have text : String.fromUTF8 _ valid = String.ofList (c :: cs) := by
      rw [← String.toByteArray_inj, String.toByteArray_ofList]
      rfl
    rw [dif_pos valid, Option.bind_some, text, String.toList_ofList]
    rfl

theorem byte?_eq_getElem? (bytes : ByteArray) (i : Nat) : byte? bytes i = bytes.data[i]? := by
  by_cases inside : i < bytes.size
  · rw [byte?_of_lt inside, Array.getElem?_eq_getElem inside]
    rfl
  · rw [byte?_eq_none_iff.mpr (Nat.le_of_not_lt inside), Array.getElem?_eq_none]
    exact Nat.le_of_not_lt inside

theorem byte?_extract_of_lt (bytes : ByteArray) {start stop i : Nat}
    (inside : start + i < stop) :
    byte? (bytes.extract start stop) i = byte? bytes (start + i) := by
  rw [byte?_eq_getElem?, byte?_eq_getElem?, ByteArray.data_extract, Array.getElem?_extract]
  by_cases within : start + i < bytes.data.size
  · rw [if_pos (by omega)]
  · rw [if_neg (by omega), Array.getElem?_eq_none (Nat.le_of_not_lt within)]

theorem byte?_toByteArray (bytes : List UInt8) (i : Nat) :
    byte? bytes.toByteArray i = bytes[i]? := by
  rw [byte?_eq_getElem?, List.data_toByteArray, List.getElem?_toArray]

theorem lt_size_of_byte? {bytes : ByteArray} {i : Nat} {b : UInt8}
    (found : byte? bytes i = some b) :
    i < bytes.size := by
  refine Nat.lt_of_not_le fun beyond => ?_
  rw [byte?_eq_none_iff.mpr beyond] at found
  cases found

theorem extract_of_byte? {bytes : ByteArray} {i : Nat} {b : UInt8}
    (found : byte? bytes i = some b) : bytes.extract i (i + 1) = [b].toByteArray := by
  have inside := lt_size_of_byte? found
  rw [byte?_of_lt inside, Option.some.injEq] at found
  rw [ByteArray.extract_add_one inside, found]

theorem exists_lead (c : Char) : ∃ lead tail, String.utf8EncodeChar c = lead :: tail := by
  refine List.exists_cons_of_length_pos ?_
  rw [String.length_utf8EncodeChar]
  exact c.utf8Size_pos

end Utf8

namespace Source

/-- The `n` bytes at `offset` are the encoding of `c`. -/
structure Encodes (s : Source) (offset n : Nat) (c : Char) : Prop where
  inside : offset + n ≤ s.size
  bytes_eq : s.bytes.extract offset (offset + n) = (String.utf8EncodeChar c).toByteArray

variable {s : Source} {offset n : Nat} {c : Char} {lead : UInt8}

theorem Encodes.width (encodes : s.Encodes offset n c) : n = c.utf8Size := by
  have inside := encodes.inside
  have sizes := congrArg ByteArray.size encodes.bytes_eq
  rw [List.size_toByteArray, String.length_utf8EncodeChar, ByteArray.size_extract] at sizes
  unfold size at inside
  omega

theorem Encodes.byte? (encodes : s.Encodes offset n c) {i : Nat} (inside : i < n) :
    Utf8.byte? s.bytes (offset + i) = (String.utf8EncodeChar c)[i]? := by
  have same := Utf8.byte?_extract_of_lt s.bytes (Nat.add_lt_add_left inside offset)
  rw [encodes.bytes_eq, Utf8.byte?_toByteArray] at same
  exact same.symm

theorem Encodes.begins (encodes : s.Encodes offset n c) : ∃ lead tail,
    String.utf8EncodeChar c = lead :: tail ∧ Utf8.byte? s.bytes offset = some lead := by
  obtain ⟨lead, tail, encoded⟩ := Utf8.exists_lead c
  have first := encodes.byte? (encodes.width ▸ c.utf8Size_pos)
  rw [encoded] at first
  exact ⟨lead, tail, encoded, first⟩

/-- A byte below `0x80` is a character by itself. -/
theorem encodes_of_small (begins : Utf8.byte? s.bytes offset = some lead) (small : lead < 0x80) :
    s.Encodes offset 1 (.ofUInt8 lead) := by
  refine ⟨Utf8.lt_size_of_byte? begins, ?_⟩
  rw [Utf8.extract_of_byte? begins, Utf8.encode_ofUInt8 small]

/-- Bytes that are UTF-8 as a whole, and as many as their first one announces, are one character. -/
theorem encodes_of_firstOf (begins : Utf8.byte? s.bytes offset = some lead)
    (inside : offset + Utf8.leadWidth lead ≤ s.size)
    (found : Utf8.firstOf (s.bytes.extract offset (offset + Utf8.leadWidth lead)) = some c) :
    s.Encodes offset (Utf8.leadWidth lead) c := by
  obtain ⟨cs, whole⟩ := Utf8.firstOf_eq_some_iff.mp found
  have sizes := congrArg ByteArray.size whole
  rw [Utf8.size_utf8Encode, ByteArray.size_extract, String.utf8Len_cons] at sizes
  obtain ⟨first, tail, encoded⟩ := Utf8.exists_lead c
  have wide : offset + 0 < offset + Utf8.leadWidth lead := by
    have := c.utf8Size_pos
    unfold size at inside
    omega
  have same := Utf8.byte?_extract_of_lt s.bytes wide
  rw [whole, List.utf8Encode, Utf8.byte?_toByteArray, List.flatMap_cons, encoded] at same
  have leads : lead = first := by
    rw [Nat.add_zero, begins] at same
    exact (Option.some.inj same).symm
  have width := Utf8.leadWidth_of_encode encoded
  rw [← leads] at width
  have nothing : cs = [] := by
    unfold size at inside
    exact String.utf8Len_eq_zero.mp (by omega)
  refine ⟨inside, ?_⟩
  rw [whole, nothing, List.utf8Encode_singleton]

theorem decodeAt_of_encodes (encodes : s.Encodes offset n c) :
    s.decodeAt offset = .ok (some (c, n)) := by
  obtain ⟨lead, tail, encoded, begins⟩ := encodes.begins
  have width := Utf8.leadWidth_of_encode encoded
  rw [← encodes.width] at width
  unfold decodeAt
  rw [begins]
  dsimp only
  by_cases small : lead < 0x80
  · have alone := Utf8.eq_ofUInt8_of_encode encoded small
    have one : n = 1 := by
      rw [encodes.width, ← String.length_utf8EncodeChar, alone, Utf8.encode_ofUInt8 small]
      rfl
    rw [if_pos small, alone, one]
  · have found : Utf8.firstOf (s.bytes.extract offset (offset + n)) = some c := by
      refine Utf8.firstOf_eq_some_iff.mpr ⟨[], ?_⟩
      rw [encodes.bytes_eq, List.utf8Encode_singleton]
    rw [if_neg small, width, if_neg (Nat.not_lt.mpr encodes.inside), found]

theorem encodes_of_decodeAt (decoded : s.decodeAt offset = .ok (some (c, n))) :
    s.Encodes offset n c := by
  unfold decodeAt at decoded
  split at decoded
  · cases decoded
  · next lead begins =>
    dsimp only at decoded
    split at decoded
    · next small =>
      cases decoded
      exact encodes_of_small begins small
    · split at decoded
      · cases decoded
      · next inside =>
        split at decoded
        · next found =>
          cases decoded
          exact encodes_of_firstOf begins (Nat.not_lt.mp inside) found
        · cases decoded

theorem decodeAt_eq_some_iff : s.decodeAt offset = .ok (some (c, n)) ↔ s.Encodes offset n c :=
  ⟨encodes_of_decodeAt, decodeAt_of_encodes⟩

/-- The width that is decoded with a point is that of the point. -/
theorem width_of_decodeAt (decoded : s.decodeAt offset = .ok (some (c, n))) : n = c.utf8Size :=
  (encodes_of_decodeAt decoded).width

theorem eq_of_decodeAt_error {e : ScanError} (failed : s.decodeAt offset = .error e) :
    e = .malformed offset := by
  unfold decodeAt at failed
  dsimp only at failed
  repeat' split at failed
  all_goals cases failed
  all_goals rfl

theorem decodeAt_eq_error_iff {e : ScanError} :
    s.decodeAt offset = .error e ↔
      e = .malformed offset ∧ offset < s.size ∧ ∀ c n, ¬ s.Encodes offset n c := by
  constructor
  · intro failed
    refine ⟨eq_of_decodeAt_error failed, ?_, ?_⟩
    · refine Nat.lt_of_not_le fun beyond => ?_
      rw [decodeAt_eq_none_iff.mpr beyond] at failed
      cases failed
    · intro c n encodes
      rw [decodeAt_of_encodes encodes] at failed
      cases failed
  · rintro ⟨rfl, inside, nothing⟩
    match found : s.decodeAt offset with
    | .error _ => rw [eq_of_decodeAt_error found]
    | .ok none => exact absurd (decodeAt_eq_none_iff.mp found) (Nat.not_le.mpr inside)
    | .ok (some (c, n)) => exact absurd (encodes_of_decodeAt found) (nothing c n)

/-! What the standard library's decoder finds at an offset. -/

theorem encodes_iff_decode :
    s.Encodes offset c.utf8Size c ↔ s.bytes.utf8DecodeChar? offset = some c := by
  constructor
  · intro encodes
    have begins : s.bytes.extract offset s.bytes.size =
        [c].utf8Encode ++ s.bytes.extract (offset + c.utf8Size) s.bytes.size := by
      rw [List.utf8Encode_singleton, ← encodes.bytes_eq]
      exact ByteArray.extract_eq_extract_append_extract _ (Nat.le_add_right _ _) encodes.inside
    exact Utf8.decode_of_extract begins
  · intro decoded
    refine ⟨ByteArray.le_size_of_utf8DecodeChar?_eq_some decoded, ?_⟩
    rw [Utf8.extract_of_decode decoded, List.utf8Encode_singleton]

theorem pointAt_eq_some_iff {point : Char} :
    s.pointAt offset = .ok (some point) ↔ s.bytes.utf8DecodeChar? offset = some point := by
  rw [← encodes_iff_decode, ← decodeAt_eq_some_iff, pointAt]
  cases found : s.decodeAt offset with
  | error e => simp [Except.map]
  | ok decoded =>
    cases decoded with
    | none => simp [Except.map]
    | some first =>
      have width := width_of_decodeAt found
      simp only [Except.map, Option.map_some, Except.ok.injEq, Option.some.injEq, Prod.ext_iff]
      constructor
      · rintro rfl
        exact ⟨rfl, width⟩
      · exact And.left

theorem decodeAt_of_pointAt (found : s.pointAt offset = .ok (some c)) :
    s.decodeAt offset = .ok (some (c, c.utf8Size)) :=
  decodeAt_of_encodes (encodes_iff_decode.mpr (pointAt_eq_some_iff.mp found))

theorem pointAt_of_undecoded (inside : offset < s.size)
    (undecoded : s.bytes.utf8DecodeChar? offset = none) :
    s.pointAt offset = .error (.malformed offset) := by
  have failed : s.decodeAt offset = .error (.malformed offset) := by
    refine decodeAt_eq_error_iff.mpr ⟨rfl, inside, fun c n encodes => ?_⟩
    have decoded := encodes_iff_decode.mp (encodes.width ▸ encodes)
    rw [undecoded] at decoded
    cases decoded
  rw [pointAt, failed]
  rfl

/-- Why no character is encoded at `offset`. -/
inductive Misfit (s : Source) (offset : Nat) : Prop
  /-- The byte there leads none: it continues one, or it would lead an overlong form or a value
  above `U+10FFFF`, or it announces nothing. -/
  | lead {lead : UInt8} (begins : Utf8.byte? s.bytes offset = some lead)
      (apart : 0x80 ≤ lead ∧ lead < 0xC2 ∨ 0xF4 < lead)
  /-- The two bytes there begin an overlong form, a surrogate or a value above `U+10FFFF`. -/
  | second {lead second : UInt8} (begins : Utf8.byte? s.bytes offset = some lead)
      (goesOn : Utf8.byte? s.bytes (offset + 1) = some second) (wide : 0x80 ≤ lead)
      (apart : Utf8.canFollow lead second = false)
  /-- Fewer continuation bytes follow than announced. -/
  | truncated {lead : UInt8} {i : Nat} (begins : Utf8.byte? s.bytes offset = some lead)
      (announced : 0 < i ∧ i < Utf8.leadWidth lead)
      (missing : ∀ b, Utf8.byte? s.bytes (offset + i) = some b → Utf8.isContinuation b = false)

theorem Misfit.inside (misfit : s.Misfit offset) : offset < s.size := by
  cases misfit with
  | lead begins => exact Utf8.lt_size_of_byte? begins
  | second begins => exact Utf8.lt_size_of_byte? begins
  | truncated begins => exact Utf8.lt_size_of_byte? begins

theorem Misfit.not_encodes (misfit : s.Misfit offset) : ¬ s.Encodes offset n c := by
  intro encodes
  obtain ⟨first, tail, encoded, begun⟩ := encodes.begins
  have sequence := Utf8.sequence_encode c
  rw [encoded] at sequence
  have length : tail.length + 1 = n := by
    rw [encodes.width, ← String.length_utf8EncodeChar, encoded, List.length_cons]
  cases misfit with
  | lead begins apart =>
    cases begun.symm.trans begins
    have wide : 0x80 ≤ first := by
      simp only [UInt8.lt_iff_toNat_lt, UInt8.le_iff_toNat_le, UInt8.reduceToNat] at apart ⊢
      omega
    obtain ⟨second, rest, -, follows⟩ := sequence.follows wide
    rw [Utf8.canFollow_iff] at follows
    simp only [UInt8.lt_iff_toNat_lt, UInt8.reduceToNat] at apart
    omega
  | second begins goesOn wide apart =>
    cases begun.symm.trans begins
    obtain ⟨second, rest, rfl, follows⟩ := sequence.follows wide
    rw [encodes.byte? (by rw [← length, List.length_cons]; omega), encoded] at goesOn
    cases goesOn
    rw [follows] at apart
    cases apart
  | @truncated lead i begins announced missing =>
    cases begun.symm.trans begins
    rw [sequence.length_eq, length] at announced
    obtain ⟨j, rfl⟩ : ∃ j, i = j + 1 := ⟨i - 1, by omega⟩
    have later : j < tail.length := by omega
    have found := encodes.byte? announced.2
    rw [encoded, List.getElem?_cons_succ, List.getElem?_eq_getElem later] at found
    have continues := sequence.continues (List.getElem_mem later)
    rw [missing _ found] at continues
    cases continues

/-- Where the bytes of a character stand one by one, it is encoded. -/
theorem encodes_of_byte? (stands : ∀ i (within : i < (String.utf8EncodeChar c).length),
    Utf8.byte? s.bytes (offset + i) = some (String.utf8EncodeChar c)[i]) :
    s.Encodes offset c.utf8Size c := by
  have length := String.length_utf8EncodeChar c
  have inside : offset + c.utf8Size ≤ s.size := by
    have wide := c.utf8Size_pos
    have last := stands (c.utf8Size - 1) (by omega)
    refine Nat.le_of_not_lt fun beyond => ?_
    rw [Utf8.byte?_eq_none_iff.mpr (by unfold size at beyond; omega)] at last
    cases last
  refine ⟨inside, ByteArray.ext (Array.ext_getElem? fun i => ?_)⟩
  rw [← Utf8.byte?_eq_getElem?, ← Utf8.byte?_eq_getElem?, Utf8.byte?_toByteArray]
  rcases Nat.lt_or_ge i c.utf8Size with within | beyond
  · rw [Utf8.byte?_extract_of_lt s.bytes (Nat.add_lt_add_left within offset), stands i (by omega),
      List.getElem?_eq_getElem]
  · have sizes : (s.bytes.extract offset (offset + c.utf8Size)).size ≤ i := by
      rw [ByteArray.size_extract]
      omega
    rw [Utf8.byte?_eq_none_iff.mpr sizes, List.getElem?_eq_none (by omega)]

/-- There is no other reason. -/
theorem exists_encodes_of_not_misfit (inside : offset < s.size) (fits : ¬ s.Misfit offset) :
    ∃ c n, s.Encodes offset n c := by
  have begins : Utf8.byte? s.bytes offset = some _ := Utf8.byte?_of_lt inside
  generalize s.bytes[offset] = lead at begins
  by_cases small : lead < 0x80
  · exact ⟨_, _, encodes_of_small begins small⟩
  have leads : 0xC2 ≤ lead ∧ lead ≤ 0xF4 := by
    by_contra apart
    refine fits (.lead begins ?_)
    simp only [UInt8.lt_iff_toNat_lt, UInt8.le_iff_toNat_le, UInt8.reduceToNat] at small apart ⊢
    omega
  have announced : ∀ i, 0 < i → i < Utf8.leadWidth lead →
      ∃ b, Utf8.byte? s.bytes (offset + i) = some b ∧ Utf8.isContinuation b = true := by
    intro i later within
    by_contra missing
    refine fits (.truncated begins ⟨later, within⟩ fun b found => ?_)
    by_contra continues
    exact missing ⟨b, found, by simpa using continues⟩
  have follows : ∀ second, Utf8.byte? s.bytes (offset + 1) = some second →
      Utf8.canFollow lead second = true := by
    intro second goesOn
    by_contra apart
    exact fits (.second begins goesOn (UInt8.not_lt.mp small) (by simpa using apart))
  rcases Utf8.leadWidth_eq leads with ⟨width, range⟩ | ⟨width, range⟩ | ⟨width, range⟩
  · obtain ⟨second, goesOn, -⟩ := announced 1 (by omega) (by omega)
    obtain ⟨c, encoded⟩ := (Utf8.Sequence.two range (follows _ goesOn)).exists_encode
    refine ⟨c, _, encodes_of_byte? fun i within => ?_⟩
    simp only [encoded, List.length_cons, List.length_nil] at within ⊢
    match i, within with
    | 0, _ => exact begins
    | 1, _ => exact goesOn
  · obtain ⟨second, goesOn, -⟩ := announced 1 (by omega) (by omega)
    obtain ⟨third, goesFurther, continues⟩ := announced 2 (by omega) (by omega)
    obtain ⟨c, encoded⟩ :=
      (Utf8.Sequence.three range (follows _ goesOn) continues).exists_encode
    refine ⟨c, _, encodes_of_byte? fun i within => ?_⟩
    simp only [encoded, List.length_cons, List.length_nil] at within ⊢
    match i, within with
    | 0, _ => exact begins
    | 1, _ => exact goesOn
    | 2, _ => exact goesFurther
  · obtain ⟨second, goesOn, -⟩ := announced 1 (by omega) (by omega)
    obtain ⟨third, goesFurther, continues⟩ := announced 2 (by omega) (by omega)
    obtain ⟨fourth, goesTo, ends⟩ := announced 3 (by omega) (by omega)
    obtain ⟨c, encoded⟩ :=
      (Utf8.Sequence.four range (follows _ goesOn) continues ends).exists_encode
    refine ⟨c, _, encodes_of_byte? fun i within => ?_⟩
    simp only [encoded, List.length_cons, List.length_nil] at within ⊢
    match i, within with
    | 0, _ => exact begins
    | 1, _ => exact goesOn
    | 2, _ => exact goesFurther
    | 3, _ => exact goesTo

theorem encodes_append (before : ByteArray) (c : Char) (rest : ByteArray) :
    (mk (before ++ [c].utf8Encode ++ rest)).Encodes before.size c.utf8Size c := by
  have width : [c].utf8Encode.size = c.utf8Size := by
    rw [Utf8.size_utf8Encode]
    simp
  have inside : before.size + c.utf8Size ≤ (before ++ [c].utf8Encode ++ rest).size := by
    rw [ByteArray.size_append, ByteArray.size_append, width]
    exact Nat.le_add_right _ _
  refine ⟨inside, ?_⟩
  rw [← List.utf8Encode_singleton, ByteArray.append_assoc]
  have behind : (before ++ ([c].utf8Encode ++ rest)).extract before.size
      (before.size + c.utf8Size) = ([c].utf8Encode ++ rest).extract 0 c.utf8Size :=
    ByteArray.extract_append_size_add (i := 0)
  rw [behind, ByteArray.extract_append_eq_left width.symm]

theorem misfit_iff :
    s.Misfit offset ↔ offset < s.size ∧ ∀ c n, ¬ s.Encodes offset n c := by
  constructor
  · intro misfit
    exact ⟨misfit.inside, fun c n => misfit.not_encodes⟩
  · rintro ⟨inside, nothing⟩
    by_contra fits
    obtain ⟨c, n, encodes⟩ := exists_encodes_of_not_misfit inside fits
    exact nothing c n encodes

/-- What decoding at an offset finds. -/
structure DecodesExactly (s : Source) (offset : Nat) : Prop where
  ended : s.decodeAt offset = .ok none ↔ s.size ≤ offset
  decoded : ∀ c n, s.decodeAt offset = .ok (some (c, n)) ↔ s.Encodes offset n c
  width : ∀ c n, s.Encodes offset n c → n = c.utf8Size ∧ 1 ≤ n ∧ n ≤ 4
  refused : ∀ e, s.decodeAt offset = .error e ↔ e = .malformed offset ∧ s.Misfit offset
  /-- The three reasons to refuse are all there are before the end. -/
  misfit : s.Misfit offset ↔ offset < s.size ∧ ∀ c n, ¬ s.Encodes offset n c

/-- Decoding accepts exactly UTF-8. From whatever offset it is asked, it finds a character where one
is encoded and refuses every other place before the end, and a character put behind any bytes is
found there again. -/
theorem decodes_exactly_utf8 :
    (∀ (s : Source) (offset : Nat), s.DecodesExactly offset) ∧
      ∀ (before : ByteArray) (c : Char) (rest : ByteArray),
        (mk (before ++ [c].utf8Encode ++ rest)).decodeAt before.size =
          .ok (some (c, c.utf8Size)) := by
  refine ⟨fun s offset => ?_, fun before c rest => ?_⟩
  · exact
      { ended := decodeAt_eq_none_iff
        decoded := fun c n => decodeAt_eq_some_iff
        width := fun c n encodes => by
          have width := encodes.width
          exact ⟨width, width ▸ c.utf8Size_pos, width ▸ c.utf8Size_le_four⟩
        refused := fun e => by rw [decodeAt_eq_error_iff, misfit_iff]
        misfit := misfit_iff }
  · exact decodeAt_of_encodes (encodes_append before c rest)

/-- Three bytes are announced, and they would encode a surrogate. -/
example : (mk ⟨#[0x61, 0xED, 0xA0, 0x80]⟩).decodeAt 1 = .error (.malformed 1) := by decide

end Source
end TextMatch
