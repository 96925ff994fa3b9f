import TextMatch.Proofs.Source.Shown

/-!
# What is shown of bytes that are no text

Bytes are shown as the characters that they encode. Where none is encoded, a replacement character
stands for the longest part with which some encoding begins, or for one byte where none does. The
relation `Utf8.ShownAs` says so without an algorithm: it leaves no choice (`ShownAs.unique`), and
what the text of a source consists of is what it allows (`Source.text_shownAs`).
-/
namespace TextMatch

namespace Utf8

/-- Encodings are not found at the front of the bytes, but `part` is there: the longest part of
them with which some encoding begins, or else one byte. -/
structure Broken (part rest : List UInt8) : Prop where
  uncoded : ∀ c, ¬String.utf8EncodeChar c <+: part ++ rest
  nonempty : part ≠ []
  begins : part.length = 1 ∨ ∃ c, part <+: String.utf8EncodeChar c
  longest : ∀ c longer, longer <+: part ++ rest → longer <+: String.utf8EncodeChar c →
    longer.length ≤ part.length

/-- The bytes are shown as the characters. -/
inductive ShownAs : List UInt8 → List Char → Prop
  | nil : ShownAs [] []
  | encoded {rest : List UInt8} {shown : List Char} (c : Char) (later : ShownAs rest shown) :
      ShownAs (String.utf8EncodeChar c ++ rest) (c :: shown)
  | broken {part rest : List UInt8} {shown : List Char} (instead : Broken part rest)
      (later : ShownAs rest shown) : ShownAs (part ++ rest) ('\uFFFD' :: shown)

/-! There is no choice. -/

theorem decode_encode_append (c : Char) (rest : List UInt8) :
    (String.utf8EncodeChar c ++ rest).toByteArray.utf8DecodeChar? 0 = some c := by
  rw [List.toByteArray_append, ← List.utf8Encode_singleton]
  exact List.utf8DecodeChar?_utf8Encode_singleton_append

/-- The first of the encodings in a row is known from the bytes. -/
theorem encode_append_inj {c d : Char} {rest rest' : List UInt8}
    (same : String.utf8EncodeChar c ++ rest = String.utf8EncodeChar d ++ rest') :
    c = d ∧ rest = rest' := by
  have first := decode_encode_append c rest
  rw [same, decode_encode_append d rest', Option.some.injEq] at first
  subst first
  exact ⟨rfl, List.append_cancel_left same⟩

/-- The part that is replaced is known from the bytes. -/
theorem Broken.unique {part part' rest rest' : List UInt8} (first : Broken part rest)
    (second : Broken part' rest') (same : part ++ rest = part' ++ rest') : part = part' := by
  have shorter {part part' rest rest' : List UInt8} (first : Broken part rest)
      (second : Broken part' rest') (same : part ++ rest = part' ++ rest') :
      part'.length ≤ part.length := by
    rcases second.begins with one | ⟨c, begins⟩
    · have some := List.length_pos_of_ne_nil first.nonempty
      omega
    · exact first.longest c part' ⟨rest', same.symm⟩ begins
  exact (List.append_inj same (Nat.le_antisymm (shorter second first same.symm)
    (shorter first second same))).1

theorem ShownAs.eq_of_bytes_eq {bytes bytes' : List UInt8} {shown shown' : List Char}
    (first : ShownAs bytes shown) (second : ShownAs bytes' shown') (same : bytes = bytes') :
    shown = shown' := by
  induction first generalizing bytes' shown' with
  | nil =>
    cases second with
    | nil => rfl
    | encoded c =>
      obtain ⟨lead, tail, encoded⟩ := exists_lead c
      rw [encoded] at same
      cases same
    | broken instead => exact absurd (List.append_eq_nil_iff.mp same.symm).1 instead.nonempty
  | encoded c later ih =>
    cases second with
    | nil =>
      obtain ⟨lead, tail, encoded⟩ := exists_lead c
      rw [encoded] at same
      cases same
    | encoded d later' =>
      obtain ⟨rfl, rest⟩ := encode_append_inj same
      rw [ih later' rest]
    | broken instead => exact absurd ⟨_, same⟩ (instead.uncoded c)
  | broken instead later ih =>
    cases second with
    | nil => exact absurd (List.append_eq_nil_iff.mp same).1 instead.nonempty
    | encoded d => exact absurd ⟨_, same.symm⟩ (instead.uncoded d)
    | broken instead' later' =>
      obtain rfl := instead.unique instead' same
      rw [ih later' (List.append_cancel_left same)]

theorem ShownAs.unique {bytes : List UInt8} {shown shown' : List Char}
    (first : ShownAs bytes shown) (second : ShownAs bytes shown') : shown = shown' :=
  first.eq_of_bytes_eq second rfl

/-! The part that the decoder replaces. -/

/-- Two bytes of which the second can follow the first begin an encoding. -/
theorem exists_encode_two {a b : UInt8} (follows : canFollow a b = true) :
    ∃ c, [a, b] <+: String.utf8EncodeChar c := by
  have small : isContinuation 0x80 = true := by decide
  have bounds := canFollow_iff.mp follows
  have leads : 0xC2 ≤ a ∧ a ≤ 0xF4 := ⟨by simpa [UInt8.le_iff_toNat_le] using bounds.1,
    by simpa [UInt8.le_iff_toNat_le] using bounds.2.1⟩
  rcases leadWidth_eq leads with ⟨_, range⟩ | ⟨_, range⟩ | ⟨_, range⟩
  · obtain ⟨c, encoded⟩ := (Sequence.two range follows).exists_encode
    exact ⟨c, [], encoded.symm⟩
  · obtain ⟨c, encoded⟩ := (Sequence.three range follows small).exists_encode
    exact ⟨c, [0x80], encoded.symm⟩
  · obtain ⟨c, encoded⟩ := (Sequence.four range follows small small).exists_encode
    exact ⟨c, [0x80, 0x80], encoded.symm⟩

theorem exists_encode_three {a b c : UInt8} (leads : 0xF0 ≤ a) (follows : canFollow a b = true)
    (continues : isContinuation c = true) : ∃ d, [a, b, c] <+: String.utf8EncodeChar d := by
  have small : isContinuation 0x80 = true := by decide
  obtain ⟨d, encoded⟩ := (Sequence.four leads follows continues small).exists_encode
  exact ⟨d, [0x80], encoded.symm⟩

theorem byte?_eq_toList (bytes : ByteArray) (i : Nat) : byte? bytes i = bytes.data.toList[i]? := by
  rw [byte?_eq_getElem?, Array.getElem?_toList]

/-- How many bytes the decoder replaces, by the first few of them. -/
inductive Subpart : List UInt8 → Nat → Prop
  | one {bytes : List UInt8} (some : bytes ≠ [])
      (apart : ∀ a b tail, bytes = a :: b :: tail → canFollow a b = false) : Subpart bytes 1
  | two {a b : UInt8} {tail : List UInt8} (follows : canFollow a b = true)
      (apart : 0xF0 ≤ a → ∀ c more, tail = c :: more → isContinuation c = false) :
      Subpart (a :: b :: tail) 2
  | three {a b c : UInt8} {tail : List UInt8} (leads : 0xF0 ≤ a) (follows : canFollow a b = true)
      (continues : isContinuation c = true) : Subpart (a :: b :: c :: tail) 3

theorem Subpart.of_apart {a b : UInt8} {tail : List UInt8} (apart : canFollow a b = false) :
    Subpart (a :: b :: tail) 1 := by
  refine .one (List.cons_ne_nil _ _) ?_
  rintro _ _ _ ⟨⟩
  exact apart

theorem subpart_brokenLength {bytes : ByteArray} (some : bytes.data.toList ≠ []) :
    Subpart bytes.data.toList (brokenLength bytes 0) := by
  unfold brokenLength
  simp only [byte?_eq_toList]
  generalize bytes.data.toList = listed at some
  rcases listed with _ | ⟨a, _ | ⟨b, _ | ⟨c, tail⟩⟩⟩
  · exact absurd rfl some
  · exact .one some nofun
  · change Subpart [a, b] (if canFollow a b then 2 else 1)
    cases follows : canFollow a b with
    | true => exact .two follows nofun
    | false => exact .of_apart follows
  · change Subpart (a :: b :: c :: tail)
      (if canFollow a b then if 0xF0 ≤ a && isContinuation c then 3 else 2 else 1)
    cases follows : canFollow a b with
    | true =>
      rw [if_pos rfl]
      split
      · next third =>
        simp only [Bool.and_eq_true, decide_eq_true_eq] at third
        exact .three third.1 follows third.2
      · next third =>
        simp only [Bool.and_eq_true, decide_eq_true_eq, not_and, Bool.not_eq_true] at third
        refine .two follows fun leads _ _ same => ?_
        cases same
        exact third leads
    | false => exact .of_apart follows

theorem Sequence.canFollow_second {a b : UInt8} {tail : List UInt8}
    (sequence : Sequence (a :: b :: tail)) : canFollow a b = true := by
  cases sequence <;> assumption

theorem Sequence.third {a b c : UInt8} {tail : List UInt8}
    (sequence : Sequence (a :: b :: c :: tail)) (goesOn : tail ≠ []) :
    0xF0 ≤ a ∧ isContinuation c = true ∧ tail.length = 1 := by
  cases sequence with
  | three => exact absurd rfl goesOn
  | four leads _ continues _ => exact ⟨leads, continues, rfl⟩

/-- An encoding that goes on behind the bytes that are there shares no more of them than these. -/
theorem Subpart.length_le {bytes shared more : List UInt8} {k : Nat} (subpart : Subpart bytes k)
    (within : shared <+: bytes) (sequence : Sequence (shared ++ more)) (goesOn : more ≠ []) :
    shared.length ≤ k := by
  obtain ⟨behind, rfl⟩ := within
  rcases shared with _ | ⟨a, _ | ⟨b, _ | ⟨c, common⟩⟩⟩
  · exact Nat.zero_le k
  · cases subpart <;> simp
  · obtain ⟨d, tail, rfl⟩ := List.exists_cons_of_ne_nil goesOn
    have follows := Sequence.canFollow_second sequence
    cases subpart with
    | one _ apart =>
      rw [apart a b _ rfl] at follows
      cases follows
    | two | three => simp
  · have follows := Sequence.canFollow_second sequence
    obtain ⟨leads, continues, one⟩ :=
      Sequence.third sequence (List.append_ne_nil_of_right_ne_nil common goesOn)
    cases subpart with
    | one _ apart =>
      rw [apart a b _ rfl] at follows
      cases follows
    | two _ apart =>
      rw [apart leads c _ rfl] at continues
      cases continues
    | three =>
      have some := List.length_pos_of_ne_nil goesOn
      have alone : common.length + more.length = 1 := List.length_append.symm.trans one
      rw [List.length_cons, List.length_cons, List.length_cons]
      omega

/-- Where no character is encoded, such a part is the one to replace. -/
theorem Subpart.broken {bytes : List UInt8} {k : Nat} (subpart : Subpart bytes k)
    (uncoded : ∀ c, ¬String.utf8EncodeChar c <+: bytes) :
    Broken (bytes.take k) (bytes.drop k) := by
  have fits : k ≤ bytes.length := by
    cases subpart with
    | one some => exact List.length_pos_of_ne_nil some
    | two | three => simp
  have length : (bytes.take k).length = k := by rw [List.length_take, Nat.min_eq_left fits]
  refine ⟨by rwa [List.take_append_drop], ?_, ?_, ?_⟩
  · rintro nothing
    rw [nothing] at length
    cases subpart <;> cases length
  · cases subpart with
    | one => exact .inl length
    | two follows => exact .inr (exists_encode_two follows)
    | three leads follows continues => exact .inr (exists_encode_three leads follows continues)
  · rintro c longer within ⟨more, encoded⟩
    rw [List.take_append_drop] at within
    rw [length]
    have sequence := sequence_encode c
    rw [← encoded] at sequence
    refine subpart.length_le within sequence ?_
    -- no encoding ends within the bytes
    rintro rfl
    rw [List.append_nil] at encoded
    exact uncoded c (encoded ▸ within)

theorem toList_extract_size (bytes : ByteArray) (i : Nat) :
    (bytes.extract i bytes.size).data.toList = bytes.data.toList.drop i := by
  rw [ByteArray.data_extract, Array.toList_extract, List.extract_eq_take_drop]
  refine List.take_of_length_le ?_
  rw [List.length_drop, Array.length_toList]
  exact le_rfl

theorem toList_toText {bytes : ByteArray} (inside : 0 < bytes.size) :
    (toText bytes).toList = (shownAt bytes 0).1 ::
      (toText (bytes.extract (shownAt bytes 0).2 bytes.size)).toList := by
  rw [toText, showFrom_of_lt inside, showFrom_eq, Nat.zero_add]
  simp

theorem take_of_decode {bytes : ByteArray} {c : Char}
    (decoded : bytes.utf8DecodeChar? 0 = some c) :
    bytes.data.toList.take c.utf8Size = String.utf8EncodeChar c := by
  have encoded := congrArg (fun bytes => bytes.data.toList) (extract_of_decode decoded)
  rw [Nat.zero_add, List.utf8Encode_singleton, List.data_toByteArray] at encoded
  simpa [List.extract_eq_take_drop] using encoded

theorem uncoded_of_decode {bytes : ByteArray} (undecoded : bytes.utf8DecodeChar? 0 = none)
    (c : Char) : ¬String.utf8EncodeChar c <+: bytes.data.toList := by
  rintro ⟨later, split⟩
  have whole : bytes = (String.utf8EncodeChar c ++ later).toByteArray := by
    refine ByteArray.ext ?_
    rw [List.data_toByteArray, split, Array.toArray_toList]
  rw [whole, decode_encode_append] at undecoded
  cases undecoded

/-- The text of some bytes is what they are shown as. -/
theorem shownAs_toText (bytes : ByteArray) :
    ShownAs bytes.data.toList (toText bytes).toList := by
  induction size : bytes.size using Nat.strong_induction_on generalizing bytes with
  | _ n ih =>
    rcases Nat.eq_zero_or_pos bytes.size with nothing | inside
    · have none : bytes.data.toList = [] := by
        rw [← List.length_eq_zero_iff, Array.length_toList]
        exact nothing
      rw [none, toText, showFrom_of_le nothing.le]
      exact .nil
    · have wide := shownAt_pos bytes 0
      have later := ih (bytes.size - (shownAt bytes 0).2) (by omega)
        (bytes.extract (shownAt bytes 0).2 bytes.size) (by rw [ByteArray.size_extract]; omega)
      rw [toList_extract_size] at later
      rw [toList_toText inside, ← List.take_append_drop (shownAt bytes 0).2 bytes.data.toList]
      unfold shownAt at later ⊢
      cases decoded : bytes.utf8DecodeChar? 0 with
      | some c =>
        rw [decoded] at later
        dsimp only at later ⊢
        rw [take_of_decode decoded]
        exact .encoded c later
      | none =>
        rw [decoded] at later
        have some : bytes.data.toList ≠ [] :=
          List.ne_nil_of_length_pos (by rwa [Array.length_toList])
        exact .broken ((subpart_brokenLength some).broken (uncoded_of_decode decoded)) later

end Utf8

/-- What the text of a source from one offset to another consists of. -/
theorem Source.text_shownAs {s : Source} {start stop : Nat} (ordered : start ≤ stop)
    (fits : stop ≤ s.size) :
    Utf8.ShownAs (s.bytes.extract start stop).data.toList (s.text start stop).toList := by
  rw [text_eq ordered fits]
  exact Utf8.shownAs_toText _

end TextMatch
