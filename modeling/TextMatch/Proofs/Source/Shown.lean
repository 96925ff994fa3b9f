import TextMatch.Proofs.Source.Points

/-!
# The text of a source

How bytes are shown does not depend on the bytes in front of them, so that the text of a source can
be taken apart wherever a point ends. What is shown of the points themselves is the points.
-/
namespace TextMatch

open String (utf8Len)

namespace Utf8

/-- What is shown of the bytes at `i`, and the number of bytes that it takes. -/
def shownAt (bytes : ByteArray) (i : Nat) : Char × Nat :=
  match bytes.utf8DecodeChar? i with
  | some c => (c, c.utf8Size)
  | none => ('\uFFFD', brokenLength bytes i)

theorem shownAt_pos (bytes : ByteArray) (i : Nat) : 0 < (shownAt bytes i).2 := by
  unfold shownAt
  split
  · exact Char.utf8Size_pos _
  · exact brokenLength_pos bytes i

theorem showFrom_of_lt {bytes : ByteArray} {i : Nat} (inside : i < bytes.size) (shown : String) :
    showFrom bytes i shown =
      showFrom bytes (i + (shownAt bytes i).2) (shown.push (shownAt bytes i).1) := by
  rw [showFrom, if_pos inside, shownAt]
  cases bytes.utf8DecodeChar? i <;> rfl

theorem showFrom_of_le {bytes : ByteArray} {i : Nat} (beyond : bytes.size ≤ i) (shown : String) :
    showFrom bytes i shown = shown := by
  rw [showFrom, if_neg (not_lt.mpr beyond)]

theorem byte?_extract (bytes : ByteArray) (i k : Nat) :
    byte? (bytes.extract i bytes.size) k = byte? bytes (i + k) := by
  rcases Nat.lt_or_ge (i + k) bytes.size with inside | beyond
  · exact byte?_extract_of_lt bytes inside
  · have outer : (bytes.extract i bytes.size).size ≤ k := by
      rw [ByteArray.size_extract]
      omega
    rw [byte?_eq_none_iff.mpr beyond, byte?_eq_none_iff.mpr outer]

theorem shownAt_extract (bytes : ByteArray) (i : Nat) :
    shownAt (bytes.extract i bytes.size) 0 = shownAt bytes i := by
  unfold shownAt brokenLength
  rw [← ByteArray.utf8DecodeChar?_eq_utf8DecodeChar?_extract]
  simp only [byte?_extract, Nat.zero_add, Nat.add_zero]

/-- What is shown from `i` on is the text of the bytes from there on. -/
theorem showFrom_eq (bytes : ByteArray) (i : Nat) (shown : String) :
    showFrom bytes i shown = shown ++ toText (bytes.extract i bytes.size) := by
  induction left : bytes.size - i using Nat.strong_induction_on generalizing bytes i shown with
  | _ n ih =>
    have size : (bytes.extract i bytes.size).size = bytes.size - i := by
      rw [ByteArray.size_extract]
      omega
    unfold toText
    rcases Nat.lt_or_ge i bytes.size with inside | beyond
    · have inner : 0 < (bytes.extract i bytes.size).size := by omega
      have wide := shownAt_pos bytes i
      rw [showFrom_of_lt inside, showFrom_of_lt inner, shownAt_extract, Nat.zero_add,
        ih _ (by omega) bytes _ _ rfl, ih _ (by omega) (bytes.extract i bytes.size) _ _ rfl,
        ByteArray.extract_extract]
      have whole : min (i + (bytes.extract i bytes.size).size) bytes.size = bytes.size := by omega
      rw [whole, ← String.append_assoc, ← String.append_singleton, ← String.append_singleton,
        String.empty_append]
    · rw [showFrom_of_le beyond, showFrom_of_le (by omega), String.append_empty]

@[simp] theorem toText_empty : toText ByteArray.empty = "" :=
  showFrom_of_le le_rfl ""

theorem shownAt_encode (c : Char) (rest : ByteArray) :
    shownAt ([c].utf8Encode ++ rest) 0 = (c, c.utf8Size) := by
  rw [shownAt, List.utf8DecodeChar?_utf8Encode_singleton_append]

theorem toText_encode_append (cs : List Char) (rest : ByteArray) :
    toText (cs.utf8Encode ++ rest) = String.ofList cs ++ toText rest := by
  induction cs with
  | nil => simp
  | cons c cs ih =>
    have wide := c.utf8Size_pos
    have size : [c].utf8Encode.size = c.utf8Size := by rw [size_utf8Encode]; simp
    have apart : (c :: cs).utf8Encode ++ rest = [c].utf8Encode ++ (cs.utf8Encode ++ rest) := by
      rw [List.utf8Encode_cons, ByteArray.append_assoc]
    have inside : 0 < ([c].utf8Encode ++ (cs.utf8Encode ++ rest)).size := by
      rw [ByteArray.size_append]
      omega
    have tail : ([c].utf8Encode ++ (cs.utf8Encode ++ rest)).extract c.utf8Size
        ([c].utf8Encode ++ (cs.utf8Encode ++ rest)).size = cs.utf8Encode ++ rest :=
      ByteArray.extract_append_eq_right size.symm (ByteArray.size_append ..)
    rw [apart, toText, showFrom_of_lt inside, shownAt_encode, showFrom_eq, Nat.zero_add, tail, ih]
    simp [← String.append_assoc, String.ofList_cons]

end Utf8

namespace Source

variable {s : Source} {before middle rest : List Char}

theorem extract_utf8Len (split : s.points = before ++ middle ++ rest) :
    s.bytes.extract (utf8Len before) (utf8Len (before ++ middle)) = middle.utf8Encode := by
  have onward := pointsFrom_after (show s.pointsFrom 0 = before ++ (middle ++ rest) by
    rw [← List.append_assoc]; exact split)
  have encoded := extract_pointsFrom onward
  rwa [Nat.zero_add, ← String.utf8Len_append] at encoded

theorem text_eq {start stop : Nat} (ordered : start ≤ stop) (fits : stop ≤ s.size) :
    s.text start stop = Utf8.toText (s.bytes.extract start stop) := by
  unfold text
  dsimp only
  rw [min_eq_left fits, min_eq_left ordered]

theorem text_of_le {start stop : Nat} (reversed : stop ≤ start) : s.text start stop = "" := by
  have nothing : s.bytes.extract (min start (min stop s.size)) (min stop s.size) = .empty :=
    ByteArray.extract_eq_empty_iff.mpr (by omega)
  unfold text
  dsimp only
  rw [nothing, Utf8.toText_empty]

/-- The text from one point to another is what lies between. -/
theorem text_utf8Len (split : s.points = before ++ middle ++ rest) :
    s.text (utf8Len before) (utf8Len (before ++ middle)) = String.ofList middle := by
  have fits := (utf8Len_le_readableSize split).trans s.readableSize_le_size
  have ordered : utf8Len before ≤ utf8Len (before ++ middle) := by simp
  rw [text_eq ordered fits, extract_utf8Len split]
  simpa using Utf8.toText_encode_append middle ByteArray.empty

theorem text_append_text {stop : Nat} (split : s.points = before ++ middle ++ rest)
    (reaches : utf8Len (before ++ middle) ≤ stop) (inside : stop ≤ s.size) :
    s.text (utf8Len before) (utf8Len (before ++ middle)) ++
      s.text (utf8Len (before ++ middle)) stop = s.text (utf8Len before) stop := by
  have ordered : utf8Len before ≤ utf8Len (before ++ middle) := by simp
  have apart : s.bytes.extract (utf8Len before) stop = middle.utf8Encode ++
      s.bytes.extract (utf8Len (before ++ middle)) stop := by
    rw [← extract_utf8Len split]
    exact ByteArray.extract_eq_extract_append_extract _ ordered reaches
  rw [text_utf8Len split, text_eq reaches inside, text_eq (ordered.trans reaches) inside, apart,
    Utf8.toText_encode_append]

/-- What remains behind some points is shown behind what is shown of them. -/
theorem text_append_rest (split : s.points = before ++ middle ++ rest) :
    s.text (utf8Len before) (utf8Len (before ++ middle)) ++
      s.text (utf8Len (before ++ middle)) s.size = s.text (utf8Len before) s.size :=
  text_append_text split ((utf8Len_le_readableSize split).trans s.readableSize_le_size) le_rfl

end Source
end TextMatch
