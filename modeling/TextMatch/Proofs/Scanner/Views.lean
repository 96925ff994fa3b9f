import TextMatch.Proofs.Scanner.Reach
import TextMatch.Proofs.Source.Shown

/-!
# What a scanner shows

The text ahead of a scanner, the text between two cursors and the text that remains are computed
from byte offsets, each in its own way. Here they are given by the indices of the points instead:
`views_are_points` says of every cursor that the walk over the source meets, the end of data
included, and of every two of them, which points are shown. Malformed bytes behind the points
change nothing but the text that remains.
-/
namespace TextMatch

open String (utf8Len)

namespace Source

variable {s : Source} {p q : Nat} {a b : Cursor}

/-- The points from the one at index `p` through the one at index `q`, as far as there are any. -/
def pointsThrough (s : Source) (p q : Nat) : List Char := (s.points.take (q + 1)).drop p

theorem pointsThrough_of_lt (reversed : q < p) : s.pointsThrough p q = [] := by
  refine List.drop_eq_nil_of_le ?_
  rw [List.length_take]
  omega

theorem utf8Len_take_le (points : List Char) {i j : Nat} (ordered : i ≤ j) :
    utf8Len (points.take i) ≤ utf8Len (points.take j) := by
  obtain ⟨k, rfl⟩ := Nat.exists_eq_add_of_le ordered
  rw [List.take_add, String.utf8Len_append]
  exact Nat.le_add_right _ _

/-- The text from one cursor through another. -/
theorem text_visited (first : s.Visits p a) (second : s.Visits q b) :
    s.text a.offset b.next = String.ofList (s.pointsThrough p q) := by
  rw [first.offset_eq, second.next_eq]
  rcases Nat.lt_or_ge q p with reversed | ordered
  · rw [pointsThrough_of_lt reversed, text_of_le (utf8Len_take_le _ reversed), String.ofList_nil]
  · have front : s.points.take p ++ s.pointsThrough p q = s.points.take (q + 1) := by
      have shorter : min p (q + 1) = p := by omega
      have cut := List.take_append_drop p (s.points.take (q + 1))
      rwa [List.take_take, shorter] at cut
    have split : s.points = s.points.take p ++ s.pointsThrough p q ++ s.points.drop (q + 1) := by
      rw [front, List.take_append_drop]
    rw [← front, text_utf8Len split]

end Source

namespace Scanner

/-- The points that the scanner is on in front of each of so many advances, up to the end of data
or to an advance that fails. -/
def pointsAhead : Nat → Scanner → List Char
  | 0, _ => []
  | n + 1, t =>
    match t.current.point with
    | none => []
    | some c =>
      c :: match t.advance with
        | .ok next => pointsAhead n next
        | .error _ => []

variable {s : Source} {t : Scanner} {i p q : Nat} {a b : Cursor} {before rest : List Char}

/-- Points are skipped by the widths that are decoded with them. -/
theorem skip_of_decodeAt {point : Char} {offset width : Nat}
    (decoded : s.decodeAt offset = .ok (some (point, width))) (n : Nat) :
    peek.skip s (n + 1) offset = peek.skip s n (offset + width) := by
  obtain rfl := Source.width_of_decodeAt decoded
  rw [peek.skip, Source.pointAt, decoded]
  rfl

theorem skip_utf8Len (split : s.points = before ++ rest) (n : Nat) :
    peek.skip s n (utf8Len before) = utf8Len (before ++ rest.take n) := by
  induction n generalizing before rest with
  | zero => simp [peek.skip]
  | succ n ih =>
    rw [peek.skip, Source.pointAt_after split]
    cases rest with
    | nil =>
      rw [List.take_nil, List.append_nil]
      cases readable : s.isReadable <;> simp [Source.front, readable]
    | cons c rest =>
      have onward : s.points = (before ++ [c]) ++ rest := by rw [split]; simp
      have further := ih onward
      rw [List.append_assoc, String.utf8Len_append] at further
      simpa [Source.front] using further

namespace At

theorem pointsAhead (here : t.At s rest) (n : Nat) : t.pointsAhead n = rest.take n := by
  induction n generalizing t rest with
  | zero => rfl
  | succ n ih =>
    cases rest with
    | nil => rw [Scanner.pointsAhead, here.current_eq, Source.point_cursorAt]; rfl
    | cons c rest =>
      rw [Scanner.pointsAhead, here.current_eq, Source.point_cursorAt, here.advance_cons]
      by_cases stuck : rest = [] ∧ s.isReadable = false
      · rw [if_pos stuck, stuck.1]
        simp
      · rw [if_neg stuck]
        simp [ih (here.moveTo (by simpa using stuck))]

theorem peek (here : t.At s rest) (n : Nat) : t.peek n = String.ofList (rest.take n) := by
  obtain ⟨before, split⟩ := here.leaves.split
  have apart : s.points = before ++ rest.take n ++ rest.drop n := by
    rw [List.append_assoc, List.take_append_drop, split]
  rw [Scanner.peek, here.source_eq, here.current_eq, Source.offset_cursorAt split,
    skip_utf8Len split, Source.text_utf8Len apart]

theorem rest_of_valid (here : t.At s rest) (valid : s.bytes.IsValidUTF8) :
    t.rest = String.ofList rest := by
  obtain ⟨before, split⟩ := here.leaves.split
  have whole : s.size = utf8Len (before ++ rest) := by
    have readable := Source.le_readableSize (s := s) (Nat.le_refl s.size)
      (by rwa [Source.size, ByteArray.extract_zero_size])
    rw [← split]
    exact Nat.le_antisymm readable s.readableSize_le_size
  have apart : s.points = before ++ rest ++ [] := by rw [split, List.append_nil]
  rw [Scanner.rest, here.source_eq, here.current_eq, Source.offset_cursorAt split, whole,
    Source.text_utf8Len apart]

theorem text_append_rest (here : t.At s rest) :
    s.text 0 t.current.offset ++ t.rest = s.text 0 s.size := by
  obtain ⟨before, split⟩ := here.leaves.split
  have joined := Source.text_append_rest (show s.points = [] ++ before ++ rest from split)
  rw [List.nil_append, String.utf8Len_nil] at joined
  rw [Scanner.rest, here.source_eq, here.current_eq, Source.offset_cursorAt split, joined]

end At

/-- What is shown by a scanner at the point with index `i`. -/
structure Shows (s : Source) (i : Nat) (t : Scanner) : Prop where
  stands : t.current.point = s.points[i]?
  peeks : ∀ n, t.peek n = String.ofList ((s.points.drop i).take n)
  walks : ∀ n, t.pointsAhead n = (s.points.drop i).take n
  remains : s.bytes.IsValidUTF8 → ∀ n, s.points.length ≤ i + n → t.rest = t.peek n
  completes : s.text 0 t.current.offset ++ t.rest = s.text 0 s.size

/-- What is shown between the cursors with the indices `p` and `q`. -/
structure Spans (s : Source) (p q : Nat) (a b : Cursor) : Prop where
  stands : a.point = s.points[p]? ∧ b.point = s.points[q]?
  through : ∀ t : Scanner, t.source = s →
    t.textThrough a b = String.ofList (s.pointsThrough p q)
  reversed : q < p → ∀ t : Scanner, t.source = s → t.textThrough a b = ""
  /-- From whichever of the two. -/
  either : ∀ t u : Scanner, t.source = s → t.current = a → u.source = s → u.current = b →
    t.textTo b = u.textTo a ∧
      t.textTo b = if p ≤ q then t.textThrough a b else t.textThrough b a

theorem shows_of_visits (reads : t.source = s) (standing : s.Visits i t.current) :
    Shows s i t := by
  obtain ⟨inside, here⟩ := At.of_index reads standing
  exact {
    stands := standing.point_eq
    peeks := here.peek
    walks := here.pointsAhead
    remains := fun valid n enough => by
      have all : (s.points.drop i).take n = s.points.drop i :=
        List.take_of_length_le (by rw [List.length_drop]; omega)
      rw [here.rest_of_valid valid, here.peek, all]
    completes := here.text_append_rest }

theorem spans_of_visits (first : s.Visits p a) (second : s.Visits q b) : Spans s p q a b := by
  have through : ∀ t : Scanner, t.source = s →
      t.textThrough a b = String.ofList (s.pointsThrough p q) := by
    intro t reads
    rw [Scanner.textThrough, reads, Source.text_visited first second]
  refine ⟨⟨first.point_eq, second.point_eq⟩, through, ?_, ?_⟩
  · intro behind t reads
    rw [through t reads, Source.pointsThrough_of_lt behind, String.ofList_nil]
  · intro t u reads standing readsToo standingToo
    have same : ∀ c d, u.textThrough c d = t.textThrough c d := by
      intro c d
      rw [Scanner.textThrough, Scanner.textThrough, reads, readsToo]
    simp only [Scanner.textTo, standing, standingToo, first.offset_lt_iff second,
      second.offset_lt_iff first, same]
    rcases Nat.lt_trichotomy p q with before | together | behind
    · rw [if_neg (by omega), if_pos before, if_pos before.le]
      exact ⟨rfl, rfl⟩
    · subst together
      have equal : a = b := first.at_index.2.2.trans second.at_index.2.2.symm
      simp only [equal, ite_self, and_self]
    · rw [if_pos behind, if_neg (by omega), if_neg (by omega)]
      exact ⟨rfl, rfl⟩

/-- What scanners show, by the indices of their cursors, and that whatever is done with them they
hold and give out such cursors only. -/
theorem views_are_points (s : Source) :
    (∀ i t, t.source = s → s.Visits i t.current → Shows s i t) ∧
      (∀ p q a b, s.Visits p a → s.Visits q b → Spans s p q a b) ∧
      ∀ first, ofSource s = .ok first →
        (∀ t, first.Reaches t → t.source = s ∧ s.Visited t.current) ∧
          ∀ c, first.Gives c → s.Visited c := by
  refine ⟨fun i t => shows_of_visits, fun p q a b => spans_of_visits, fun first made => ?_⟩
  have start := canonical_ofSource made
  refine ⟨fun t reached => ?_, fun c given => given.visited start⟩
  have canonical := reached.canonical start
  exact ⟨canonical.source_eq, canonical.current⟩

/-- On the second of two points, with a byte behind them that begins no character. -/
theorem views_of_stray_byte :
    let s : Source := ⟨⟨#[0x61, 0xC3, 0xA9, 0xFF]⟩⟩
    let a : Cursor := ⟨.start, some 'a', 0⟩
    let b : Cursor := ⟨⟨1, 2, 2, 2⟩, some 'é', 1⟩
    Shows s 1 ⟨s, b, some a, none⟩ ∧ Spans s 0 1 a b ∧ Spans s 1 0 b a ∧ s.Visited b := by
  intro s a b
  have first : s.Visits 0 a := .first (by decide)
  have second : s.Visits 1 b := first.after (by decide)
  have advanced : (Scanner.mk s a none none).advance = .ok ⟨s, b, some a, none⟩ := by decide
  obtain ⟨shows, spans, reachable⟩ := views_are_points s
  exact ⟨shows 1 ⟨s, b, some a, none⟩ rfl second, spans 0 1 a b first second,
    spans 1 0 b a second first,
    (reachable ⟨s, a, none, none⟩ (by decide)).2 b (.current (.advance .origin advanced))⟩

end Scanner
end TextMatch
