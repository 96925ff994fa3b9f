import TextMatch.Proofs.Reading.Agreement

/-!
# The bytes still to be read

Two scanners that stand before the same bytes, each behind a beginning of its own, match alike
(`expect_behind`): the same expressions meet the same points, so the results differ only by where
the bytes begin. Neither the points in front, nor the counters that these make for, nor the
previous cursor, nor the bookmark takes part in matching. For readers there is nothing to show: they
are given the points left and nothing else, and these are the same for both scanners
(`Source.points_append`).
-/
namespace TextMatch

open String (utf8Len)

/-- The same point, or the end of data for both, as far behind the byte `i` as behind the byte
`j`. -/
structure Cursor.Alike (i j : Nat) (c d : Cursor) : Prop where
  point_eq : c.point = d.point
  size_eq : c.size = d.size
  apart : ∃ k, c.offset = i + k ∧ d.offset = j + k

/-- The same error, at places that are alike. -/
inductive MatchError.Alike (i j : Nat) : MatchError → MatchError → Prop
  | unmet {expr : Expr} {c d : Cursor} (place : c.Alike i j d) :
      Alike i j (.unmet expr c) (.unmet expr d)
  | defective {kind : Kind} {defect : Defect} :
      Alike i j (.defective kind defect) (.defective kind defect)
  | malformed (k : Nat) :
      Alike i j (.unreadable (.malformed (i + k))) (.unreadable (.malformed (j + k)))

/-- Both succeed or both fail, and all the places that they name are alike. -/
structure Match.Alike (i j : Nat) (m n : Match) : Prop where
  current : m.scanner.current.Alike i j n.scanner.current
  ok : ∀ boundary, m.result = .ok boundary →
    ∃ boundary', n.result = .ok boundary' ∧ boundary.Alike i j boundary'
  error : ∀ e, m.result = .error e → ∃ e', n.result = .error e' ∧ e.Alike i j e'

section Behind

variable {xs ys : List Char} {w : ByteArray} {rest : List Char}

theorem Source.cursorAt_alike (suffix : rest <:+ (mk w).points) :
    ((mk (xs.utf8Encode ++ w)).cursorAt rest).Alike (utf8Len xs) (utf8Len ys)
      ((mk (ys.utf8Encode ++ w)).cursorAt rest) := by
  obtain ⟨before, split⟩ := suffix
  -- on either side the points of `w` come behind those of the beginning
  have behind (zs : List Char) :
      ((mk (zs.utf8Encode ++ w)).cursorAt rest).offset = utf8Len zs + utf8Len before := by
    have onward : (mk (zs.utf8Encode ++ w)).points = (zs ++ before) ++ rest := by
      rw [points_append, ← split, List.append_assoc]
    rw [offset_cursorAt onward, String.utf8Len_append]
  constructor
  · rfl
  · rfl
  · exact ⟨utf8Len before, behind xs, behind ys⟩

theorem Failure.toError_alike {f : Failure} (within : f.Within (Source.mk w).points) :
    (f.toError ⟨xs.utf8Encode ++ w⟩).Alike (utf8Len xs) (utf8Len ys)
      (f.toError ⟨ys.utf8Encode ++ w⟩) := by
  cases f with
  | unmet expr place => exact .unmet (Source.cursorAt_alike within)
  | defective kind defect => exact .defective
  | unreadable =>
    simp only [toError, Source.readableSize_append]
    exact .malformed _

end Behind

namespace Scanner

/-- Behind a text, what is left to be read are the points of the bytes that follow. -/
theorem At.of_behind {x : String} {w : ByteArray} {t : Scanner}
    (reads : t.source = ⟨x.toUTF8 ++ w⟩) (visited : t.source.Visits x.length t.current) :
    t.At ⟨x.toList.utf8Encode ++ w⟩ (Source.mk w).points := by
  have encoded : x.toList.utf8Encode = x.toUTF8 := String.utf8Encode_toList
  rw [← encoded] at reads
  rw [reads] at visited
  obtain ⟨_, here⟩ := At.of_index reads visited
  rwa [Source.points_append, ← String.length_toList, List.drop_left] at here

/-- A match over `x ++ w`, from the first point of `w` on, is like the match over `y ++ w` from
there on. -/
theorem expect_behind {x y : String} {w : ByteArray} {t u : Scanner} {es : List Expr}
    (reads : t.source = ⟨x.toUTF8 ++ w⟩) (visited : t.source.Visits x.length t.current)
    (readsToo : u.source = ⟨y.toUTF8 ++ w⟩) (visitedToo : u.source.Visits y.length u.current)
    (free : Expr.hooksIn es = []) :
    ∃ m n, t.expect es = some m ∧ u.expect es = some n ∧
      m.Alike x.utf8ByteSize y.utf8ByteSize n := by
  obtain ⟨m, finished, result, left⟩ := (At.of_behind reads visited).expect free
  obtain ⟨n, finishedToo, resultToo, leftToo⟩ := (At.of_behind readsToo visitedToo).expect free
  have advances := Expr.listReader_advances (Source.mk w).isReadable es (Source.mk w).points
  have size (text : String) : text.utf8ByteSize = utf8Len text.toList := by
    rw [← String.utf8ByteSize_ofList, String.ofList_toList]
  rw [Source.isReadable_append] at result left resultToo leftToo
  rw [size x, size y]
  refine ⟨m, n, finished, finishedToo, ?_⟩
  generalize Expr.listReader (Source.mk w).isReadable es (Source.mk w).points = reading
    at result left resultToo leftToo advances
  cases reading with
  | ok last stop =>
    refine ⟨?_, fun boundary succeeded => ?_, fun e failed => ?_⟩
    · rw [left.current_eq, leftToo.current_eq]
      exact Source.cursorAt_alike advances.suffix
    · rw [result] at succeeded
      cases succeeded
      exact ⟨_, resultToo, Source.cursorAt_alike advances⟩
    · rw [result] at failed
      cases failed
  | error f =>
    refine ⟨?_, fun boundary succeeded => ?_, fun e failed => ?_⟩
    · rw [left.current_eq, leftToo.current_eq]
      exact Source.cursorAt_alike List.suffix_rfl
    · rw [result] at succeeded
      cases succeeded
    · rw [result] at failed
      cases failed
      exact ⟨_, resultToo, Failure.toError_alike advances⟩

/-- Two letters before a stray byte, on a second line with a bookmark before it and at the very
beginning. Both matches come upon the stray byte. -/
theorem expect_behind_line :
    let w : ByteArray := ⟨#[0x61, 0x62, 0xFF]⟩
    let first : Cursor := ⟨.start, some 'é', 0⟩
    let newline : Cursor := ⟨⟨1, 2, 3, 2⟩, some '\n', 2⟩
    let t : Scanner :=
      ⟨⟨"é\n".toUTF8 ++ w⟩, ⟨⟨2, 1, 1, 3⟩, some 'a', 3⟩, some newline, some first⟩
    let u : Scanner := ⟨⟨"".toUTF8 ++ w⟩, ⟨.start, some 'a', 0⟩, none, none⟩
    let es : List Expr := [.atLeast 0 (.point 'a'), .oneOf [.point 'c', .seq [.any, .any]]]
    t.source.Visits 2 t.current ∧ u.source.Visits 0 u.current ∧ Expr.hooksIn es = [] ∧
      ∃ m n, t.expect es = some m ∧ u.expect es = some n ∧ m.Alike 3 0 n := by
  intro w first newline t u es
  have start : t.source.Visits 0 first := .first (by decide)
  have second : t.source.Visits 1 newline := .after start (by decide)
  have visited : t.source.Visits 2 t.current := .after second (by decide)
  have visitedToo : u.source.Visits 0 u.current := .first (by decide)
  exact ⟨visited, visitedToo, rfl,
    expect_behind (x := "é\n") (y := "") (w := w) rfl visited rfl visitedToo rfl⟩

end Scanner
end TextMatch
