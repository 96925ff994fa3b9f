import TextMatch.Proofs.Matcher.Sequencing
import TextMatch.Proofs.Reading.Choice
import TextMatch.Proofs.Reading.Errors

/-!
# Texts, point by point

A literal may be spelled out: as its points, each by itself or as a range of one, as shorter
literals, or as any mixture of these in sequence. All of them consume the same points one after the
other and stop at the same one, so a match cannot tell them apart, except by which part of the text
a mismatch names (`Scanner.expect_literal_spelled`). Each member of the sequence goes back where it
fails, the literal does so once; but in the end both are back at the start.

A literal matches exactly where the bytes begin with its encoding and the point behind it is known,
for the last of its points is consumed only then.
-/
namespace TextMatch

open String (utf8Len)

/-- The expression asks for the points of a text, one after the other. -/
inductive Expr.IsText : Expr → List Char → Prop
  | point (c : Char) : IsText (.point c) [c]
  | range (c : Char) : IsText (.range c c) [c]
  | literal {text : String} (nonempty : text ≠ "") : IsText (.literal text) text.toList

/-- The expressions ask for a text, each of them for some of it. -/
inductive Expr.Spells : List Expr → List Char → Prop
  | nil : Spells [] []
  | cons {e : Expr} {es : List Expr} {front back : List Char} (first : e.IsText front)
      (others : Spells es back) : Spells (e :: es) (front ++ back)

/-- Matching `es` and matching `ds` come out the same, but for what a mismatch names, and leave the
same scanner. -/
def Scanner.MatchesAlike (t : Scanner) (es ds : List Expr) : Prop :=
  ∃ m n, t.expect es = some m ∧ t.expect ds = some n ∧ m.Renamed n ∧ m.scanner = n.scanner

namespace Matcher

variable {x y : Expr} {cs : List Char} {σ τ : Session}

theorem points_append (x : Expr) (cs ds : List Char) (last : Cursor) (σ : Session) :
    points x (cs ++ ds) last σ =
      (points x cs last σ).andThen fun boundary τ => points x ds boundary τ := by
  induction cs generalizing last σ with
  | nil => rfl
  | cons c cs ih => simp only [List.cons_append, points, Outcome.andThen_assoc, ih]

/-- The boundary so far counts only where there is nothing to consume. -/
theorem points_of_ne_nil (nonempty : cs ≠ []) (x : Expr) (last last' : Cursor) (σ : Session) :
    points x cs last σ = points x cs last' σ := by
  cases cs with
  | nil => exact absurd rfl nonempty
  | cons c cs => rfl

theorem points_singleton (x : Expr) (c : Char) (last : Cursor) (σ : Session) :
    points x [c] last σ = pointIf x (· == c) σ :=
  (pointIf x (· == c) σ).andThen_ok_self

theorem points_renamed (cs : List Char) (last : Cursor) (scanner : σ.scanner = τ.scanner) :
    (points x cs last σ).Alike MatchError.Renamed (points y cs last τ) :=
  points_alike cs last (.unmet x y) (fun _ => .fatal rfl) scanner

end Matcher

namespace Expr

variable {e : Expr} {es : List Expr} {cs : List Char} {σ τ : Session}

theorem IsText.ne_nil (asks : e.IsText cs) : cs ≠ [] := by
  cases asks with
  | point c => exact List.cons_ne_nil c []
  | range c => exact List.cons_ne_nil c []
  | literal nonempty => exact mt String.toList_eq_nil_iff.mp nonempty

/-- However a text is asked for, it is tried point by point. -/
theorem IsText.matcher_eq (asks : e.IsText cs) (limit : Nat) :
    e.matcher limit = .attempt e.kind fun σ => Matcher.points e cs σ.current σ := by
  cases asks with
  | point c =>
    simp only [matcher, kind, Matcher.points_singleton]
  | range c =>
    have within : (fun d => c ≤ d && d ≤ c) = (· == c) := by
      funext d
      rw [Bool.eq_iff_iff, Bool.and_eq_true, decide_eq_true_eq, decide_eq_true_eq, beq_iff_eq,
        le_antisymm_iff, and_comm]
    simp only [matcher, kind, Matcher.points_singleton]
    congr 1
    funext σ
    rw [Matcher.range, if_neg (lt_irrefl c), within]
  | literal nonempty =>
    simp only [matcher, kind]
    congr 1
    funext σ
    rw [Matcher.literal, if_neg nonempty]

theorem spells_points (cs : List Char) : Spells (cs.map .point) cs := by
  induction cs with
  | nil => exact .nil
  | cons c cs ih => exact .cons (.point c) ih

theorem spells_literal {text : String} (nonempty : text ≠ "") :
    Spells [.literal text] text.toList := by
  have alone := Spells.cons (.literal nonempty) .nil
  rwa [List.append_nil] at alone

theorem spells_literals {front back : String} (frontNonempty : front ≠ "")
    (backNonempty : back ≠ "") :
    Spells [.literal front, .literal back] (front ++ back).toList := by
  rw [String.toList_append]
  exact .cons (.literal frontNonempty) (spells_literal backNonempty)

/-- To match the members one after the other is to consume the points one after the other, as long
as a failure goes back to where all of them began. -/
theorem Spells.alike (spelled : Spells es cs) (x : Expr) (limit : Nat) (last c : Cursor)
    (scanner : σ.scanner = τ.scanner) :
    ((Matcher.points x cs last σ).rewinding c).Alike MatchError.Renamed
      ((Matcher.seqFrom (Expr.matchers limit es) last τ).rewinding c) := by
  induction spelled generalizing last σ τ with
  | nil => exact .ok last scanner
  | @cons e es front back first others ih =>
    rw [Matcher.points_append, Outcome.rewinding_andThen, Expr.matchers, Matcher.seqFrom,
      Outcome.rewinding_andThen, first.matcher_eq limit,
      Matcher.points_of_ne_nil first.ne_nil x last τ.current]
    have tried := Matcher.attempt_rewinding_alike e.kind
      (fun υ => Matcher.points e front υ.current υ) τ c
    have member : ((Matcher.points x front τ.current σ).rewinding c).Alike MatchError.Renamed _ :=
      ((Matcher.points_renamed front τ.current scanner).rewinding c).trans tried.symm
    exact member.andThen fun boundary υ ω left => ih boundary left

end Expr

namespace Session

theorem expectWithin_spelled_alike (limit : Nat) {text : String} {es : List Expr}
    (nonempty : text ≠ "") (spelled : Expr.Spells es text.toList) (σ : Session) :
    (σ.expectWithin limit [.literal text]).Alike MatchError.Renamed
      (σ.expectWithin limit [.seq es]) := by
  have whole := expectWithin_alike limit [.literal text] (Eq.refl σ.scanner)
  rw [Expr.matchers, Expr.matchers, (Expr.IsText.literal nonempty).matcher_eq limit,
    Matcher.seq_singleton] at whole
  have tried := whole.trans (Matcher.attempt_rewinding_alike _ _ σ σ.current)
  have inTurn := spelled.alike (.literal text) limit σ.current σ.current (Eq.refl σ.scanner)
  exact (tried.eq_trans inTurn).trans (expectWithin_seq_alike limit es σ).symm

end Session

namespace Reader

variable {whole : Bool} {x : Expr} {cs : List Char} {last : Option Char} {rest : List Char}

/-- The points are consumed exactly where they are the next ones and there is a way to go on behind
them. -/
theorem points_eq_ok_iff (readable : rest = [] → whole = true) :
    (∃ tail stop, points whole x cs last rest = .ok tail stop) ↔
      ∃ stop, rest = cs ++ stop ∧ (stop = [] → whole = true) := by
  induction cs generalizing last rest with
  | nil => exact iff_of_true ⟨last, rest, rfl⟩ ⟨rest, rfl, readable⟩
  | cons c cs ih =>
    rw [points, pointIf]
    cases rest with
    | nil => simp [Reading.andThen]
    | cons d rest =>
      by_cases same : d = c
      · subst same
        by_cases stuck : rest = [] ∧ whole = false
        · simp [consume, stuck, Reading.andThen]
        · have onward : rest = [] → whole = true := by simpa using stuck
          simp [consume, stuck, Reading.andThen, ih onward]
      · simp [same, Reading.andThen]

/-- There is no other way to fail than not to find the points, or not to know what is behind
them. -/
theorem points_eq_error {f : Failure} (failed : points whole x cs last rest = .error f) :
    (∃ place, f = .unmet x place) ∨ f = .unreadable := by
  have caused : (points whole x cs last rest).Caused whole fun _ => False :=
    points_caused x cs last rest
  have named := @points_unmet whole rest x cs last
  rw [failed] at caused named
  cases f with
  | unmet expr place => exact .inl ⟨place, by rw [(named expr place rfl).1]⟩
  | defective kind defect => exact caused.elim fun _ h => h.1.elim
  | unreadable => exact .inr rfl

end Reader

/-- Where a text is encoded and what is behind it is known, and only there, its points are the next
ones to be read and there is a way to go on behind them. -/
theorem Source.Leaves.begins_iff {s : Source} {rest : List Char} (leaves : s.Leaves rest)
    (text : String) :
    (s.bytes.extract (s.cursorAt rest).offset ((s.cursorAt rest).offset + text.utf8ByteSize) =
        text.toUTF8 ∧
      ∃ next, s.pointAt ((s.cursorAt rest).offset + text.utf8ByteSize) = .ok next) ↔
      ∃ stop, rest = text.toList ++ stop ∧ (stop = [] → s.isReadable = true) := by
  obtain ⟨before, split⟩ := leaves.split
  have encoded : text.toUTF8 = text.toList.utf8Encode := String.utf8Encode_toList.symm
  have size : text.utf8ByteSize = utf8Len text.toList := by
    rw [← Utf8.size_utf8Encode, ← encoded]
    rfl
  have here : s.pointsFrom (utf8Len before) = rest := by
    have behind := pointsFrom_after (show s.pointsFrom 0 = before ++ rest from split)
    rwa [Nat.zero_add] at behind
  rw [offset_cursorAt split, size, encoded, ← isPrefix_pointsFrom_iff, here]
  constructor
  · rintro ⟨⟨stop, rfl⟩, known⟩
    rw [← String.utf8Len_append, pointAt_after (by rw [split, List.append_assoc]),
      front_eq_ok_iff] at known
    exact ⟨stop, rfl, known⟩
  · rintro ⟨stop, rfl, readable⟩
    refine ⟨List.prefix_append _ _, ?_⟩
    rw [← String.utf8Len_append, pointAt_after (by rw [split, List.append_assoc]),
      front_eq_ok_iff]
    exact readable

namespace Scanner

variable {s : Source} {t : Scanner} {es ds : List Expr} {text : String}

theorem matchesAlike_of_alike {m : Match} (finished : t.expect es = some m)
    (both : (Session.expect es ⟨t, []⟩).Alike MatchError.Renamed (Session.expect ds ⟨t, []⟩)) :
    t.MatchesAlike es ds := by
  refine ⟨m, ?_⟩
  unfold Scanner.expect at finished ⊢
  generalize Session.expect es ⟨t, []⟩ = o, Session.expect ds ⟨t, []⟩ = o' at both finished ⊢
  cases both with
  | ok boundary left =>
    cases finished
    exact ⟨_, rfl, rfl, .succeeded rfl rfl, left⟩
  | error errors left =>
    cases finished
    exact ⟨_, rfl, rfl, .failed rfl rfl errors, left⟩
  | unfinished => cases finished

/-- A literal matches like the sequence of its points, like any two parts of it in sequence, and
like any sequence that spells it out. It succeeds exactly where the bytes begin with its encoding
and what is behind is a point or the end; otherwise some point of it is unmet, or the bytes are
malformed. -/
theorem expect_literal_spelled {i : Nat} (visited : t.source.Visits i t.current)
    (nonempty : text ≠ "") :
    t.MatchesAlike [.literal text] [.seq (text.toList.map .point)] ∧
    (∀ front back : String, front ≠ "" → back ≠ "" → front ++ back = text →
      t.MatchesAlike [.literal text] [.seq [.literal front, .literal back]]) ∧
    (∀ es, Expr.Spells es text.toList → t.MatchesAlike [.literal text] [.seq es]) ∧
    ∃ m, t.expect [.literal text] = some m ∧
      ((∃ boundary, m.result = .ok boundary) ↔
        t.source.bytes.extract t.current.offset (t.current.offset + text.utf8ByteSize) =
            text.toUTF8 ∧
          ∃ next, t.source.pointAt (t.current.offset + text.utf8ByteSize) = .ok next) ∧
      ∀ e, m.result = .error e → (∃ c, e = .unmet (.literal text) c) ∨
        e = .unreadable (.malformed t.source.readableSize) := by
  obtain ⟨rest, start, _⟩ := At.of_visits rfl visited
  have free : (Expr.literal text).hooks = [] := rfl
  obtain ⟨m, finished, result, _⟩ := start.expect_singleton free
  have spelled (es : List Expr) (spells : Expr.Spells es text.toList) :
      t.MatchesAlike [.literal text] [.seq es] :=
    matchesAlike_of_alike finished (Session.expectWithin_spelled_alike _ nonempty spells _)
  refine ⟨spelled _ (Expr.spells_points text.toList), ?_, spelled, m, finished, ?_, ?_⟩
  · rintro front back frontNonempty backNonempty rfl
    exact spelled _ (Expr.spells_literals frontNonempty backNonempty)
  · rw [start.current_eq, start.leaves.begins_iff text,
      ← @Reader.points_eq_ok_iff _ (.literal text) _ none _ start.leaves.readable]
    rw [Expr.reader, Reader.literal, if_neg nonempty] at result
    rw [result]
    generalize Reader.points t.source.isReadable (.literal text) text.toList none rest = reading
    cases reading with
    | ok last stop => exact iff_of_true ⟨_, rfl⟩ ⟨last, stop, rfl⟩
    | error f =>
      refine iff_of_false ?_ ?_
      · rintro ⟨_, same⟩
        cases same
      · rintro ⟨_, _, same⟩
        cases same
  · intro e failed
    obtain ⟨f, read, rfl⟩ := Reading.eq_error_of_result (result.symm.trans failed)
    rw [Expr.reader, Reader.literal, if_neg nonempty] at read
    rcases Reader.points_eq_error read with ⟨place, rfl⟩ | rfl
    · exact .inl ⟨_, rfl⟩
    · exact .inr rfl

/-- A word in front of a semicolon, as its two letters, and as a letter and a range of one. -/
theorem expect_literal_spelled_word :
    let t : Scanner := ⟨.ofString "éa;", ⟨.start, some 'é', 0⟩, none, none⟩
    let spelled : List Expr := [.point 'é', .range 'a' 'a']
    t.source.Visits 0 t.current ∧ "éa" ≠ "" ∧
      t.MatchesAlike [.literal "éa"] [.seq [.literal "é", .literal "a"]] ∧
      Expr.Spells spelled "éa".toList ∧ t.MatchesAlike [.literal "éa"] [.seq spelled] ∧
      ∃ m boundary, t.expect [.literal "éa"] = some m ∧ m.result = .ok boundary := by
  intro t spelled
  have visited : t.source.Visits 0 t.current := .first (by decide)
  have nonempty : "éa" ≠ "" := by decide
  have spells : Expr.Spells spelled "éa".toList := .cons (.point 'é') (.cons (.range 'a') .nil)
  obtain ⟨_, halves, others, m, finished, succeeds, _⟩ := expect_literal_spelled visited nonempty
  have encoded : t.source.bytes.extract 0 (0 + "éa".utf8ByteSize) = "éa".toUTF8 := by
    decide +kernel
  have behind : t.source.pointAt (0 + "éa".utf8ByteSize) = .ok (some ';') :=
    Source.pointAt_eq_some_iff.mpr (by decide +kernel)
  obtain ⟨boundary, succeeded⟩ := succeeds.mpr ⟨encoded, _, behind⟩
  exact ⟨visited, nonempty, halves "é" "a" (by decide) (by decide) (by decide), spells,
    others spelled spells, m, boundary, finished, succeeded⟩

end Scanner
end TextMatch
