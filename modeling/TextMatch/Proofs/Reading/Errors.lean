import TextMatch.Proofs.Expr.Parts
import TextMatch.Proofs.Reading.Agreement

/-!
# What errors say

An error of a match without hooks is a mismatch, unless one of the expressions is defective or the
source is not readable to its end; each error names the defect of one of the expressions tried, or
the offset of the first malformed byte (`Scanner.expect_error_justified`). Defects and malformed
bytes are found by the parts that read, and everything around them hands them on, so the argument
runs over readers: `Failure.Caused` is what each of them keeps.
-/
namespace TextMatch

/-- The failure has its cause in one of the expressions that are a `part`, or in the source. -/
def Failure.Caused (whole : Bool) (part : Expr → Prop) : Failure → Prop
  | .unmet _ _ => True
  | .defective kind defect => ∃ d, part d ∧ d.kind = kind ∧ d.defect? = some defect
  | .unreadable => whole = false

def Reading.Caused (whole : Bool) (part : Expr → Prop) {α : Type} : Reading α → Prop
  | .ok _ _ => True
  | .error f => f.Caused whole part

def Reader.Caused (whole : Bool) (part : Expr → Prop) (r : Reader) : Prop :=
  ∀ rest, (r rest).Caused whole part

/-- What an error of a match of `es` over `s` stands for. -/
def MatchError.Justified (s : Source) (es : List Expr) : MatchError → Prop
  | .unmet _ _ => True
  | .refused _ _ => False
  | .defective kind defect =>
    ∃ e ∈ es, ∃ d : Expr, d.IsPart e ∧ d.kind = kind ∧ d.defect? = some defect
  | .unreadable error =>
    ∃ offset, error = .malformed offset ∧ offset < s.size ∧ s.LongestValid offset

variable {whole : Bool} {part : Expr → Prop}

namespace Reading

theorem Caused.andThen {α β : Type} {r : Reading α} {next : α → List Char → Reading β}
    (caused : r.Caused whole part) (onward : ∀ value rest, (next value rest).Caused whole part) :
    (r.andThen next).Caused whole part := by
  cases r with
  | ok value rest => exact onward value rest
  | error f => exact caused

theorem Caused.retry {α : Type} {f : Failure} {again : Reading α} (failed : f.Caused whole part)
    (onward : again.Caused whole part) :
    (if f.isMismatch then again else .error f).Caused whole part := by
  by_cases mismatch : f.isMismatch
  · rw [if_pos mismatch]
    exact onward
  · rw [if_neg mismatch]
    exact failed

end Reading

namespace Reader

variable {r : Reader} {rs : List Reader}

theorem consume_caused : (consume whole).Caused whole part := by
  intro rest
  cases rest with
  | nil => trivial
  | cons c rest =>
    by_cases stuck : rest = [] ∧ whole = false
    · rw [consume, if_pos stuck]
      exact stuck.2
    · rw [consume, if_neg stuck]
      trivial

theorem pointIf_caused (expr : Expr) (accepts : Char → Bool) :
    (pointIf whole expr accepts).Caused whole part := by
  intro rest
  unfold pointIf
  split
  · exact consume_caused rest
  · trivial

theorem points_caused (expr : Expr) (cs : List Char) (last : Option Char) :
    (points whole expr cs last).Caused whole part := by
  induction cs generalizing last with
  | nil => exact fun _ => trivial
  | cons c cs ih =>
    exact fun rest => (pointIf_caused expr (· == c) rest).andThen fun tail stop => ih tail stop

theorem literal_caused {text : String} (inside : part (.literal text)) :
    (literal whole text).Caused whole part := by
  intro rest
  unfold literal
  split
  · next empty => exact ⟨_, inside, rfl, if_pos empty⟩
  · exact points_caused _ _ _ rest

theorem range_caused {first last : Char} (inside : part (.range first last)) :
    (range whole first last).Caused whole part := by
  intro rest
  unfold range
  split
  · next reversed => exact ⟨_, inside, rfl, if_pos reversed⟩
  · exact pointIf_caused _ _ rest

theorem seqFrom_caused (caused : ∀ r ∈ rs, r.Caused whole part) (last : Option Char) :
    (seqFrom rs last).Caused whole part := by
  induction rs generalizing last with
  | nil => exact fun _ => trivial
  | cons r rs ih =>
    obtain ⟨head, tail⟩ := List.forall_mem_cons.mp caused
    exact fun rest => (head rest).andThen fun last stop => ih tail last stop

theorem firstOf_caused (caused : ∀ r ∈ rs, r.Caused whole part) (rest : List Char) :
    (firstOf rs rest).Caused whole part := by
  induction rs with
  | nil => trivial
  | cons r rs ih =>
    obtain ⟨head, tail⟩ := List.forall_mem_cons.mp caused
    have failed := head rest
    unfold firstOf
    cases result : r rest with
    | ok last stop => trivial
    | error f =>
      rw [result] at failed
      exact Reading.Caused.retry failed (ih tail)

theorem oneOf_caused (expr : Expr) (caused : ∀ r ∈ rs, r.Caused whole part) :
    (oneOf expr rs).Caused whole part := by
  intro rest
  refine (firstOf_caused caused rest).andThen fun found stop => ?_
  cases found with
  | some last => trivial
  | none => trivial

theorem anyHolds_caused (caused : ∀ r ∈ rs, r.Caused whole part) (rest : List Char) :
    (anyHolds rs rest).Caused whole part :=
  (firstOf_caused caused rest).andThen fun _ _ => trivial

theorem noneOf_caused (expr : Expr) (caused : ∀ r ∈ rs, r.Caused whole part) :
    (noneOf expr rs).Caused whole part := by
  intro rest
  refine (anyHolds_caused caused rest).andThen fun holds _ => ?_
  cases holds with
  | true => trivial
  | false => trivial

theorem ahead_caused (expr : Expr) (caused : ∀ r ∈ rs, r.Caused whole part) :
    (ahead expr rs).Caused whole part := by
  intro rest
  refine (anyHolds_caused caused rest).andThen fun holds _ => ?_
  cases holds with
  | true => trivial
  | false => trivial

theorem greedyRun_caused (caused : r.Caused whole part) (count : Nat) (last : Option Char)
    (rest : List Char) : (greedyRun r count last rest).Caused whole part := by
  fun_induction greedyRun r count last rest with
  | case1 count last rest tail stop result shorter ih => exact ih
  | case2 count last rest tail stop result same => trivial
  | case3 count last rest f result mismatch => trivial
  | case4 count last rest f result fatal =>
    have failed := caused rest
    rw [result] at failed
    exact failed

theorem bounded_caused (expr : Expr) (caused : r.Caused whole part) (low : Nat)
    (high : Option Nat) (rest : List Char) :
    (bounded expr r low high rest).Caused whole part := by
  refine (greedyRun_caused caused 0 none rest).andThen fun run stop => ?_
  split
  · trivial
  · trivial

theorem repeated_caused (expr : Expr) (caused : r.Caused whole part) (low : Nat)
    (high : Option Nat) : (repeated expr r low high).Caused whole part :=
  fun rest => (bounded_caused expr caused low high rest).andThen fun _ _ => trivial

theorem between_caused {low high : Nat} {e : Expr} (caused : r.Caused whole part)
    (inside : part (.between low high e)) :
    (between (.between low high e) r low high).Caused whole part := by
  intro rest
  unfold between
  split
  · next crossed => exact ⟨_, inside, rfl, if_pos crossed⟩
  · exact repeated_caused _ caused _ _ rest

theorem optionalFrom_caused (expr : Expr) (caused : ∀ r ∈ rs, r.Caused whole part)
    (last : Option Char) : (optionalFrom expr rs last).Caused whole part := by
  induction rs generalizing last with
  | nil => exact fun _ => trivial
  | cons r rs ih =>
    obtain ⟨head, tail⟩ := List.forall_mem_cons.mp caused
    intro rest
    have failed := bounded_caused expr head 0 (some 1) rest
    unfold optionalFrom
    split
    · exact ih tail last rest
    · exact ih tail _ _
    · next f result =>
      rw [result] at failed
      exact Reading.Caused.retry failed (ih tail last rest)

theorem untilFrom_caused (expr : Expr) (caused : ∀ r ∈ rs, r.Caused whole part)
    (inclusive : Bool) (last : Option Char) (rest : List Char) :
    (untilFrom whole expr rs inclusive last rest).Caused whole part := by
  induction rest generalizing last with
  | nil =>
    have failed := firstOf_caused caused []
    unfold untilFrom
    split
    · cases inclusive <;> trivial
    · trivial
    · next result =>
      rw [result] at failed
      exact failed
  | cons c rest ih =>
    have failed := firstOf_caused caused (c :: rest)
    unfold untilFrom
    split
    · cases inclusive <;> trivial
    · dsimp only
      split
      · next stuck => exact stuck.2
      · exact ih (some c)
    · next result =>
      rw [result] at failed
      exact failed

end Reader

theorem Expr.reader_caused (e : Expr) (inside : ∀ d : Expr, d.IsPart e → part d) :
    (e.reader whole).Caused whole part := by
  -- the members of an expression, whose parts are parts of it
  have members (e : Expr) (ih : ∀ d ∈ e.members, (∀ p : Expr, p.IsPart d → part p) →
      (d.reader whole).Caused whole part) (inside : ∀ d : Expr, d.IsPart e → part d) :
      ∀ r ∈ Expr.readers whole e.members, r.Caused whole part := by
    rw [Expr.readers_eq_map]
    exact List.forall_mem_map.mpr fun d member =>
      ih d member fun p within => inside p (.member within member)
  induction e using Expr.induction with
  | literal text => exact Reader.literal_caused (inside _ .self)
  | point c => exact Reader.pointIf_caused _ _
  | any => exact Reader.pointIf_caused _ _
  | noneOf es ih => exact Reader.noneOf_caused _ (members (.noneOf es) ih inside)
  | ahead es ih => exact Reader.ahead_caused _ (members (.ahead es) ih inside)
  | oneOf es ih => exact Reader.oneOf_caused _ (members (.oneOf es) ih inside)
  | seq es ih => exact Reader.seqFrom_caused (members (.seq es) ih inside) none
  | optional es ih =>
    exact Reader.optionalFrom_caused _ (members (.optional es) ih inside) none
  | between low high e ih =>
    have inner := ih fun d within => inside d (.member within (List.mem_singleton_self e))
    exact Reader.between_caused inner (inside _ .self)
  | atLeast low e ih =>
    have inner := ih fun d within => inside d (.member within (List.mem_singleton_self e))
    exact Reader.repeated_caused _ inner _ _
  | exactly times e ih =>
    have inner := ih fun d within => inside d (.member within (List.mem_singleton_self e))
    exact Reader.repeated_caused _ inner _ _
  | range first last => exact Reader.range_caused (inside _ .self)
  | untilAny es inclusive ih =>
    exact Reader.untilFrom_caused _ (members (.untilAny es inclusive) ih inside) inclusive none
  | hook h => exact fun _ => trivial

theorem Expr.listReader_caused (es : List Expr) :
    (Expr.listReader whole es).Caused whole fun d => ∃ e ∈ es, d.IsPart e := by
  refine Reader.seqFrom_caused ?_ none
  rw [Expr.readers_eq_map]
  exact List.forall_mem_map.mpr fun e member => e.reader_caused fun d within => ⟨e, member, within⟩

theorem Failure.Caused.justified {s : Source} {es : List Expr} {f : Failure}
    (caused : f.Caused s.isReadable fun d => ∃ e ∈ es, d.IsPart e) :
    (f.toError s).Justified s es := by
  cases f with
  | unmet expr rest => trivial
  | defective kind defect =>
    obtain ⟨d, ⟨e, member, within⟩, cause⟩ := caused
    exact ⟨e, member, d, within, cause⟩
  | unreadable => exact ⟨_, rfl, s.readableSize_lt_size caused, s.longestValid_readableSize⟩

/-- A justified error is a mismatch, if the source is UTF-8 and nothing is wrong with any of the
expressions. -/
theorem MatchError.Justified.eq_unmet {s : Source} {es : List Expr} {error : MatchError}
    (justified : error.Justified s es) (valid : s.bytes.IsValidUTF8)
    (sound : ∀ e ∈ es, ∀ d : Expr, d.IsPart e → d.defect? = none) :
    ∃ expr cursor, error = .unmet expr cursor := by
  cases error with
  | unmet expr cursor => exact ⟨expr, cursor, rfl⟩
  | refused name cursor => exact justified.elim
  | defective kind defect =>
    obtain ⟨e, member, d, within, _, found⟩ := justified
    rw [sound e member d within] at found
    cases found
  | unreadable cause =>
    obtain ⟨offset, _, inside, longest⟩ := justified
    have all := longest.longest s.size le_rfl (by
      rw [Source.size, ByteArray.extract_zero_size]; exact valid)
    omega

/-- Every failure of a match without hooks has its reason in the expressions or in the source, and
on a UTF-8 source, with nothing wrong with any of the expressions, it is a mismatch. -/
theorem Scanner.expect_error_justified {t : Scanner} {i : Nat} {es : List Expr}
    (visited : t.source.Visits i t.current) (free : Expr.hooksIn es = []) :
    ∃ m, t.expect es = some m ∧ ∀ error, m.result = .error error →
      error.Justified t.source es ∧
      (t.source.bytes.IsValidUTF8 →
        (∀ e ∈ es, ∀ d : Expr, d.IsPart e → d.defect? = none) →
        error.isMismatch = true ∧ ∃ expr cursor, error = .unmet expr cursor) := by
  obtain ⟨inside, start⟩ := At.of_index rfl visited
  have agrees := Session.expect_agrees free (show (Session.mk t []).scanner.At _ _ from start)
  have caused := @Expr.listReader_caused t.source.isReadable es (t.source.points.drop i)
  unfold Scanner.expect
  generalize Session.expect es ⟨t, []⟩ = outcome,
    Expr.listReader t.source.isReadable es (t.source.points.drop i) = reading
    at agrees caused ⊢
  cases agrees with
  | ok _ _ => exact ⟨_, rfl, fun error failed => by cases failed⟩
  | error _ =>
    refine ⟨_, rfl, fun error failed => ?_⟩
    cases failed
    have justified := Failure.Caused.justified caused
    refine ⟨justified, fun valid sound => ?_⟩
    obtain ⟨expr, cursor, same⟩ := justified.eq_unmet valid sound
    rw [same]
    exact ⟨rfl, expr, cursor, rfl⟩

/-- A byte that begins no character is found within a negated sequence, and not by the alternative
behind it. -/
theorem Scanner.expect_error_of_stray_byte :
    let t : Scanner := ⟨⟨⟨#[0x61, 0xFF]⟩⟩, ⟨.start, some 'a', 0⟩, none, none⟩
    let es : List Expr := [.oneOf [.noneOf [.seq [.point 'a', .any]], .literal ""]]
    t.source.Visits 0 t.current ∧ Expr.hooksIn es = [] ∧
      ∃ m, t.expect es = some m ∧ m.result = .error (.unreadable (.malformed 1)) ∧
        MatchError.Justified t.source es (.unreadable (.malformed 1)) := by
  intro t es
  have visited : t.source.Visits 0 t.current := .first (by decide)
  obtain ⟨m, finished, justified⟩ := @expect_error_justified t 0 es visited rfl
  have came : (t.expect es).bind (fun m =>
      match m.result with
      | .error (.unreadable cause) => some cause
      | _ => none) = some (.malformed 1) := by decide
  have failed : m.result = .error (.unreadable (.malformed 1)) := by
    rw [finished, Option.bind_some] at came
    split at came
    · next result =>
      cases came
      exact result
    · cases came
  exact ⟨visited, rfl, m, finished, failed, (justified _ failed).1⟩

end TextMatch
