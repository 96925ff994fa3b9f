import Mathlib.Data.List.Infix
import TextMatch.Proofs.Expr.Induction
import TextMatch.Proofs.Reading.Reader

/-!
# Progress of readers

A reader never goes back: what it leaves is left of what it was given, and so is what it leaves
together with the point consumed last (`Expr.reader_advances`). Loops over a reader rest on this.
-/
namespace TextMatch

def Failure.Within (start : List Char) : Failure → Prop
  | .unmet _ rest => rest <:+ start
  | _ => True

/-- All that the reading names is left of `start`; `tail` picks the point consumed last. -/
def Reading.Within {α : Type} (start : List Char) (tail : α → Option Char) : Reading α → Prop
  | .ok value rest => (tail value).toList ++ rest <:+ start
  | .error f => f.Within start

def Reader.Advances (r : Reader) : Prop := ∀ rest, (r rest).Within rest id

theorem Failure.Within.mono {start rest : List Char} {f : Failure} (within : f.Within rest)
    (suffix : rest <:+ start) : f.Within start := by
  cases f with
  | unmet expr place => exact within.trans suffix
  | defective kind defect => trivial
  | unreadable => trivial

namespace Reading.Within

variable {α β : Type} {start rest : List Char} {tail : α → Option Char} {f : β → Option Char}

theorem mono {r : Reading α} (within : r.Within rest tail) (suffix : rest <:+ start) :
    r.Within start tail := by
  cases r with
  | ok value stop => exact List.IsSuffix.trans within suffix
  | error failure => exact Failure.Within.mono within suffix

theorem suffix {value : α} (within : (ok value rest).Within start tail) : rest <:+ start :=
  (List.suffix_append _ _).trans within

theorem andThen {r : Reading α} {next : α → List Char → Reading β} (within : r.Within start tail)
    (onward : ∀ value stop, (tail value).toList ++ stop <:+ start →
      (next value stop).Within start f) : (r.andThen next).Within start f := by
  cases r with
  | ok value stop => exact onward value stop within
  | error failure => exact within

theorem retry {failure : Failure} {again : Reading α} (failed : failure.Within start)
    (onward : again.Within start tail) :
    (if failure.isMismatch then again else .error failure).Within start tail := by
  by_cases mismatch : failure.isMismatch
  · rw [if_pos mismatch]
    exact onward
  · rw [if_neg mismatch]
    exact failed

end Reading.Within

namespace Reader

variable {whole : Bool} {r : Reader} {rs : List Reader} {start rest : List Char} {expr : Expr}
  {last : Option Char}

theorem consume_advances (whole : Bool) : (consume whole).Advances := by
  intro rest
  cases rest with
  | nil => exact List.suffix_rfl
  | cons c rest =>
    by_cases stuck : rest = [] ∧ whole = false
    · rw [consume, if_pos stuck]
      trivial
    · rw [consume, if_neg stuck]
      exact List.suffix_rfl

theorem pointIf_advances (expr : Expr) (accepts : Char → Bool) :
    (pointIf whole expr accepts).Advances := by
  intro rest
  unfold pointIf
  split
  · exact consume_advances whole rest
  · exact List.suffix_rfl

theorem points_within (cs : List Char) (within : last.toList ++ rest <:+ start) :
    (points whole expr cs last rest).Within start id := by
  induction cs generalizing last rest with
  | nil => exact within
  | cons c cs ih =>
    have suffix : rest <:+ start := (List.suffix_append _ _).trans within
    exact ((pointIf_advances expr (· == c) rest).mono suffix).andThen fun _ _ reached => ih reached

theorem literal_advances (text : String) : (literal whole text).Advances := by
  intro rest
  unfold literal
  split
  · trivial
  · exact points_within _ List.suffix_rfl

theorem range_advances (first last : Char) : (range whole first last).Advances := by
  intro rest
  unfold range
  split
  · trivial
  · exact pointIf_advances _ _ rest

theorem seqFrom_within (advance : ∀ r ∈ rs, r.Advances) (within : last.toList ++ rest <:+ start) :
    (seqFrom rs last rest).Within start id := by
  induction rs generalizing last rest with
  | nil => exact within
  | cons r rs ih =>
    obtain ⟨head, tail⟩ := List.forall_mem_cons.mp advance
    have suffix : rest <:+ start := (List.suffix_append _ _).trans within
    exact ((head rest).mono suffix).andThen fun _ _ reached => ih tail reached

theorem seq_advances (advance : ∀ r ∈ rs, r.Advances) : (seq rs).Advances :=
  fun _ => seqFrom_within advance List.suffix_rfl

theorem firstOf_within (advance : ∀ r ∈ rs, r.Advances) (rest : List Char) :
    (firstOf rs rest).Within rest Option.join := by
  induction rs with
  | nil => exact List.suffix_rfl
  | cons r rs ih =>
    obtain ⟨head, tail⟩ := List.forall_mem_cons.mp advance
    have within := head rest
    unfold firstOf
    cases result : r rest with
    | ok last stop =>
      rw [result] at within
      exact within
    | error f =>
      rw [result] at within
      exact Reading.Within.retry within (ih tail)

theorem oneOf_advances (expr : Expr) (advance : ∀ r ∈ rs, r.Advances) :
    (oneOf expr rs).Advances := by
  intro rest
  refine (firstOf_within advance rest).andThen fun found stop reached => ?_
  cases found with
  | none => exact List.suffix_rfl
  | some last => exact reached

theorem anyHolds_within (advance : ∀ r ∈ rs, r.Advances) (rest : List Char) :
    (anyHolds rs rest).Within rest fun _ => none :=
  (firstOf_within advance rest).andThen fun _ _ _ => List.suffix_rfl

theorem noneOf_advances (expr : Expr) (advance : ∀ r ∈ rs, r.Advances) :
    (noneOf expr rs).Advances := by
  intro rest
  refine (anyHolds_within advance rest).andThen fun holds _ _ => ?_
  cases holds with
  | true => exact List.suffix_rfl
  | false => exact List.suffix_rfl

theorem ahead_advances (expr : Expr) (advance : ∀ r ∈ rs, r.Advances) :
    (ahead expr rs).Advances := by
  intro rest
  refine (anyHolds_within advance rest).andThen fun holds _ _ => ?_
  cases holds with
  | true => exact List.suffix_rfl
  | false => exact List.suffix_rfl

theorem greedyRun_within (advance : r.Advances) (count : Nat)
    (within : last.toList ++ rest <:+ start) :
    (greedyRun r count last rest).Within start Prod.snd := by
  have suffix : rest <:+ start := (List.suffix_append _ _).trans within
  have reached := (advance rest).mono suffix
  fun_induction greedyRun r count last rest with
  | case1 count last rest tail stop result shorter ih =>
    rw [result] at reached
    exact ih reached reached.suffix ((advance stop).mono reached.suffix)
  | case2 count last rest tail stop result same =>
    rw [result] at reached
    exact reached
  | case3 count last rest f result mismatch => exact within
  | case4 count last rest f result fatal =>
    rw [result] at reached
    exact reached

theorem bounded_within (expr : Expr) (advance : r.Advances) (low : Nat) (high : Option Nat)
    (rest : List Char) : (bounded expr r low high rest).Within rest Prod.snd := by
  refine (greedyRun_within advance 0 List.suffix_rfl).andThen fun run stop reached => ?_
  split
  · exact reached
  · exact (List.suffix_append _ _).trans reached

/-- Only where there was no success at all is the count left as it was. -/
theorem count_of_greedyRun {count k : Nat} {tail : Option Char} {stop : List Char}
    (result : greedyRun r count last rest = .ok (k, tail) stop) :
    count ≤ k ∧ (k = count → stop = rest) := by
  fun_induction greedyRun r count last rest with
  | case1 count last rest tail stop _ shorter ih =>
    obtain ⟨more, _⟩ := ih result
    exact ⟨by omega, fun same => absurd same (by omega)⟩
  | case2 count last rest tail stop _ same =>
    cases result
    exact ⟨Nat.le_succ count, fun same => absurd same (by omega)⟩
  | case3 count last rest f _ mismatch =>
    cases result
    exact ⟨le_rfl, fun _ => rfl⟩
  | case4 count last rest f _ fatal => cases result

theorem rest_of_bounded_zero {low : Nat} {high : Option Nat} {tail : Option Char}
    {stop : List Char} (result : bounded expr r low high rest = .ok (0, tail) stop) :
    stop = rest := by
  unfold bounded at result
  cases run : greedyRun r 0 none rest with
  | ok value stop =>
    rw [run] at result
    simp only [Reading.andThen] at result
    split at result
    · cases result
      exact (count_of_greedyRun run).2 rfl
    · cases result
  | error f =>
    rw [run] at result
    cases result

theorem repeated_advances (expr : Expr) (advance : r.Advances) (low : Nat) (high : Option Nat) :
    (repeated expr r low high).Advances :=
  fun rest => (bounded_within expr advance low high rest).andThen fun _ _ reached => reached

theorem between_advances (expr : Expr) (advance : r.Advances) (low high : Nat) :
    (between expr r low high).Advances := by
  intro rest
  unfold between
  split
  · trivial
  · exact repeated_advances expr advance _ _ rest

theorem optionalFrom_within (expr : Expr) (advance : ∀ r ∈ rs, r.Advances)
    (within : last.toList ++ rest <:+ start) :
    (optionalFrom expr rs last rest).Within start id := by
  induction rs generalizing last rest with
  | nil => exact within
  | cons r rs ih =>
    obtain ⟨head, tail⟩ := List.forall_mem_cons.mp advance
    have suffix : rest <:+ start := (List.suffix_append _ _).trans within
    have reached := (bounded_within expr head 0 (some 1) rest).mono suffix
    unfold optionalFrom
    split
    · exact ih tail within
    · next result =>
      rw [result] at reached
      exact ih tail reached
    · next f result =>
      rw [result] at reached
      exact Reading.Within.retry reached (ih tail within)

theorem optional_advances (expr : Expr) (advance : ∀ r ∈ rs, r.Advances) :
    (optional expr rs).Advances :=
  fun _ => optionalFrom_within expr advance List.suffix_rfl

theorem untilFrom_within (expr : Expr) (advance : ∀ r ∈ rs, r.Advances) (inclusive : Bool)
    (within : last.toList ++ rest <:+ start) :
    (untilFrom whole expr rs inclusive last rest).Within start id := by
  induction rest generalizing last with
  | nil =>
    have suffix : [] <:+ start := List.nil_suffix
    have reached := (firstOf_within advance []).mono suffix
    unfold untilFrom
    split
    · next result =>
      rw [result] at reached
      split
      · exact reached
      · exact within
    · exact suffix
    · next result =>
      rw [result] at reached
      exact reached
  | cons c rest ih =>
    have suffix : c :: rest <:+ start := (List.suffix_append _ _).trans within
    have reached := (firstOf_within advance (c :: rest)).mono suffix
    unfold untilFrom
    split
    · next result =>
      rw [result] at reached
      split
      · exact reached
      · exact within
    · dsimp only
      split
      · trivial
      · exact ih suffix
    · next result =>
      rw [result] at reached
      exact reached

theorem untilAny_advances (expr : Expr) (advance : ∀ r ∈ rs, r.Advances) (inclusive : Bool) :
    (untilAny whole expr rs inclusive).Advances :=
  fun _ => untilFrom_within expr advance inclusive List.suffix_rfl

end Reader

theorem Expr.reader_advances (whole : Bool) (e : Expr) : (e.reader whole).Advances := by
  -- the members of a list of expressions
  have members {es : List Expr} (ih : ∀ e ∈ es, (e.reader whole).Advances) :
      ∀ r ∈ Expr.readers whole es, r.Advances := by
    rw [Expr.readers_eq_map]
    exact List.forall_mem_map.mpr ih
  induction e using Expr.induction with
  | literal text => exact Reader.literal_advances text
  | point c => exact Reader.pointIf_advances _ _
  | any => exact Reader.pointIf_advances _ _
  | noneOf es ih => exact Reader.noneOf_advances _ (members ih)
  | ahead es ih => exact Reader.ahead_advances _ (members ih)
  | oneOf es ih => exact Reader.oneOf_advances _ (members ih)
  | seq es ih => exact Reader.seq_advances (members ih)
  | optional es ih => exact Reader.optional_advances _ (members ih)
  | between low high e ih => exact Reader.between_advances _ ih low high
  | atLeast low e ih => exact Reader.repeated_advances _ ih _ _
  | exactly times e ih => exact Reader.repeated_advances _ ih _ _
  | range first last => exact Reader.range_advances first last
  | untilAny es inclusive ih => exact Reader.untilAny_advances _ (members ih) inclusive
  | hook h => exact fun _ => List.suffix_rfl

theorem Expr.listReader_advances (whole : Bool) (es : List Expr) :
    (Expr.listReader whole es).Advances := by
  refine Reader.seq_advances ?_
  rw [Expr.readers_eq_map]
  exact List.forall_mem_map.mpr fun e _ => e.reader_advances whole

end TextMatch
