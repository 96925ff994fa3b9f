import TextMatch.Proofs.Expr.Parts
import TextMatch.Proofs.Matcher.Limit
import TextMatch.Proofs.Scanner.Reach

/-!
# Matching comes to an end

No limit stops a loop where no hook goes back. A round of a loop either leaves fewer points than
it found or is the last one: the search of `untilAny` steps over a point, and a greedy run ends
with the first success that leaves the cursor where it was. So a loop takes at most one round more
than there are points left, however its members loop themselves (`Matcher.greedyRun_finishes`,
`Matcher.untilFrom_finishes`), and since no point is shorter than a byte, the bytes that are left
bound all the loops of a match at once (`Session.expect_terminates`).

A hook counts as proceeding if it always comes back, never with a cursor before the one it was
called at. How it uses its scanner is not asked. It is enough that it proceeds on some class of
scanners that matching does not lead out of: the widest is that of all scanners that stand in the
source, and a hook that relies on the bookmark may need a narrower one.
-/
namespace TextMatch

open String (utf8Len)

/-- Scanners that stand in `source`, closed under what a match does with them. -/
structure Scanner.Domain (source : Source) where
  holds : Scanner → Prop
  stands {s : Scanner} : holds s → ∃ rest, s.At source rest
  jump {s t : Scanner} : holds s → holds t → holds (s.jump t.current)
  moveTo {s : Scanner} {c : Cursor} :
    holds s → s.source.cursorAfter s.current = .ok (some c) → holds (s.moveTo c)

/-- In the domain, with the points `rest` left to be read. -/
structure Scanner.Domain.At {source : Source} (D : Scanner.Domain source) (rest : List Char)
    (t : Scanner) : Prop where
  holds : D.holds t
  stands : t.At source rest

/-- In the domain, with some end of the points `rest` left to be read. -/
def Scanner.Domain.Within {source : Source} (D : Scanner.Domain source) (rest : List Char)
    (t : Scanner) : Prop :=
  ∃ stop, stop <:+ rest ∧ D.At stop t

/-- The hook comes back from every scanner of the domain, to one that is not before it. -/
def Hook.Proceeds {source : Source} (D : Scanner.Domain source) (h : Hook) : Prop :=
  ∀ s, D.holds s → ∃ visit, h.run s = some visit ∧ D.holds visit.scanner ∧
    s.current.offset ≤ visit.scanner.current.offset

/-- Comes to an end, with `ok` of a success and `failed` of the scanner after a failure. -/
def Outcome.Finishes {α : Type} (ok : α → Scanner → Prop) (failed : Scanner → Prop) :
    Outcome α → Prop
  | .ok value τ => ok value τ.scanner
  | .error _ τ => failed τ.scanner
  | .unfinished => False

section Definitions

variable {source : Source} (D : Scanner.Domain source) (bound : Nat)

/-- Finishes wherever fewer than `bound` points are left, and a success is not before the start. -/
def Matcher.Halts (m : Matcher) : Prop :=
  ∀ σ rest, D.At rest σ.scanner → rest.length < bound →
    (m σ).Finishes (fun _ => D.Within rest) D.holds

/-- The same, and a failure is put back to the start. -/
def Matcher.Proceeds (m : Matcher) : Prop :=
  ∀ σ rest, D.At rest σ.scanner → rest.length < bound →
    (m σ).Finishes (fun _ => D.Within rest) (D.At rest)

end Definitions

variable {source : Source} {D : Scanner.Domain source}

namespace Scanner

/-- The scanners whose cursors are all met by the walk over the source. Every scanner of the source
that can be reached is one (`Reaches.canonical`). -/
def Domain.canonical (source : Source) : Domain source where
  holds := Canonical source
  stands canonical := by
    obtain ⟨i, visited⟩ := canonical.current
    obtain ⟨rest, here, _⟩ := At.of_visits canonical.source_eq visited
    exact ⟨rest, here⟩
  jump canonical canonicalToo := canonical.jump canonicalToo.current
  moveTo := Canonical.moveTo

namespace Domain

variable {rest start : List Char} {t u : Scanner}

theorem At.within (here : D.At rest t) : D.Within rest t := ⟨rest, List.suffix_rfl, here⟩

theorem At.back (here : D.At rest t) (held : D.holds u) : D.At rest (u.jump t.current) := by
  obtain ⟨stop, there⟩ := D.stands held
  exact ⟨D.jump held here.holds, here.stands.back there.source_eq⟩

theorem Within.holds (within : D.Within rest t) : D.holds t := by
  obtain ⟨stop, _, here⟩ := within
  exact here.holds

theorem Within.mono (within : D.Within rest t) (suffix : rest <:+ start) : D.Within start t := by
  obtain ⟨stop, shorter, here⟩ := within
  exact ⟨stop, shorter.trans suffix, here⟩

end Domain

/-- No point is shorter than a byte. -/
theorem At.length_le {t : Scanner} {rest : List Char} (here : t.At source rest) :
    rest.length ≤ source.size - t.current.offset := by
  obtain ⟨before, split⟩ := here.leaves.split
  have whole : utf8Len before + utf8Len rest ≤ source.size := by
    rw [← String.utf8Len_append, ← split]
    exact source.readableSize_le_size
  have wide := Source.length_le_utf8Len rest
  rw [here.current_eq, Source.offset_cursorAt split]
  omega

end Scanner

namespace Outcome.Finishes

variable {α β : Type} {ok ok' : α → Scanner → Prop} {failed failed' : Scanner → Prop}
  {o : Outcome α} {σ : Session}

theorem ne_unfinished (finishes : o.Finishes ok failed) : o ≠ .unfinished := by
  rintro rfl
  exact finishes

theorem mono (finishes : o.Finishes ok failed) (oks : ∀ value t, ok value t → ok' value t)
    (fails : ∀ t, failed t → failed' t) : o.Finishes ok' failed' := by
  cases o with
  | ok value τ => exact oks value τ.scanner finishes
  | error e τ => exact fails τ.scanner finishes
  | unfinished => exact finishes

theorem andThen {next : α → Session → Outcome β} {okNext : β → Scanner → Prop}
    (finishes : o.Finishes ok failed) (fails : ∀ t, failed t → failed' t)
    (onward : ∀ value τ, ok value τ.scanner → (next value τ).Finishes okNext failed') :
    (o.andThen next).Finishes okNext failed' := by
  cases o with
  | ok value τ => exact onward value τ finishes
  | error e τ => exact fails τ.scanner finishes
  | unfinished => exact finishes

/-- A mismatch is followed by something else, any other error ends the match. -/
theorem retry {e : MatchError} (left : failed σ.scanner) (onward : o.Finishes ok failed) :
    (if e.isMismatch then o else .error e σ).Finishes ok failed := by
  by_cases mismatch : e.isMismatch
  · rw [if_pos mismatch]
    exact onward
  · rw [if_neg mismatch]
    exact left

theorem rewinding {rest : List Char} (finishes : o.Finishes ok D.holds)
    (here : D.At rest σ.scanner) : (o.rewinding σ.current).Finishes ok (D.At rest) := by
  cases o with
  | ok value τ => exact finishes
  | error e τ => exact here.back finishes
  | unfinished => exact finishes

end Outcome.Finishes

namespace Matcher

variable {m : Matcher} {ms : List Matcher} {σ : Session} {rest start : List Char} {bound : Nat}

theorem Proceeds.halts (proceeds : m.Proceeds D bound) : m.Halts D bound :=
  fun σ rest here fits => (proceeds σ rest here fits).mono (fun _ _ => id) fun _ back => back.holds

theorem Halts.within (halts : m.Halts D bound) (within : D.Within start σ.scanner)
    (fits : start.length < bound) : (m σ).Finishes (fun _ => D.Within start) D.holds := by
  obtain ⟨rest, suffix, here⟩ := within
  exact (halts σ rest here (lt_of_le_of_lt suffix.length_le fits)).mono
    (fun _ _ reached => reached.mono suffix) fun _ => id

theorem attempt_proceeds (kind : Kind) (halts : m.Halts D bound) :
    (attempt kind m).Proceeds D bound := by
  intro σ rest here fits
  have finishes := halts σ rest here fits
  unfold attempt
  generalize m σ = o at finishes ⊢
  cases o with
  | ok boundary τ => exact finishes
  | error e τ => exact here.back finishes
  | unfinished => exact finishes

theorem consume_finishes (here : D.At rest σ.scanner) :
    (consume σ).Finishes (fun _ => D.At rest.tail) D.holds := by
  unfold consume Session.advance Session.source Session.current
  cases rest with
  | nil =>
    rw [here.stands.cursorAfter_nil]
    exact here
  | cons c rest =>
    have stepped := here.stands.cursorAfter_cons
    by_cases stuck : rest = [] ∧ source.isReadable = false
    · rw [if_pos stuck] at stepped
      rw [stepped]
      exact here.holds
    · rw [if_neg stuck] at stepped
      rw [stepped]
      exact ⟨D.moveTo here.holds stepped, here.stands.moveTo (by simpa using stuck)⟩

theorem pointIf_halts (expr : Expr) (accepts : Char → Bool) :
    (pointIf expr accepts).Halts D bound := by
  intro σ rest here _
  unfold pointIf
  split
  · exact (consume_finishes here).andThen (fun _ => id) fun _ τ there =>
      ⟨rest.tail, List.tail_suffix rest, there⟩
  · exact here.holds

theorem points_finishes (expr : Expr) (cs : List Char) (last : Cursor)
    (within : D.Within start σ.scanner) (fits : start.length < bound) :
    (points expr cs last σ).Finishes (fun _ => D.Within start) D.holds := by
  induction cs generalizing last σ with
  | nil => exact within
  | cons c cs ih =>
    exact ((pointIf_halts expr (· == c)).within within fits).andThen (fun _ => id)
      fun boundary τ reached => ih boundary reached

theorem literal_halts (text : String) : (literal text).Halts D bound := by
  intro σ rest here fits
  unfold literal
  split
  · exact here.holds
  · exact points_finishes _ _ _ here.within fits

theorem range_halts (first last : Char) : (range first last).Halts D bound := by
  intro σ rest here fits
  unfold range
  split
  · exact here.holds
  · exact pointIf_halts _ _ σ rest here fits

theorem seqFrom_finishes (proceed : ∀ m ∈ ms, m.Proceeds D bound) (last : Cursor)
    (within : D.Within start σ.scanner) (fits : start.length < bound) :
    (seqFrom ms last σ).Finishes (fun _ => D.Within start) D.holds := by
  induction ms generalizing last σ with
  | nil => exact within
  | cons m ms ih =>
    obtain ⟨head, tail⟩ := List.forall_mem_cons.mp proceed
    exact (head.halts.within within fits).andThen (fun _ => id) fun boundary τ reached =>
      ih tail boundary reached

theorem seq_halts (proceed : ∀ m ∈ ms, m.Proceeds D bound) : (seq ms).Halts D bound :=
  fun σ _ here fits => seqFrom_finishes proceed σ.current here.within fits

theorem firstOf_finishes (proceed : ∀ m ∈ ms, m.Proceeds D bound) (here : D.At rest σ.scanner)
    (fits : rest.length < bound) :
    (firstOf ms σ).Finishes (fun found t => D.Within rest t ∧ (found = none → D.At rest t))
      (D.At rest) := by
  induction ms generalizing σ with
  | nil => exact ⟨here.within, fun _ => here⟩
  | cons m ms ih =>
    obtain ⟨head, tail⟩ := List.forall_mem_cons.mp proceed
    have finishes := head σ rest here fits
    unfold firstOf
    generalize m σ = o at finishes ⊢
    cases o with
    | ok boundary τ => exact ⟨finishes, fun nothing => by cases nothing⟩
    | error e τ => exact .retry finishes (ih tail finishes)
    | unfinished => exact finishes.elim

theorem oneOf_halts (expr : Expr) (proceed : ∀ m ∈ ms, m.Proceeds D bound) :
    (oneOf expr ms).Halts D bound := by
  intro σ rest here fits
  refine (firstOf_finishes proceed here fits).andThen (fun _ back => back.holds)
    fun found τ reached => ?_
  cases found with
  | none => exact reached.1.holds
  | some boundary => exact reached.1

theorem anyHolds_finishes (proceed : ∀ m ∈ ms, m.Proceeds D bound) (here : D.At rest σ.scanner)
    (fits : rest.length < bound) :
    (anyHolds ms σ).Finishes (fun _ => D.At rest) D.holds := by
  refine (firstOf_finishes proceed here fits).andThen (fun _ back => back.holds)
    fun found τ reached => ?_
  cases found with
  | none => exact reached.2 rfl
  | some boundary => exact here.back reached.1.holds

theorem noneOf_halts (expr : Expr) (proceed : ∀ m ∈ ms, m.Proceeds D bound) :
    (noneOf expr ms).Halts D bound := by
  intro σ rest here fits
  refine (anyHolds_finishes proceed here fits).andThen (fun _ => id) fun holds τ back => ?_
  cases holds with
  | true => exact back.holds
  | false => exact back.within

theorem ahead_halts (expr : Expr) (proceed : ∀ m ∈ ms, m.Proceeds D bound) :
    (ahead expr ms).Halts D bound := by
  intro σ rest here fits
  refine (anyHolds_finishes proceed here fits).andThen (fun _ => id) fun holds τ back => ?_
  cases holds with
  | true => exact back.within
  | false => exact back.holds

/-- The points left bound the rounds: a round that is not the last leaves fewer of them. -/
theorem greedyRun_finishes (proceeds : m.Proceeds D bound) {rounds : Nat} (count : Nat)
    (last : Cursor) (here : D.At rest σ.scanner) (suffix : rest <:+ start)
    (fits : start.length < bound) (enough : rest.length < rounds) :
    (greedyRun m rounds count last σ).Finishes (fun _ => D.Within start) D.holds := by
  induction rounds generalizing count last σ rest with
  | zero => cases enough
  | succ rounds ih =>
    have finishes := proceeds σ rest here (lt_of_le_of_lt suffix.length_le fits)
    unfold greedyRun
    generalize m σ = o at finishes ⊢
    cases o with
    | ok boundary τ =>
      obtain ⟨stop, shorter, there⟩ := finishes
      simp only [Session.current, here.stands.current_eq_iff there.stands shorter]
      by_cases fewer : stop.length < rest.length
      · rw [if_neg (not_not.mpr fewer)]
        exact ih (count + 1) boundary there (shorter.trans suffix) (by omega)
      · rw [if_pos fewer]
        exact ⟨stop, shorter.trans suffix, there⟩
    | error e τ => exact .retry finishes.holds (finishes.within.mono suffix)
    | unfinished => exact finishes.elim

theorem bounded_finishes (expr : Expr) (proceeds : m.Proceeds D bound) (low : Nat)
    (high : Option Nat) (here : D.At rest σ.scanner) (fits : rest.length < bound) :
    (bounded bound expr m low high σ).Finishes (fun _ => D.Within rest) (D.At rest) := by
  refine Outcome.Finishes.rewinding ?_ here
  refine (greedyRun_finishes proceeds 0 σ.current here List.suffix_rfl fits fits).andThen
    (fun _ => id) fun run τ reached => ?_
  split
  · exact reached
  · exact reached.holds

theorem repeated_halts (expr : Expr) (proceeds : m.Proceeds D bound) (low : Nat)
    (high : Option Nat) : (repeated bound expr m low high).Halts D bound :=
  fun _ _ here fits => (bounded_finishes expr proceeds low high here fits).andThen
    (fun _ back => back.holds) fun _ _ reached => reached

theorem between_halts (expr : Expr) (proceeds : m.Proceeds D bound) (low high : Nat) :
    (between bound expr m low high).Halts D bound := by
  intro σ rest here fits
  unfold between
  split
  · exact here.holds
  · exact repeated_halts expr proceeds _ _ σ rest here fits

theorem optionalFrom_finishes (expr : Expr) (proceed : ∀ m ∈ ms, m.Proceeds D bound)
    (last : Cursor) (within : D.Within start σ.scanner) (fits : start.length < bound) :
    (optionalFrom bound expr ms last σ).Finishes (fun _ => D.Within start) D.holds := by
  induction ms generalizing last σ with
  | nil => exact within
  | cons m ms ih =>
    obtain ⟨head, tail⟩ := List.forall_mem_cons.mp proceed
    obtain ⟨rest, suffix, here⟩ := within
    have finishes := bounded_finishes expr head 0 (some 1) here
      (lt_of_le_of_lt suffix.length_le fits)
    unfold optionalFrom
    generalize bounded bound expr m 0 (some 1) σ = o at finishes ⊢
    cases o with
    | ok run τ =>
      obtain ⟨count, boundary⟩ := run
      have reached := Scanner.Domain.Within.mono finishes suffix
      cases count with
      | zero => exact ih tail last reached
      | succ count => exact ih tail boundary reached
    | error e τ => exact .retry finishes.holds (ih tail last (finishes.within.mono suffix))
    | unfinished => exact finishes.elim

theorem optional_halts (expr : Expr) (proceed : ∀ m ∈ ms, m.Proceeds D bound) :
    (optional bound expr ms).Halts D bound :=
  fun σ _ here fits => optionalFrom_finishes expr proceed σ.current here.within fits

/-- The points left bound the rounds: a round that is not the last steps over one of them. -/
theorem untilFrom_finishes (expr : Expr) (proceed : ∀ m ∈ ms, m.Proceeds D bound)
    (inclusive : Bool) {rounds : Nat} (last : Cursor) (here : D.At rest σ.scanner)
    (suffix : rest <:+ start) (fits : start.length < bound) (enough : rest.length < rounds) :
    (untilFrom expr ms inclusive rounds last σ).Finishes (fun _ => D.Within start) D.holds := by
  induction rounds generalizing last σ rest with
  | zero => cases enough
  | succ rounds ih =>
    have finishes := firstOf_finishes proceed here (lt_of_le_of_lt suffix.length_le fits)
    unfold untilFrom
    generalize firstOf ms σ = o at finishes ⊢
    cases o with
    | ok found τ =>
      obtain ⟨reached, unmoved⟩ := finishes
      cases found with
      | some boundary =>
        cases inclusive with
        | true => exact reached.mono suffix
        | false => exact (here.back reached.holds).within.mono suffix
      | none =>
        dsimp only
        rw [Session.current, here.stands.current_eq, Source.isEnd_cursorAt]
        cases rest with
        | nil => exact reached.holds
        | cons c rest =>
          refine (consume_finishes (unmoved rfl)).andThen (fun _ => id) fun _ υ onward => ?_
          exact ih _ onward ((List.suffix_cons c rest).trans suffix) (by simpa using enough)
    | error e τ => exact finishes.holds
    | unfinished => exact finishes.elim

theorem untilAny_halts (expr : Expr) (proceed : ∀ m ∈ ms, m.Proceeds D bound)
    (inclusive : Bool) : (untilAny bound expr ms inclusive).Halts D bound :=
  fun σ _ here fits =>
    untilFrom_finishes expr proceed inclusive σ.current here List.suffix_rfl fits fits

theorem callHook_halts {h : Hook} (proceeds : h.Proceeds D) : (callHook h).Halts D bound := by
  intro σ rest here _
  obtain ⟨visit, ran, held, onward⟩ := proceeds σ.scanner here.holds
  obtain ⟨stop, there⟩ := D.stands held
  rw [here.stands.current_eq, there.current_eq] at onward
  have suffix := Source.suffix_of_offset_le here.stands.leaves there.leaves onward
  have reached : D.Within rest visit.scanner := ⟨stop, suffix, held, there⟩
  unfold callHook
  rw [ran]
  dsimp only
  split
  · show D.Within rest (hookBoundary σ.current _).2.scanner
    rw [scanner_hookBoundary]
    exact reached
  · exact held

end Matcher

theorem Expr.matcher_proceeds (limit : Nat) (e : Expr) (proceed : ∀ h ∈ e.hooks, h.Proceeds D) :
    (e.matcher limit).Proceeds D limit := by
  have members {es : List Expr} :=
    @Expr.forall_matchers (Matcher.Proceeds D limit) (Hook.Proceeds D) limit es
  induction e using Expr.induction with
  | literal text => exact Matcher.attempt_proceeds _ (Matcher.literal_halts text)
  | point c => exact Matcher.attempt_proceeds _ (Matcher.pointIf_halts _ _)
  | any => exact Matcher.attempt_proceeds _ (Matcher.pointIf_halts _ _)
  | noneOf es ih => exact Matcher.attempt_proceeds _ (Matcher.noneOf_halts _ (members ih proceed))
  | ahead es ih => exact Matcher.attempt_proceeds _ (Matcher.ahead_halts _ (members ih proceed))
  | oneOf es ih => exact Matcher.attempt_proceeds _ (Matcher.oneOf_halts _ (members ih proceed))
  | seq es ih => exact Matcher.attempt_proceeds _ (Matcher.seq_halts (members ih proceed))
  | optional es ih =>
    exact Matcher.attempt_proceeds _ (Matcher.optional_halts _ (members ih proceed))
  | between low high e ih =>
    exact Matcher.attempt_proceeds _ (Matcher.between_halts _ (ih proceed) low high)
  | atLeast low e ih =>
    exact Matcher.attempt_proceeds _ (Matcher.repeated_halts _ (ih proceed) _ _)
  | exactly times e ih =>
    exact Matcher.attempt_proceeds _ (Matcher.repeated_halts _ (ih proceed) _ _)
  | range first last => exact Matcher.attempt_proceeds _ (Matcher.range_halts first last)
  | untilAny es inclusive ih =>
    exact Matcher.attempt_proceeds _ (Matcher.untilAny_halts _ (members ih proceed) inclusive)
  | hook h =>
    exact Matcher.attempt_proceeds _
      (Matcher.callHook_halts (proceed h (List.mem_singleton_self h)))

theorem Expr.matchers_proceed (limit : Nat) (es : List Expr)
    (proceed : ∀ h ∈ Expr.hooksIn es, h.Proceeds D) :
    ∀ m ∈ Expr.matchers limit es, m.Proceeds D limit :=
  Expr.forall_matchers (fun e _ => e.matcher_proceeds limit) proceed

theorem Expr.listMatcher_proceeds (limit : Nat) (es : List Expr)
    (proceed : ∀ h ∈ Expr.hooksIn es, h.Proceeds D) :
    (Expr.listMatcher limit es).Proceeds D limit := by
  have members := Expr.matchers_proceed limit es proceed
  intro σ rest here fits
  unfold Expr.listMatcher
  split
  · next e => exact members _ (by simp [Expr.matchers]) σ rest here fits
  · exact (Matcher.seq_halts members σ rest here fits).rewinding here

namespace Session

variable {σ : Session} {rest : List Char} {limit : Nat} {es : List Expr}

theorem expectWithin_finishes (here : D.At rest σ.scanner) (fits : rest.length < limit)
    (proceed : ∀ h ∈ Expr.hooksIn es, h.Proceeds D) :
    (σ.expectWithin limit es).Finishes (fun _ => D.Within rest) (D.At rest) := by
  have finishes := Expr.listMatcher_proceeds limit es proceed (σ.emit (.entered es.length)) rest
    here fits
  unfold expectWithin
  generalize Expr.listMatcher limit es (σ.emit (.entered es.length)) = o at finishes ⊢
  cases o with
  | ok boundary τ => exact finishes
  | error e τ => exact finishes
  | unfinished => exact finishes

theorem greedyRun_settles {e : Expr} (proceed : ∀ h ∈ e.hooks, h.Proceeds D)
    (here : D.At rest σ.scanner) (fits : rest.length < limit) (count : Nat) (last : Cursor) :
    Settles (rest.length + 1) fun rounds =>
      Matcher.greedyRun (e.matcher limit) rounds count last σ := by
  have finishes := Matcher.greedyRun_finishes (e.matcher_proceeds limit proceed) count last here
    List.suffix_rfl fits (Nat.lt_succ_self rest.length)
  exact .of_below finishes.ne_unfinished fun rounds more =>
    Matcher.greedyRun_below (.refl _) more count last σ

theorem untilFrom_settles (expr : Expr) (proceed : ∀ h ∈ Expr.hooksIn es, h.Proceeds D)
    (here : D.At rest σ.scanner) (fits : rest.length < limit) (inclusive : Bool) (last : Cursor) :
    Settles (rest.length + 1) fun rounds =>
      Matcher.untilFrom expr (Expr.matchers limit es) inclusive rounds last σ := by
  have finishes := Matcher.untilFrom_finishes expr (Expr.matchers_proceed limit es proceed)
    inclusive last here List.suffix_rfl fits (Nat.lt_succ_self rest.length)
  have same : List.Forall₂ Matcher.Below (Expr.matchers limit es) (Expr.matchers limit es) :=
    List.forall₂_same.mpr fun m _ => .refl m
  exact .of_below finishes.ne_unfinished fun rounds more =>
    Matcher.untilFrom_below expr same inclusive more last σ

/-- A match comes to an end if its hooks proceed. As many rounds for each of its loops as there
are bytes left, and one more, are enough, and neither any greater limit nor the one that `expect`
works with gives anything else. Of the loops themselves, a greedy run and a search take at most one
round more than there are points left where they begin. -/
theorem expect_terminates (D : Scanner.Domain source) (start : D.holds σ.scanner)
    (proceed : ∀ h ∈ Expr.hooksIn es, h.Proceeds D) :
    (Settles (source.size - σ.current.offset + 1) fun limit => σ.expectWithin limit es) ∧
    σ.expect es = σ.expectWithin (source.size - σ.current.offset + 1) es ∧
    ∀ d ∈ es, ∀ τ rest limit, D.At rest τ.scanner → rest.length < limit →
      (∀ e : Expr, e.IsPart d → ∀ count last, Settles (rest.length + 1) fun rounds =>
        Matcher.greedyRun (e.matcher limit) rounds count last τ) ∧
      ∀ members inclusive, (Expr.untilAny members inclusive).IsPart d → ∀ last,
        Settles (rest.length + 1) fun rounds =>
          Matcher.untilFrom (.untilAny members inclusive) (Expr.matchers limit members) inclusive
            rounds last τ := by
  obtain ⟨rest, stands⟩ := D.stands start
  have fits : rest.length < source.size - σ.current.offset + 1 :=
    Nat.lt_succ_of_le stands.length_le
  have settles : Settles (source.size - σ.current.offset + 1) fun limit =>
      σ.expectWithin limit es :=
    .of_below (expectWithin_finishes ⟨start, stands⟩ fits proceed).ne_unfinished
      fun limit more => expectWithin_below more es σ
  refine ⟨settles, settles.unchanged _ ?_, fun d inside τ rest limit here fits => ?_⟩
  · have rounds : 0 < UInt32.size := by decide
    rw [roundLimit, Session.source, stands.source_eq]
    omega
  · have parts {e : Expr} (part : e.IsPart d) : ∀ h ∈ e.hooks, h.Proceeds D := fun h hooked =>
      proceed h (Expr.hooks_subset_hooksIn inside (Expr.hooks_subset_of_isPart part hooked))
    exact ⟨fun e part => greedyRun_settles (parts part) here fits,
      fun members inclusive part => untilFrom_settles _ (parts part) here fits inclusive⟩

end Session

/-- One point further, where there is one. It accepts at the end of data too. -/
def tryStep : Hook := Script.toHook [.tryAdvance 1] "try step"

theorem tryStep_proceeds (source : Source) :
    tryStep.Proceeds (Scanner.Domain.canonical source) := by
  intro s canonical
  have left : (Session.advanceBy 1 ⟨s, []⟩).2.scanner = (s.advanceBy 1).2 :=
    congrArg Prod.snd (Session.scanner_advanceBy 1 ⟨s, []⟩)
  refine ⟨_, rfl, ?_, ?_⟩
  · show Scanner.Canonical source (Session.advanceBy 1 ⟨s, []⟩).2.scanner
    rw [left]
    exact (Scanner.canonicalInvariant source).advanceBy canonical 1
  · show s.current.offset ≤ (Session.advanceBy 1 ⟨s, []⟩).2.scanner.current.offset
    rw [left, Scanner.advanceBy]
    split
    · exact le_rfl
    · exact le_rfl
    · next c stepped =>
      show s.current.offset ≤ c.offset
      rw [Source.offset_of_cursorAfter stepped]
      exact s.current.offset_le_next

/-- Two loops over a hook that never fails, one around the other. No fewer rounds would do. -/
theorem Session.expect_terminates_nested :
    let source := Source.ofString "ab"
    let σ : Session := ⟨⟨source, ⟨.start, some 'a', 0⟩, none, none⟩, []⟩
    let es : List Expr := [.atLeast 1 (.atLeast 0 (.hook tryStep))]
    Scanner.ofSource source = .ok σ.scanner ∧
      (∀ h ∈ Expr.hooksIn es, h.Proceeds (Scanner.Domain.canonical source)) ∧
      (Settles 3 fun limit => σ.expectWithin limit es) ∧
      (σ.expect es).session?.any (·.scanner.atEnd) = true ∧
      (σ.expectWithin 2 es).session? = none := by
  intro source σ es
  have made : Scanner.ofSource source = .ok σ.scanner := by decide
  have proceed : ∀ h ∈ Expr.hooksIn es, h.Proceeds (Scanner.Domain.canonical source) := by
    intro h hooked
    cases List.mem_singleton.mp (show h ∈ [tryStep] from hooked)
    exact tryStep_proceeds source
  obtain ⟨settles, same, _⟩ := expect_terminates (Scanner.Domain.canonical source)
    (Scanner.canonical_ofSource made) proceed
  have bound : source.size - σ.current.offset + 1 = 3 := by decide
  rw [bound] at settles same
  refine ⟨made, proceed, settles, ?_, by decide⟩
  rw [same]
  decide

end TextMatch
