import Mathlib.Data.List.Forall2
import TextMatch.Expr.Matching
import TextMatch.Proofs.Reading.Progress
import TextMatch.Proofs.Scanner.Scan

/-!
# Matching is reading

On any source, at any cursor that leaves some points, a matcher comes out as its reader does on
these points: `Expr.matcher_agrees` for expressions without hooks, `Session.expect_agrees` for a
whole match. Nothing else about the scanner matters for the result, and the loops stay within
their limits, so that the matches considered here always finish.
-/
namespace TextMatch

def Failure.toError (s : Source) : Failure → MatchError
  | .unmet expr rest => .unmet expr (s.cursorAt rest)
  | .defective kind defect => .defective kind defect
  | .unreadable => .unreadable (.malformed s.readableSize)

@[simp] theorem Failure.isMismatch_toError (s : Source) (f : Failure) :
    (f.toError s).isMismatch = f.isMismatch := by
  cases f <;> rfl

/-- The cursor of `last`, the point consumed before `rest`, or the one that leaves `rest`. -/
def Source.boundaryAt (s : Source) (last : Option Char) (rest : List Char) : Cursor :=
  s.cursorAt (last.toList ++ rest)

def Source.IsBoundary (s : Source) (c : Cursor) (last : Option Char) (rest : List Char) : Prop :=
  c = s.boundaryAt last rest

/-- The outcome is that of the reading: related values and the same points left, or the same
error, with `back` for the scanner that it leaves. -/
inductive Outcome.Agrees (s : Source) {α β : Type} (same : α → β → List Char → Prop)
    (back : Scanner → Prop) : Outcome α → Reading β → Prop
  | ok {a : α} {b : β} {σ : Session} {rest : List Char} (value : same a b rest)
      (here : σ.scanner.At s rest) : Agrees s same back (.ok a σ) (.ok b rest)
  | error {f : Failure} {σ : Session} (left : back σ.scanner) :
      Agrees s same back (.error (f.toError s) σ) (.error f)

/-- The matcher does what the reader does, and is not asked to go back on a failure. -/
def Matcher.Follows (s : Source) (m : Matcher) (r : Reader) : Prop :=
  ∀ (σ : Session) (rest : List Char), σ.scanner.At s rest →
    (m σ).Agrees s s.IsBoundary (·.source = s) (r rest)

/-- The matcher does what the reader does, and goes back on a failure. -/
def Matcher.Agrees (s : Source) (m : Matcher) (r : Reader) : Prop :=
  ∀ (σ : Session) (rest : List Char), σ.scanner.At s rest →
    (m σ).Agrees s s.IsBoundary (·.At s rest) (r rest)

variable {s : Source}

theorem Scanner.At.isBoundary {t : Scanner} {rest : List Char} (here : t.At s rest) :
    s.IsBoundary t.current none rest :=
  here.current_eq

namespace Outcome.Agrees

variable {α β α' β' : Type} {same : α → β → List Char → Prop} {same' : α' → β' → List Char → Prop}
  {back back' : Scanner → Prop} {o : Outcome α} {r : Reading β}

theorem andThen {next : α → Session → Outcome α'} {next' : β → List Char → Reading β'}
    (agrees : o.Agrees s same back r) (fails : ∀ t, back t → back' t)
    (onward : ∀ a b σ rest, same a b rest → σ.scanner.At s rest →
      (next a σ).Agrees s same' back' (next' b rest)) :
    (o.andThen next).Agrees s same' back' (r.andThen next') := by
  cases agrees with
  | ok value here => exact onward _ _ _ _ value here
  | error left => exact .error (fails _ left)

theorem retry {f : Failure} {σ : Session} {again : Outcome α} {again' : Reading β}
    (left : back σ.scanner) (onward : again.Agrees s same back again') :
    (if (f.toError s).isMismatch then again else .error (f.toError s) σ).Agrees s same back
      (if f.isMismatch then again' else .error f) := by
  rw [Failure.isMismatch_toError]
  by_cases mismatch : f.isMismatch
  · rw [if_pos mismatch, if_pos mismatch]
    exact onward
  · rw [if_neg mismatch, if_neg mismatch]
    exact .error left

theorem rewinding {t : Scanner} {rest : List Char} (agrees : o.Agrees s same (·.source = s) r)
    (start : t.At s rest) : (o.rewinding t.current).Agrees s same (·.At s rest) r := by
  cases agrees with
  | ok value here => exact .ok value here
  | error reads => exact .error (start.back reads)

end Outcome.Agrees

namespace Matcher

variable {m : Matcher} {r : Reader} {ms : List Matcher} {rs : List Reader} {expr : Expr}
  {σ : Session} {rest : List Char}

theorem Agrees.follows (agrees : m.Agrees s r) : m.Follows s r := by
  intro σ rest start
  have result := agrees σ rest start
  generalize m σ = o, r rest = reading at result ⊢
  cases result with
  | ok value here => exact .ok value here
  | error left => exact .error left.source_eq

theorem attempt_agrees (kind : Kind) (follows : m.Follows s r) : (attempt kind m).Agrees s r := by
  intro σ rest start
  have result := follows σ rest start
  unfold attempt
  generalize m σ = o, r rest = reading at result ⊢
  cases result with
  | ok value here => exact .ok value here
  | error reads => exact .error (start.back reads)

theorem unmet_agrees {α β : Type} {same : α → β → List Char → Prop} {back : Scanner → Prop}
    {τ : Session} {c : Cursor} (expr : Expr) (here : c = s.cursorAt rest) (left : back τ.scanner) :
    (Outcome.error (.unmet expr c) τ).Agrees s same back (.error (.unmet expr rest)) := by
  rw [here]
  exact .error (f := .unmet expr rest) left

theorem consume_agrees (start : σ.scanner.At s rest) :
    (consume σ).Agrees s (fun _ last stop => s.IsBoundary σ.current last stop) (·.At s rest)
      (Reader.consume s.isReadable rest) := by
  unfold consume Session.advance Session.source Session.current
  cases rest with
  | nil =>
    rw [start.cursorAfter_nil]
    exact .ok start.current_eq start
  | cons c rest =>
    rw [start.cursorAfter_cons, Reader.consume]
    by_cases stuck : rest = [] ∧ s.isReadable = false
    · simp only [if_pos stuck]
      exact .error (f := .unreadable) start
    · simp only [if_neg stuck]
      exact .ok start.current_eq (start.moveTo (by simpa using stuck))

theorem pointIf_follows (expr : Expr) (accepts : Char → Bool) :
    (pointIf expr accepts).Follows s (Reader.pointIf s.isReadable expr accepts) := by
  intro σ rest start
  have point : σ.current.point = rest.head? := by
    rw [Session.current, start.current_eq, Source.point_cursorAt]
  unfold pointIf Reader.pointIf
  rw [point]
  by_cases accepted : rest.head?.any accepts
  · simp only [if_pos accepted]
    have consumed := consume_agrees start
    generalize consume σ = o, Reader.consume s.isReadable rest = reading at consumed ⊢
    cases consumed with
    | ok boundary here => exact .ok boundary here
    | error left => exact .error left.source_eq
  · simp only [if_neg accepted]
    exact unmet_agrees expr start.current_eq start.source_eq

theorem points_agrees (expr : Expr) (cs : List Char) {c : Cursor} {last : Option Char}
    (boundary : s.IsBoundary c last rest) (start : σ.scanner.At s rest) :
    (points expr cs c σ).Agrees s s.IsBoundary (·.source = s)
      (Reader.points s.isReadable expr cs last rest) := by
  induction cs generalizing c last σ rest with
  | nil => exact .ok boundary start
  | cons d cs ih =>
    exact (pointIf_follows expr (· == d) σ rest start).andThen (fun _ => id)
      fun _ _ _ _ reached here => ih reached here

theorem literal_follows (text : String) :
    (literal text).Follows s (Reader.literal s.isReadable text) := by
  intro σ rest start
  unfold literal Reader.literal
  by_cases empty : text = ""
  · simp only [if_pos empty]
    exact .error (f := .defective .literal .emptyLiteral) start.source_eq
  · simp only [if_neg empty]
    exact points_agrees _ _ start.isBoundary start

theorem range_follows (first last : Char) :
    (range first last).Follows s (Reader.range s.isReadable first last) := by
  intro σ rest start
  unfold range Reader.range
  by_cases reversed : last < first
  · simp only [if_pos reversed]
    exact .error (f := .defective .range .reversedRange) start.source_eq
  · simp only [if_neg reversed]
    exact pointIf_follows _ _ σ rest start

theorem seqFrom_agrees (parts : List.Forall₂ (Matcher.Agrees s) ms rs) {c : Cursor}
    {last : Option Char} (boundary : s.IsBoundary c last rest) (start : σ.scanner.At s rest) :
    (seqFrom ms c σ).Agrees s s.IsBoundary (·.source = s) (Reader.seqFrom rs last rest) := by
  induction parts generalizing c last σ rest with
  | nil => exact .ok boundary start
  | cons head _ ih =>
    exact (head σ rest start).andThen (fun _ left => left.source_eq)
      fun _ _ _ _ reached here => ih reached here

theorem seq_follows (parts : List.Forall₂ (Matcher.Agrees s) ms rs) :
    (seq ms).Follows s (Reader.seq rs) :=
  fun _ _ start => seqFrom_agrees parts start.isBoundary start

theorem firstOf_agrees (parts : List.Forall₂ (Matcher.Agrees s) ms rs)
    (start : σ.scanner.At s rest) :
    (firstOf ms σ).Agrees s
      (fun found last stop => found = last.map (s.boundaryAt · stop) ∧ (last = none → stop = rest))
      (·.At s rest) (Reader.firstOf rs rest) := by
  induction parts generalizing σ with
  | nil => exact .ok ⟨rfl, fun _ => rfl⟩ start
  | @cons m r ms rs head _ ih =>
    have result := head σ rest start
    unfold firstOf Reader.firstOf
    generalize m σ = o, r rest = reading at result ⊢
    cases result with
    | ok boundary here => exact .ok ⟨congrArg some boundary, fun found => by cases found⟩ here
    | error left => exact .retry left (ih left)

theorem oneOf_follows (expr : Expr) (parts : List.Forall₂ (Matcher.Agrees s) ms rs) :
    (oneOf expr ms).Follows s (Reader.oneOf expr rs) := by
  intro σ rest start
  refine (firstOf_agrees parts start).andThen (fun _ left => left.source_eq) ?_
  rintro found last τ stop ⟨rfl, _⟩ here
  cases last with
  | none => exact unmet_agrees expr start.current_eq here.source_eq
  | some last => exact .ok rfl here

theorem anyHolds_agrees (parts : List.Forall₂ (Matcher.Agrees s) ms rs)
    (start : σ.scanner.At s rest) :
    (anyHolds ms σ).Agrees s (fun holds found stop => holds = found ∧ stop = rest) (·.At s rest)
      (Reader.anyHolds rs rest) := by
  refine (firstOf_agrees parts start).andThen (fun _ => id) ?_
  rintro found last τ stop ⟨rfl, unmoved⟩ here
  cases last with
  | none =>
    rw [unmoved rfl] at here
    exact .ok ⟨rfl, rfl⟩ here
  | some last => exact .ok ⟨rfl, rfl⟩ (start.back here.source_eq)

theorem noneOf_follows (expr : Expr) (parts : List.Forall₂ (Matcher.Agrees s) ms rs) :
    (noneOf expr ms).Follows s (Reader.noneOf expr rs) := by
  intro σ rest start
  refine (anyHolds_agrees parts start).andThen (fun _ left => left.source_eq) ?_
  rintro holds _ τ _ ⟨rfl, rfl⟩ here
  cases holds with
  | true => exact unmet_agrees expr start.current_eq here.source_eq
  | false => exact .ok start.current_eq here

theorem ahead_follows (expr : Expr) (parts : List.Forall₂ (Matcher.Agrees s) ms rs) :
    (ahead expr ms).Follows s (Reader.ahead expr rs) := by
  intro σ rest start
  refine (anyHolds_agrees parts start).andThen (fun _ left => left.source_eq) ?_
  rintro holds _ τ _ ⟨rfl, rfl⟩ here
  cases holds with
  | true => exact .ok start.current_eq here
  | false => exact unmet_agrees expr start.current_eq here.source_eq

theorem greedyRun_agrees (agrees : m.Agrees s r) (advance : r.Advances) {limit count : Nat}
    {c : Cursor} {last : Option Char} (boundary : s.IsBoundary c last rest)
    (start : σ.scanner.At s rest) (fits : rest.length < limit) :
    (greedyRun m limit count c σ).Agrees s
      (fun run reading stop => run.1 = reading.1 ∧ s.IsBoundary run.2 reading.2 stop)
      (·.source = s) (Reader.greedyRun r count last rest) := by
  induction limit generalizing count c last σ rest with
  | zero => cases fits
  | succ limit ih =>
    have result := agrees σ rest start
    have within := advance rest
    unfold greedyRun Reader.greedyRun
    generalize m σ = o, r rest = reading at result within ⊢
    cases result with
    | @ok c tail τ stop reached here =>
      simp only [Session.current, start.current_eq_iff here within.suffix]
      by_cases shorter : stop.length < rest.length
      · simp only [not_true_eq_false, shorter, if_true, if_false]
        exact ih reached here (by omega)
      · simp only [shorter, not_false_eq_true, if_true, if_false]
        exact .ok ⟨rfl, reached⟩ here
    | error left => exact .retry left.source_eq (.ok ⟨rfl, boundary⟩ left)

theorem bounded_agrees (expr : Expr) (agrees : m.Agrees s r) (advance : r.Advances) {limit : Nat}
    (low : Nat) (high : Option Nat) (start : σ.scanner.At s rest) (fits : rest.length < limit) :
    (bounded limit expr m low high σ).Agrees s
      (fun run reading stop => run.1 = reading.1 ∧ s.IsBoundary run.2 reading.2 stop)
      (·.At s rest) (Reader.bounded expr r low high rest) := by
  refine Outcome.Agrees.rewinding ?_ start
  refine (greedyRun_agrees agrees advance start.isBoundary start fits).andThen
    (fun _ => id) ?_
  rintro ⟨count, c⟩ ⟨_, last⟩ τ stop ⟨rfl, boundary⟩ here
  dsimp only
  by_cases within : (low ≤ count && high.all (count ≤ ·)) = true
  · rw [if_pos within, if_pos within]
    exact .ok ⟨rfl, boundary⟩ here
  · rw [if_neg within, if_neg within]
    exact unmet_agrees expr here.current_eq here.source_eq

theorem repeated_follows (expr : Expr) (agrees : m.Agrees s r) (advance : r.Advances)
    {limit : Nat} (fits : s.points.length < limit) (low : Nat) (high : Option Nat) :
    (repeated limit expr m low high).Follows s (Reader.repeated expr r low high) := by
  intro σ rest start
  have enough : rest.length < limit := lt_of_le_of_lt start.leaves.length_le fits
  refine (bounded_agrees expr agrees advance low high start enough).andThen
    (fun _ left => left.source_eq) ?_
  rintro run reading τ stop ⟨_, boundary⟩ here
  exact .ok boundary here

theorem between_follows (expr : Expr) (agrees : m.Agrees s r) (advance : r.Advances)
    {limit : Nat} (fits : s.points.length < limit) (low high : Nat) :
    (between limit expr m low high).Follows s (Reader.between expr r low high) := by
  intro σ rest start
  unfold between Reader.between
  by_cases crossed : high ≠ 0 ∧ high < low
  · rw [if_pos crossed, if_pos crossed]
    exact .error (f := .defective .between .lowAboveHigh) start.source_eq
  · rw [if_neg crossed, if_neg crossed]
    exact repeated_follows expr agrees advance fits _ _ σ rest start

theorem optionalFrom_agrees (expr : Expr) (parts : List.Forall₂ (Matcher.Agrees s) ms rs)
    (advance : ∀ r ∈ rs, r.Advances) {limit : Nat} (fits : s.points.length < limit) {c : Cursor}
    {last : Option Char} (boundary : s.IsBoundary c last rest) (start : σ.scanner.At s rest) :
    (optionalFrom limit expr ms c σ).Agrees s s.IsBoundary (·.source = s)
      (Reader.optionalFrom expr rs last rest) := by
  induction parts generalizing c last σ rest with
  | nil => exact .ok boundary start
  | @cons m r ms rs head _ ih =>
    obtain ⟨headAdvances, tailAdvance⟩ := List.forall_mem_cons.mp advance
    have enough : rest.length < limit := lt_of_le_of_lt start.leaves.length_le fits
    have result := bounded_agrees expr head headAdvances 0 (some 1) start enough
    have unmoved {tail : Option Char} {stop : List Char} :=
      @Reader.rest_of_bounded_zero r rest expr 0 (some 1) tail stop
    unfold optionalFrom Reader.optionalFrom
    generalize bounded limit expr m 0 (some 1) σ = o,
      Reader.bounded expr r 0 (some 1) rest = reading at result unmoved ⊢
    cases result with
    | @ok run reading τ stop reached here =>
      obtain ⟨count, c'⟩ := run
      obtain ⟨k, tail⟩ := reading
      obtain ⟨rfl, reached⟩ := reached
      cases count with
      | zero =>
        rw [unmoved rfl] at here
        exact ih tailAdvance boundary here
      | succ count => exact ih tailAdvance reached here
    | error left => exact .retry left.source_eq (ih tailAdvance boundary left)

theorem optional_follows (expr : Expr) (parts : List.Forall₂ (Matcher.Agrees s) ms rs)
    (advance : ∀ r ∈ rs, r.Advances) {limit : Nat} (fits : s.points.length < limit) :
    (optional limit expr ms).Follows s (Reader.optional expr rs) :=
  fun _ _ start => optionalFrom_agrees expr parts advance fits start.isBoundary start

theorem untilFrom_agrees (expr : Expr) (parts : List.Forall₂ (Matcher.Agrees s) ms rs)
    (inclusive : Bool) {limit : Nat} {c : Cursor} {last : Option Char}
    (boundary : s.IsBoundary c last rest) (start : σ.scanner.At s rest)
    (fits : rest.length < limit) :
    (untilFrom expr ms inclusive limit c σ).Agrees s s.IsBoundary (·.source = s)
      (Reader.untilFrom s.isReadable expr rs inclusive last rest) := by
  induction limit generalizing c last σ rest with
  | zero => cases fits
  | succ limit ih =>
    have result := firstOf_agrees parts start
    unfold untilFrom Reader.untilFrom
    generalize firstOf ms σ = o, Reader.firstOf rs rest = reading at result ⊢
    cases result with
    | @ok found last' τ stop reached here =>
      obtain ⟨rfl, unmoved⟩ := reached
      cases last' with
      | some tail =>
        cases inclusive with
        | true => exact .ok rfl here
        | false => exact .ok boundary (start.back here.source_eq)
      | none =>
        rw [unmoved rfl] at here
        dsimp only [Option.map_none]
        rw [Session.current, start.current_eq, Source.isEnd_cursorAt]
        cases rest with
        | nil => exact unmet_agrees expr rfl here.source_eq
        | cons d rest =>
          have consumed := consume_agrees here
          rw [Reader.consume] at consumed
          dsimp only [List.isEmpty_cons]
          rw [if_neg Bool.false_ne_true]
          generalize consume τ = advanced at consumed ⊢
          by_cases stuck : rest = [] ∧ s.isReadable = false
          · rw [if_pos stuck] at consumed ⊢
            cases consumed with
            | error left => exact .error (f := .unreadable) left.source_eq
          · rw [if_neg stuck] at consumed ⊢
            cases consumed with
            | ok _ onward => exact ih rfl onward (by simpa using fits)
    | error left => exact .error left.source_eq

theorem untilAny_follows (expr : Expr) (parts : List.Forall₂ (Matcher.Agrees s) ms rs)
    (inclusive : Bool) {limit : Nat} (fits : s.points.length < limit) :
    (untilAny limit expr ms inclusive).Follows s
      (Reader.untilAny s.isReadable expr rs inclusive) := by
  intro σ rest start
  have enough : rest.length < limit := lt_of_le_of_lt start.leaves.length_le fits
  exact untilFrom_agrees expr parts inclusive start.isBoundary start enough

end Matcher

theorem Expr.matchers_agree {limit : Nat} {es : List Expr}
    (agree : ∀ e ∈ es, (e.matcher limit).Agrees s (e.reader s.isReadable)) :
    List.Forall₂ (Matcher.Agrees s) (Expr.matchers limit es)
      (Expr.readers s.isReadable es) := by
  rw [Expr.matchers_eq_map, Expr.readers_eq_map, List.forall₂_map_left_iff,
    List.forall₂_map_right_iff, List.forall₂_same]
  exact agree

theorem Expr.matcher_agrees {limit : Nat} (fits : s.points.length < limit) (e : Expr)
    (free : e.hooks = []) : (e.matcher limit).Agrees s (e.reader s.isReadable) := by
  have advance (es : List Expr) : ∀ r ∈ Expr.readers s.isReadable es, r.Advances := by
    rw [Expr.readers_eq_map]
    exact List.forall_mem_map.mpr fun e _ => e.reader_advances s.isReadable
  have members {es : List Expr} (ih : ∀ e ∈ es, e.hooks = [] →
      (e.matcher limit).Agrees s (e.reader s.isReadable)) (free : Expr.hooksIn es = []) :
      List.Forall₂ (Matcher.Agrees s) (Expr.matchers limit es)
        (Expr.readers s.isReadable es) :=
    Expr.matchers_agree fun e inside => ih e inside (Expr.hooks_eq_nil_of_mem free inside)
  induction e using Expr.induction with
  | literal text => exact Matcher.attempt_agrees _ (Matcher.literal_follows text)
  | point c => exact Matcher.attempt_agrees _ (Matcher.pointIf_follows _ _)
  | any => exact Matcher.attempt_agrees _ (Matcher.pointIf_follows _ _)
  | noneOf es ih =>
    exact Matcher.attempt_agrees _ (Matcher.noneOf_follows _ (members ih free))
  | ahead es ih => exact Matcher.attempt_agrees _ (Matcher.ahead_follows _ (members ih free))
  | oneOf es ih => exact Matcher.attempt_agrees _ (Matcher.oneOf_follows _ (members ih free))
  | seq es ih => exact Matcher.attempt_agrees _ (Matcher.seq_follows (members ih free))
  | optional es ih =>
    exact Matcher.attempt_agrees _
      (Matcher.optional_follows _ (members ih free) (advance es) fits)
  | between low high e ih =>
    exact Matcher.attempt_agrees _
      (Matcher.between_follows _ (ih free) (e.reader_advances _) fits low high)
  | atLeast low e ih =>
    exact Matcher.attempt_agrees _
      (Matcher.repeated_follows _ (ih free) (e.reader_advances _) fits low none)
  | exactly times e ih =>
    exact Matcher.attempt_agrees _
      (Matcher.repeated_follows _ (ih free) (e.reader_advances _) fits times (some times))
  | range first last => exact Matcher.attempt_agrees _ (Matcher.range_follows first last)
  | untilAny es inclusive ih =>
    exact Matcher.attempt_agrees _ (Matcher.untilAny_follows _ (members ih free) inclusive fits)
  | hook h => cases free

theorem Expr.listMatcher_agrees {limit : Nat} (fits : s.points.length < limit) (es : List Expr)
    (free : Expr.hooksIn es = []) :
    (Expr.listMatcher limit es).Agrees s (Expr.listReader s.isReadable es) := by
  intro σ rest start
  unfold Expr.listMatcher
  split
  · next e =>
    rw [Expr.listReader_singleton]
    exact e.matcher_agrees fits (Expr.hooks_eq_nil_of_mem free (List.mem_singleton_self e))
      σ rest start
  · have parts := Expr.matchers_agree fun e inside =>
      e.matcher_agrees fits (Expr.hooks_eq_nil_of_mem free inside)
    exact (Matcher.seq_follows parts σ rest start).rewinding start

theorem Session.expect_agrees {σ : Session} {es : List Expr} {rest : List Char}
    (free : Expr.hooksIn es = []) (start : σ.scanner.At s rest) :
    (σ.expect es).Agrees s s.IsBoundary (·.At s rest) (Expr.listReader s.isReadable es rest) := by
  have fits : s.points.length < Session.roundLimit σ.source := by
    have rounds : 0 < UInt32.size := by decide
    have := s.length_points_le
    rw [Session.source, start.source_eq, Session.roundLimit]
    omega
  have result := Expr.listMatcher_agrees fits es free (σ.emit (.entered es.length)) rest start
  unfold Session.expect Session.expectWithin
  generalize Expr.listMatcher (Session.roundLimit σ.source) es (σ.emit (.entered es.length)) = o,
    Expr.listReader s.isReadable es rest = reading at result ⊢
  cases result with
  | ok boundary here => exact .ok boundary here
  | error left => exact .error left

/-- What a reading of a match amounts to over `s`. -/
def Reading.result (s : Source) : Reading (Option Char) → Except MatchError Cursor
  | .ok last rest => .ok (s.boundaryAt last rest)
  | .error f => .error (f.toError s)

/-- The points left by a reading that begins at `start`, to which a failure goes back. -/
def Reading.left (start : List Char) : Reading (Option Char) → List Char
  | .ok _ rest => rest
  | .error _ => start

/-- A match without hooks finishes, with the result of its reading and the points that this
leaves. -/
theorem Scanner.At.expect {t : Scanner} {es : List Expr} {rest : List Char} (start : t.At s rest)
    (free : Expr.hooksIn es = []) :
    ∃ m, t.expect es = some m ∧
      m.result = (Expr.listReader s.isReadable es rest).result s ∧
      m.scanner.At s ((Expr.listReader s.isReadable es rest).left rest) := by
  have agrees := Session.expect_agrees free (show (Session.mk t []).scanner.At s rest from start)
  unfold Scanner.expect
  generalize Session.expect es ⟨t, []⟩ = outcome, Expr.listReader s.isReadable es rest = reading
    at agrees ⊢
  cases agrees with
  | @ok boundary last τ stop same here => exact ⟨_, rfl, congrArg Except.ok same, here⟩
  | error left => exact ⟨_, rfl, rfl, left⟩

/-- Matching one expression without hooks, by itself. -/
theorem Scanner.At.expect_singleton {t : Scanner} {e : Expr} {rest : List Char}
    (start : t.At s rest) (free : e.hooks = []) :
    ∃ m, t.expect [e] = some m ∧ m.result = (e.reader s.isReadable rest).result s ∧
      m.scanner.At s ((e.reader s.isReadable rest).left rest) := by
  have finished := start.expect ((Expr.hooksIn_singleton e).trans free)
  rwa [Expr.listReader_singleton] at finished

end TextMatch
