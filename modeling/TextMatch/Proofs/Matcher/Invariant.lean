import TextMatch.Expr.Matching
import TextMatch.Proofs.Expr.Induction

/-!
# Invariants of matching

What a match can do to a scanner is to jump to cursors it has seen and to step on from where it
is. An invariant of these two is therefore one of every matcher, whatever the expression, as long
as the hooks keep it too (`expectWithin_keeps`). Each matcher has one lemma here; none of them says
anything about how a match comes out.
-/
namespace TextMatch

/-- A property of scanners that jumps and steps keep, with the cursors that may be jumped to. -/
structure Scanner.Invariant where
  holds : Scanner → Prop
  visits : Cursor → Prop
  current {s : Scanner} : holds s → visits s.current
  previous {s : Scanner} {c : Cursor} : holds s → s.previous = some c → visits c
  jump {s : Scanner} {c : Cursor} : holds s → visits c → holds (s.jump c)
  moveTo {s : Scanner} {c : Cursor} :
    holds s → s.source.cursorAfter s.current = .ok (some c) → holds (s.moveTo c)

variable (inv : Scanner.Invariant)

/-- The invariant holds after the outcome, a value satisfies `P`, and an error is at a cursor that
may be jumped to. -/
def Outcome.Keeps {α : Type} (P : α → Prop) : Outcome α → Prop
  | .ok value σ => P value ∧ inv.holds σ.scanner
  | .error e σ => (∀ c, e.cursor? = some c → inv.visits c) ∧ inv.holds σ.scanner
  | .unfinished => True

/-- The session after the outcome, whichever it is. -/
def Outcome.session? {α : Type} : Outcome α → Option Session
  | .ok _ σ => some σ
  | .error _ σ => some σ
  | .unfinished => none

def Matcher.Keeps (m : Matcher) : Prop :=
  ∀ σ : Session, inv.holds σ.scanner → (m σ).Keeps inv inv.visits

def Hook.Keeps (h : Hook) : Prop :=
  ∀ s visit, inv.holds s → h.run s = some visit → inv.holds visit.scanner

variable {inv}

theorem Outcome.Keeps.holds {α : Type} {P : α → Prop} {o : Outcome α} {σ : Session}
    (kept : o.Keeps inv P) (left : o.session? = some σ) : inv.holds σ.scanner := by
  cases o with
  | ok value τ => cases left; exact kept.2
  | error e τ => cases left; exact kept.2
  | unfinished => cases left

theorem Outcome.Keeps.value {α : Type} {P : α → Prop} {o : Outcome α} {value : α} {σ : Session}
    (kept : o.Keeps inv P) (finished : o = .ok value σ) : P value := by
  rw [finished] at kept
  exact kept.1

theorem Outcome.Keeps.stopped {α : Type} {P : α → Prop} {o : Outcome α} {e : MatchError}
    {σ : Session} {c : Cursor} (kept : o.Keeps inv P) (finished : o = .error e σ)
    (stopped : e.cursor? = some c) : inv.visits c := by
  rw [finished] at kept
  exact kept.1 c stopped

theorem Outcome.Keeps.andThen {α β : Type} {P : α → Prop} {Q : β → Prop} {o : Outcome α}
    {next : α → Session → Outcome β} (kept : o.Keeps inv P)
    (onward : ∀ value σ, P value → inv.holds σ.scanner → (next value σ).Keeps inv Q) :
    (o.andThen next).Keeps inv Q := by
  cases o with
  | ok value σ => exact onward value σ kept.1 kept.2
  | error e σ => exact kept
  | unfinished => trivial

theorem Outcome.Keeps.rewinding {α : Type} {P : α → Prop} {o : Outcome α} {c : Cursor}
    (kept : o.Keeps inv P) (visited : inv.visits c) : (o.rewinding c).Keeps inv P := by
  cases o with
  | ok value σ => exact kept
  | error e σ => exact ⟨kept.1, inv.jump kept.2 visited⟩
  | unfinished => trivial

/-- A mismatch is followed by something else, any other error ends the match. -/
theorem Outcome.Keeps.retry {α β : Type} {P : α → Prop} {Q : β → Prop} {e : MatchError}
    {σ : Session} {again : Outcome β} (failed : (Outcome.error e σ : Outcome α).Keeps inv P)
    (onward : inv.holds σ.scanner → again.Keeps inv Q) :
    (if e.isMismatch then again else .error e σ).Keeps inv Q := by
  by_cases mismatch : e.isMismatch
  · rw [if_pos mismatch]
    exact onward failed.2
  · rw [if_neg mismatch]
    exact failed

namespace Matcher

variable {m : Matcher} {ms : List Matcher} {expr : Expr} {σ : Session} {last : Cursor}

theorem keeps_unmet (held : inv.holds σ.scanner) {c : Cursor} (visited : inv.visits c)
    {α : Type} (P : α → Prop) :
    (Outcome.error (.unmet expr c) σ : Outcome α).Keeps inv P := by
  refine ⟨fun d found => ?_, held⟩
  cases found
  exact visited

theorem keeps_fatal (held : inv.holds σ.scanner) {e : MatchError} (nowhere : e.cursor? = none)
    {α : Type} (P : α → Prop) : (Outcome.error e σ : Outcome α).Keeps inv P := by
  refine ⟨fun d found => ?_, held⟩
  rw [nowhere] at found
  cases found

theorem consume_keeps (held : inv.holds σ.scanner) :
    (consume σ).Keeps inv fun _ => True := by
  unfold consume Session.advance
  cases found : σ.source.cursorAfter σ.current with
  | error e => exact keeps_fatal held rfl _
  | ok next =>
    cases next with
    | none => exact ⟨trivial, held⟩
    | some c => exact ⟨trivial, inv.moveTo held found⟩

theorem pointIf_keeps (expr : Expr) (accepts : Char → Bool) :
    (pointIf expr accepts).Keeps inv := by
  intro σ held
  unfold pointIf
  split
  · exact (consume_keeps held).andThen fun _ τ _ kept => ⟨inv.current held, kept⟩
  · exact keeps_unmet held (inv.current held) _

theorem points_keeps (expr : Expr) (cs : List Char) (visited : inv.visits last)
    (held : inv.holds σ.scanner) : (points expr cs last σ).Keeps inv inv.visits := by
  induction cs generalizing last σ with
  | nil => exact ⟨visited, held⟩
  | cons c cs ih =>
    exact (pointIf_keeps expr (· == c) σ held).andThen fun _ _ reached kept => ih reached kept

theorem literal_keeps (text : String) : (literal text).Keeps inv := by
  intro σ held
  unfold literal
  split
  · exact keeps_fatal held rfl _
  · exact points_keeps _ _ (inv.current held) held

theorem range_keeps (first last : Char) : (range first last).Keeps inv := by
  intro σ held
  unfold range
  split
  · exact keeps_fatal held rfl _
  · exact pointIf_keeps _ _ σ held

theorem seqFrom_keeps (keep : ∀ m ∈ ms, m.Keeps inv) (visited : inv.visits last)
    (held : inv.holds σ.scanner) : (seqFrom ms last σ).Keeps inv inv.visits := by
  induction ms generalizing last σ with
  | nil => exact ⟨visited, held⟩
  | cons m ms ih =>
    obtain ⟨head, tail⟩ := List.forall_mem_cons.mp keep
    exact (head σ held).andThen fun _ _ reached kept => ih tail reached kept

theorem seq_keeps (keep : ∀ m ∈ ms, m.Keeps inv) : (seq ms).Keeps inv :=
  fun _ held => seqFrom_keeps keep (inv.current held) held

theorem firstOf_keeps (keep : ∀ m ∈ ms, m.Keeps inv) (held : inv.holds σ.scanner) :
    (firstOf ms σ).Keeps inv fun found => ∀ c, found = some c → inv.visits c := by
  induction ms generalizing σ with
  | nil => exact ⟨fun _ found => absurd found (Option.some_ne_none _).symm, held⟩
  | cons m ms ih =>
    obtain ⟨head, tail⟩ := List.forall_mem_cons.mp keep
    have kept := head σ held
    unfold firstOf
    cases result : m σ with
    | ok boundary τ =>
      rw [result] at kept
      refine ⟨fun c found => ?_, kept.2⟩
      cases found
      exact kept.1
    | error e τ =>
      rw [result] at kept
      exact kept.retry fun held => ih tail held
    | unfinished => trivial

theorem oneOf_keeps (expr : Expr) (keep : ∀ m ∈ ms, m.Keeps inv) : (oneOf expr ms).Keeps inv := by
  intro σ held
  refine (firstOf_keeps keep held).andThen fun found τ reached kept => ?_
  cases found with
  | none => exact keeps_unmet kept (inv.current held) _
  | some c => exact ⟨reached c rfl, kept⟩

theorem anyHolds_keeps (keep : ∀ m ∈ ms, m.Keeps inv) (held : inv.holds σ.scanner) :
    (anyHolds ms σ).Keeps inv fun _ => True := by
  refine (firstOf_keeps keep held).andThen fun found τ _ kept => ?_
  cases found with
  | none => exact ⟨trivial, kept⟩
  | some c => exact ⟨trivial, inv.jump kept (inv.current held)⟩

theorem noneOf_keeps (expr : Expr) (keep : ∀ m ∈ ms, m.Keeps inv) :
    (noneOf expr ms).Keeps inv := by
  intro σ held
  refine (anyHolds_keeps keep held).andThen fun holds τ _ kept => ?_
  cases holds with
  | false => exact ⟨inv.current held, kept⟩
  | true => exact keeps_unmet kept (inv.current held) _

theorem ahead_keeps (expr : Expr) (keep : ∀ m ∈ ms, m.Keeps inv) : (ahead expr ms).Keeps inv := by
  intro σ held
  refine (anyHolds_keeps keep held).andThen fun holds τ _ kept => ?_
  cases holds with
  | false => exact keeps_unmet kept (inv.current held) _
  | true => exact ⟨inv.current held, kept⟩

variable {limit : Nat}

theorem greedyRun_keeps (keep : m.Keeps inv) {count : Nat} (visited : inv.visits last)
    (held : inv.holds σ.scanner) :
    (greedyRun m limit count last σ).Keeps inv fun run => inv.visits run.2 := by
  induction limit generalizing count last σ with
  | zero => trivial
  | succ limit ih =>
    have kept := keep σ held
    unfold greedyRun
    cases result : m σ with
    | ok boundary τ =>
      rw [result] at kept
      by_cases still : τ.current = σ.current
      · simp only [if_pos still]
        exact kept
      · simp only [if_neg still]
        exact ih kept.1 kept.2
    | error e τ =>
      rw [result] at kept
      exact kept.retry fun held => ⟨visited, held⟩
    | unfinished => trivial

theorem bounded_keeps (expr : Expr) (keep : m.Keeps inv) (low : Nat) (high : Option Nat)
    (held : inv.holds σ.scanner) :
    (bounded limit expr m low high σ).Keeps inv fun run => inv.visits run.2 := by
  refine Outcome.Keeps.rewinding ?_ (inv.current held)
  refine (greedyRun_keeps keep (inv.current held) held).andThen fun run τ visited kept => ?_
  split
  · exact ⟨visited, kept⟩
  · exact keeps_unmet kept (inv.current kept) _

theorem repeated_keeps (expr : Expr) (keep : m.Keeps inv) (low : Nat) (high : Option Nat) :
    (repeated limit expr m low high).Keeps inv :=
  fun _ held => (bounded_keeps expr keep low high held).andThen fun _ _ visited kept =>
    ⟨visited, kept⟩

theorem between_keeps (expr : Expr) (keep : m.Keeps inv) (low high : Nat) :
    (between limit expr m low high).Keeps inv := by
  intro σ held
  unfold between
  split
  · exact keeps_fatal held rfl _
  · exact repeated_keeps expr keep _ _ σ held

theorem optionalFrom_keeps (expr : Expr) (keep : ∀ m ∈ ms, m.Keeps inv)
    (visited : inv.visits last) (held : inv.holds σ.scanner) :
    (optionalFrom limit expr ms last σ).Keeps inv inv.visits := by
  induction ms generalizing last σ with
  | nil => exact ⟨visited, held⟩
  | cons m ms ih =>
    obtain ⟨head, tail⟩ := List.forall_mem_cons.mp keep
    have kept := @bounded_keeps inv m σ limit expr head 0 (some 1) held
    unfold optionalFrom
    cases result : bounded limit expr m 0 (some 1) σ with
    | ok run τ =>
      rw [result] at kept
      obtain ⟨count, boundary⟩ := run
      cases count with
      | zero => exact ih tail visited kept.2
      | succ count => exact ih tail kept.1 kept.2
    | error e τ =>
      rw [result] at kept
      exact kept.retry fun held => ih tail visited held
    | unfinished => trivial

theorem optional_keeps (expr : Expr) (keep : ∀ m ∈ ms, m.Keeps inv) :
    (optional limit expr ms).Keeps inv :=
  fun _ held => optionalFrom_keeps expr keep (inv.current held) held

theorem untilFrom_keeps (expr : Expr) (keep : ∀ m ∈ ms, m.Keeps inv) (inclusive : Bool)
    (visited : inv.visits last) (held : inv.holds σ.scanner) :
    (untilFrom expr ms inclusive limit last σ).Keeps inv inv.visits := by
  induction limit generalizing last σ with
  | zero => trivial
  | succ limit ih =>
    have kept := firstOf_keeps keep held
    unfold untilFrom
    cases result : firstOf ms σ with
    | ok found τ =>
      rw [result] at kept
      cases found with
      | some boundary =>
        cases inclusive with
        | true => exact ⟨kept.1 boundary rfl, kept.2⟩
        | false => exact ⟨visited, inv.jump kept.2 (inv.current held)⟩
      | none =>
        by_cases ended : σ.current.isEnd
        · simp only [if_pos ended]
          exact keeps_unmet kept.2 (inv.current held) _
        · simp only [if_neg ended]
          exact (consume_keeps kept.2).andThen fun _ _ _ stepped => ih (inv.current held) stepped
    | error e τ =>
      rw [result] at kept
      exact kept
    | unfinished => trivial

theorem untilAny_keeps (expr : Expr) (keep : ∀ m ∈ ms, m.Keeps inv) (inclusive : Bool) :
    (untilAny limit expr ms inclusive).Keeps inv :=
  fun _ held => untilFrom_keeps expr keep inclusive (inv.current held) held

theorem attempt_keeps (kind : Kind) (keep : m.Keeps inv) : (attempt kind m).Keeps inv := by
  intro σ held
  have kept := keep σ held
  unfold attempt
  cases result : m σ with
  | ok boundary τ =>
    rw [result] at kept
    exact kept
  | error e τ =>
    rw [result] at kept
    exact ⟨kept.1, inv.jump kept.2 (inv.current held)⟩
  | unfinished => trivial

theorem walkTo_keeps (target : Nat) (held : inv.holds σ.scanner) :
    ∀ c, (walkTo target σ).1 = some c → inv.visits c := by
  fun_induction walkTo target σ with
  | case1 σ _ c stepped ended => intro d found; cases found
  | case2 σ _ c stepped _ ih => exact ih (inv.moveTo held stepped)
  | case3 σ _ _ => intro d found; cases found
  | case4 σ _ =>
    intro d found
    cases found
    exact inv.current held

theorem hookBoundary_keeps {start : Cursor} (visited : inv.visits start)
    (held : inv.holds σ.scanner) :
    inv.visits (hookBoundary start σ).1 ∧ inv.holds (hookBoundary start σ).2.scanner := by
  unfold hookBoundary
  split
  · exact ⟨visited, held⟩
  · split
    · next previous recorded => exact ⟨inv.previous held recorded, held⟩
    · have walked := walkTo_keeps (σ := σ.jump start) σ.current.offset (inv.jump held visited)
      refine ⟨?_, held⟩
      dsimp only
      split
      · next c reached =>
        split
        · exact walked c reached
        · exact inv.current held
      · exact inv.current held

theorem callHook_keeps {h : Hook} (keep : h.Keeps inv) : (callHook h).Keeps inv := by
  intro σ held
  unfold callHook
  cases run : h.run σ.scanner with
  | none => trivial
  | some visit =>
    have kept := keep σ.scanner visit held run
    cases accepted : visit.accepted with
    | true =>
      simp only [accepted, if_true]
      exact hookBoundary_keeps (σ := ⟨visit.scanner, _⟩) (inv.current held) kept
    | false =>
      simp only [accepted, Bool.false_eq_true, if_false]
      refine ⟨fun c found => ?_, kept⟩
      cases found
      exact inv.current kept

end Matcher

/-- What follows for the matcher of an expression from its hooks holds of all the members of a
list, each with its own hooks. -/
theorem Expr.forall_matchers {P : Matcher → Prop} {Q : Hook → Prop} {limit : Nat} {es : List Expr}
    (each : ∀ e ∈ es, (∀ h ∈ e.hooks, Q h) → P (e.matcher limit))
    (hooks : ∀ h ∈ Expr.hooksIn es, Q h) : ∀ m ∈ Expr.matchers limit es, P m := by
  rw [Expr.matchers_eq_map]
  intro m member
  obtain ⟨e, inside, rfl⟩ := List.mem_map.mp member
  exact each e inside fun h hooked => hooks h (Expr.hooks_subset_hooksIn inside hooked)

theorem Expr.matcher_keeps (limit : Nat) (e : Expr) (keep : ∀ h ∈ e.hooks, h.Keeps inv) :
    (e.matcher limit).Keeps inv := by
  have members {es : List Expr} :=
    @Expr.forall_matchers (Matcher.Keeps inv) (Hook.Keeps inv) limit es
  induction e using Expr.induction with
  | literal text => exact Matcher.attempt_keeps _ (Matcher.literal_keeps text)
  | point c => exact Matcher.attempt_keeps _ (Matcher.pointIf_keeps _ _)
  | any => exact Matcher.attempt_keeps _ (Matcher.pointIf_keeps _ _)
  | noneOf es ih => exact Matcher.attempt_keeps _ (Matcher.noneOf_keeps _ (members ih keep))
  | ahead es ih => exact Matcher.attempt_keeps _ (Matcher.ahead_keeps _ (members ih keep))
  | oneOf es ih => exact Matcher.attempt_keeps _ (Matcher.oneOf_keeps _ (members ih keep))
  | seq es ih => exact Matcher.attempt_keeps _ (Matcher.seq_keeps (members ih keep))
  | optional es ih => exact Matcher.attempt_keeps _ (Matcher.optional_keeps _ (members ih keep))
  | between low high e ih =>
    exact Matcher.attempt_keeps _ (Matcher.between_keeps _ (ih keep) low high)
  | atLeast low e ih => exact Matcher.attempt_keeps _ (Matcher.repeated_keeps _ (ih keep) _ _)
  | exactly times e ih => exact Matcher.attempt_keeps _ (Matcher.repeated_keeps _ (ih keep) _ _)
  | range first last => exact Matcher.attempt_keeps _ (Matcher.range_keeps first last)
  | untilAny es inclusive ih =>
    exact Matcher.attempt_keeps _ (Matcher.untilAny_keeps _ (members ih keep) inclusive)
  | hook h =>
    exact Matcher.attempt_keeps _ (Matcher.callHook_keeps (keep h (List.mem_singleton_self h)))

theorem Expr.listMatcher_keeps (limit : Nat) (es : List Expr)
    (keep : ∀ h ∈ Expr.hooksIn es, h.Keeps inv) : (Expr.listMatcher limit es).Keeps inv := by
  have members : ∀ m ∈ Expr.matchers limit es, m.Keeps inv :=
    Expr.forall_matchers (fun e _ => e.matcher_keeps limit) keep
  intro σ held
  unfold Expr.listMatcher
  split
  · next e => exact members _ (by simp [Expr.matchers]) σ held
  · exact (Matcher.seq_keeps members σ held).rewinding (inv.current held)

/-- What an invariant says of a match: of the scanner that it leaves, and of the cursor that it
gives back, whether as a boundary or with an error. -/
theorem Session.expectWithin_keeps (limit : Nat) {σ : Session} {es : List Expr}
    (held : inv.holds σ.scanner) (keep : ∀ h ∈ Expr.hooksIn es, h.Keeps inv) :
    (σ.expectWithin limit es).Keeps inv inv.visits := by
  have kept := Expr.listMatcher_keeps limit es keep (σ.emit (.entered es.length)) held
  unfold expectWithin
  cases result : Expr.listMatcher limit es (σ.emit (.entered es.length)) with
  | ok boundary τ =>
    rw [result] at kept
    exact kept
  | error e τ =>
    rw [result] at kept
    exact kept
  | unfinished => trivial

end TextMatch
