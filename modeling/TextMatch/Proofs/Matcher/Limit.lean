import Mathlib.Data.List.Forall2
import TextMatch.Expr.Matching
import TextMatch.Proofs.Expr.Induction

/-!
# The limit on rounds

A larger limit can do no more than finish what a smaller one left unfinished: what comes to an end
within some limit comes to the same end, with the same session, within every larger one
(`Session.expectWithin_below`). This asks nothing of the hooks, since a hook is called as often and
on the same scanners as long as the loops go on. So to know what a match does at every limit from
some number of rounds on, it is enough to know that this number lets it finish.
-/
namespace TextMatch

/-- The second outcome is the first, unless the first did not come to an end. -/
def Outcome.Below {α : Type} (o o' : Outcome α) : Prop := o = .unfinished ∨ o = o'

def Matcher.Below (m m' : Matcher) : Prop := ∀ σ, (m σ).Below (m' σ)

/-- With `enough` rounds `run` comes to an end, and more rounds change nothing. -/
structure Settles {α : Type} (enough : Nat) (run : Nat → Outcome α) : Prop where
  finishes : run enough ≠ .unfinished
  unchanged : ∀ limit, enough ≤ limit → run limit = run enough

namespace Outcome.Below

variable {α β : Type} {o o' : Outcome α}

theorem refl (o : Outcome α) : o.Below o := .inr rfl

theorem unfinished (o : Outcome α) : Below .unfinished o := .inl rfl

theorem eq_of_finished (below : o.Below o') (finished : o ≠ .unfinished) : o' = o :=
  (below.resolve_left finished).symm

theorem andThen {next next' : α → Session → Outcome β} (below : o.Below o')
    (onward : ∀ value τ, (next value τ).Below (next' value τ)) :
    (o.andThen next).Below (o'.andThen next') := by
  rcases below with rfl | rfl
  · exact unfinished _
  · cases o with
    | ok value τ => exact onward value τ
    | error e τ => exact refl _
    | unfinished => exact refl _

theorem rewinding (below : o.Below o') (c : Cursor) : (o.rewinding c).Below (o'.rewinding c) := by
  rcases below with rfl | rfl
  · exact unfinished _
  · exact refl _

/-- A mismatch is followed by something else, any other error ends the match. -/
theorem retry (e : MatchError) (σ : Session) (below : o.Below o') :
    (if e.isMismatch then o else .error e σ).Below (if e.isMismatch then o' else .error e σ) := by
  by_cases mismatch : e.isMismatch
  · rw [if_pos mismatch, if_pos mismatch]
    exact below
  · rw [if_neg mismatch, if_neg mismatch]
    exact refl _

end Outcome.Below

theorem Settles.of_below {α : Type} {enough : Nat} {run : Nat → Outcome α}
    (finishes : run enough ≠ .unfinished)
    (below : ∀ limit, enough ≤ limit → (run enough).Below (run limit)) : Settles enough run :=
  ⟨finishes, fun limit more => (below limit more).eq_of_finished finishes⟩

namespace Matcher

variable {m m' : Matcher} {ms ms' : List Matcher} {limit limit' : Nat}

theorem Below.refl (m : Matcher) : m.Below m := fun _ => .refl _

theorem attempt_below (kind : Kind) (below : m.Below m') :
    (attempt kind m).Below (attempt kind m') := by
  intro σ
  unfold attempt
  rcases below σ with stuck | same
  · rw [stuck]
    exact .unfinished _
  · rw [same]
    exact .refl _

theorem seqFrom_below (parts : List.Forall₂ Below ms ms') (last : Cursor) :
    (seqFrom ms last).Below (seqFrom ms' last) := by
  induction parts generalizing last with
  | nil => exact .refl _
  | cons head _ ih => exact fun σ => (head σ).andThen fun boundary τ => ih boundary τ

theorem seq_below (parts : List.Forall₂ Below ms ms') : (seq ms).Below (seq ms') :=
  fun σ => seqFrom_below parts σ.current σ

theorem firstOf_below (parts : List.Forall₂ Below ms ms') (σ : Session) :
    (firstOf ms σ).Below (firstOf ms' σ) := by
  induction parts generalizing σ with
  | nil => exact .refl _
  | @cons m m' ms ms' head _ ih =>
    unfold firstOf
    rcases head σ with stuck | same
    · rw [stuck]
      exact .unfinished _
    · rw [same]
      cases m' σ with
      | ok boundary τ => exact .refl _
      | error e τ => exact .retry e τ (ih τ)
      | unfinished => exact .refl _

theorem oneOf_below (expr : Expr) (parts : List.Forall₂ Below ms ms') :
    (oneOf expr ms).Below (oneOf expr ms') :=
  fun σ => (firstOf_below parts σ).andThen fun _ _ => .refl _

theorem anyHolds_below (parts : List.Forall₂ Below ms ms') (σ : Session) :
    (anyHolds ms σ).Below (anyHolds ms' σ) :=
  (firstOf_below parts σ).andThen fun _ _ => .refl _

theorem noneOf_below (expr : Expr) (parts : List.Forall₂ Below ms ms') :
    (noneOf expr ms).Below (noneOf expr ms') :=
  fun σ => (anyHolds_below parts σ).andThen fun _ _ => .refl _

theorem ahead_below (expr : Expr) (parts : List.Forall₂ Below ms ms') :
    (ahead expr ms).Below (ahead expr ms') :=
  fun σ => (anyHolds_below parts σ).andThen fun _ _ => .refl _

/-- The run may be given more rounds, and each of its rounds a larger limit of its own. -/
theorem greedyRun_below (below : m.Below m') (more : limit ≤ limit') (count : Nat) (last : Cursor)
    (σ : Session) : (greedyRun m limit count last σ).Below (greedyRun m' limit' count last σ) := by
  induction limit generalizing limit' count last σ with
  | zero => exact .unfinished _
  | succ limit ih =>
    obtain ⟨limit', rfl⟩ := Nat.exists_eq_add_one_of_ne_zero (Nat.ne_zero_of_lt more)
    unfold greedyRun
    rcases below σ with stuck | same
    · rw [stuck]
      exact .unfinished _
    · rw [same]
      cases m' σ with
      | ok boundary τ =>
        by_cases still : τ.current = σ.current
        · simp only [if_pos still]
          exact .refl _
        · simp only [if_neg still]
          exact ih (Nat.le_of_succ_le_succ more) (count + 1) boundary τ
      | error e τ => exact .refl _
      | unfinished => exact .refl _

theorem bounded_below (expr : Expr) (below : m.Below m') (more : limit ≤ limit') (low : Nat)
    (high : Option Nat) (σ : Session) :
    (bounded limit expr m low high σ).Below (bounded limit' expr m' low high σ) :=
  ((greedyRun_below below more 0 σ.current σ).andThen fun _ _ => .refl _).rewinding σ.current

theorem repeated_below (expr : Expr) (below : m.Below m') (more : limit ≤ limit') (low : Nat)
    (high : Option Nat) :
    (repeated limit expr m low high).Below (repeated limit' expr m' low high) :=
  fun σ => (bounded_below expr below more low high σ).andThen fun _ _ => .refl _

theorem between_below (expr : Expr) (below : m.Below m') (more : limit ≤ limit') (low high : Nat) :
    (between limit expr m low high).Below (between limit' expr m' low high) := by
  intro σ
  unfold between
  by_cases crossed : high ≠ 0 ∧ high < low
  · rw [if_pos crossed, if_pos crossed]
    exact .refl _
  · rw [if_neg crossed, if_neg crossed]
    exact repeated_below expr below more _ _ σ

theorem optionalFrom_below (expr : Expr) (parts : List.Forall₂ Below ms ms')
    (more : limit ≤ limit') (last : Cursor) :
    (optionalFrom limit expr ms last).Below (optionalFrom limit' expr ms' last) := by
  induction parts generalizing last with
  | nil => exact .refl _
  | @cons m m' ms ms' head _ ih =>
    intro σ
    unfold optionalFrom
    rcases bounded_below expr head more 0 (some 1) σ with stuck | same
    · rw [stuck]
      exact .unfinished _
    · rw [same]
      cases bounded limit' expr m' 0 (some 1) σ with
      | ok run τ =>
        obtain ⟨count, boundary⟩ := run
        cases count with
        | zero => exact ih last τ
        | succ count => exact ih boundary τ
      | error e τ => exact .retry e τ (ih last τ)
      | unfinished => exact .refl _

theorem optional_below (expr : Expr) (parts : List.Forall₂ Below ms ms') (more : limit ≤ limit') :
    (optional limit expr ms).Below (optional limit' expr ms') :=
  fun σ => optionalFrom_below expr parts more σ.current σ

theorem untilFrom_below (expr : Expr) (parts : List.Forall₂ Below ms ms') (inclusive : Bool)
    (more : limit ≤ limit') (last : Cursor) :
    (untilFrom expr ms inclusive limit last).Below (untilFrom expr ms' inclusive limit' last) := by
  induction limit generalizing limit' last with
  | zero => exact fun _ => .unfinished _
  | succ limit ih =>
    obtain ⟨limit', rfl⟩ := Nat.exists_eq_add_one_of_ne_zero (Nat.ne_zero_of_lt more)
    intro σ
    unfold untilFrom
    rcases firstOf_below parts σ with stuck | same
    · rw [stuck]
      exact .unfinished _
    · rw [same]
      cases firstOf ms' σ with
      | ok found τ =>
        cases found with
        | some boundary => exact .refl _
        | none =>
          by_cases ended : σ.current.isEnd
          · simp only [if_pos ended]
            exact .refl _
          · simp only [if_neg ended]
            exact (Outcome.Below.refl (consume τ)).andThen fun _ υ =>
              ih (Nat.le_of_succ_le_succ more) σ.current υ
      | error e τ => exact .refl _
      | unfinished => exact .refl _

theorem untilAny_below (expr : Expr) (parts : List.Forall₂ Below ms ms') (inclusive : Bool)
    (more : limit ≤ limit') :
    (untilAny limit expr ms inclusive).Below (untilAny limit' expr ms' inclusive) :=
  fun σ => untilFrom_below expr parts inclusive more σ.current σ

end Matcher

section Limits

variable {limit limit' : Nat} (more : limit ≤ limit')

theorem Expr.matchers_below_of {es : List Expr}
    (below : ∀ e ∈ es, (e.matcher limit).Below (e.matcher limit')) :
    List.Forall₂ Matcher.Below (Expr.matchers limit es) (Expr.matchers limit' es) := by
  rw [Expr.matchers_eq_map, Expr.matchers_eq_map, List.forall₂_map_left_iff,
    List.forall₂_map_right_iff, List.forall₂_same]
  exact below

include more

theorem Expr.matcher_below (e : Expr) : (e.matcher limit).Below (e.matcher limit') := by
  induction e using Expr.induction with
  | literal text => exact .refl _
  | point c => exact .refl _
  | any => exact .refl _
  | noneOf es ih =>
    exact Matcher.attempt_below _ (Matcher.noneOf_below _ (Expr.matchers_below_of ih))
  | ahead es ih =>
    exact Matcher.attempt_below _ (Matcher.ahead_below _ (Expr.matchers_below_of ih))
  | oneOf es ih =>
    exact Matcher.attempt_below _ (Matcher.oneOf_below _ (Expr.matchers_below_of ih))
  | seq es ih => exact Matcher.attempt_below _ (Matcher.seq_below (Expr.matchers_below_of ih))
  | optional es ih =>
    exact Matcher.attempt_below _ (Matcher.optional_below _ (Expr.matchers_below_of ih) more)
  | between low high e ih =>
    exact Matcher.attempt_below _ (Matcher.between_below _ ih more low high)
  | atLeast low e ih => exact Matcher.attempt_below _ (Matcher.repeated_below _ ih more _ _)
  | exactly times e ih => exact Matcher.attempt_below _ (Matcher.repeated_below _ ih more _ _)
  | range first last => exact .refl _
  | untilAny es inclusive ih =>
    exact Matcher.attempt_below _
      (Matcher.untilAny_below _ (Expr.matchers_below_of ih) inclusive more)
  | hook h => exact .refl _

theorem Expr.listMatcher_below (es : List Expr) :
    (Expr.listMatcher limit es).Below (Expr.listMatcher limit' es) := by
  intro σ
  unfold Expr.listMatcher
  split
  · next e => exact e.matcher_below more σ
  · have parts := Expr.matchers_below_of fun e (_ : e ∈ es) => e.matcher_below more
    exact (Matcher.seq_below parts σ).rewinding σ.current

/-- A match that finishes within a limit is the same within any larger limit, in its result, its
scanner and its events. -/
theorem Session.expectWithin_below (es : List Expr) (σ : Session) :
    (σ.expectWithin limit es).Below (σ.expectWithin limit' es) := by
  unfold expectWithin
  rcases Expr.listMatcher_below more es (σ.emit (.entered es.length)) with stuck | same
  · rw [stuck]
    exact .unfinished _
  · rw [same]
    exact .refl _

end Limits
end TextMatch
