import Mathlib.Logic.Relation
import TextMatch.Proofs.Matcher.Invariant

/-!
# What a match puts back

A try that fails is put back to the cursor where it began, by the try itself and by nobody above
it (`Matcher.attempt_restores`). This needs nothing of the hooks: whatever they do to the scanner,
the try that called them ends with a jump. A try of `noneOf` or `ahead` is put back also where it
succeeds. Without hooks nobody touches the bookmark slot, so that a bookmark set before any number
of matches is the one to return to after them (`Session.expect_restores`).

All of this is said for any limit on the rounds of the loops, so that no match is left out for
going on too long.
-/
namespace TextMatch

/-- `ok` holds of a success, `failed` of a failure. -/
def Outcome.Ends {α : Type} (ok : α → Session → Prop) (failed : MatchError → Session → Prop) :
    Outcome α → Prop
  | .ok value τ => ok value τ
  | .error e τ => failed e τ
  | .unfinished => True

/-- However it came out, the scanner is at `c`. -/
def Outcome.StaysAt {α : Type} (c : Cursor) : Outcome α → Prop :=
  Ends (fun _ τ => τ.current = c) fun _ τ => τ.current = c

/-- A failure leaves the scanner where the matcher was tried, without a previous cursor. -/
def Matcher.Restores (m : Matcher) : Prop :=
  ∀ σ, (m σ).Ends (fun _ _ => True) fun _ τ => τ.current = σ.current ∧ τ.scanner.previous = none

/-- The source and the bookmark slot of the second scanner are those of the first. -/
structure Scanner.Frame (s t : Scanner) : Prop where
  source_eq : t.source = s.source
  bookmark_eq : t.bookmark = s.bookmark

/-- A match of expressions without hooks leads from the one session to the other, whichever way it
came out. -/
def Session.MatchesTo (σ τ : Session) : Prop :=
  ∃ limit es, Expr.hooksIn es = [] ∧ (σ.expectWithin limit es).session? = some τ

namespace Scanner

theorem Frame.refl (s : Scanner) : s.Frame s := ⟨rfl, rfl⟩

theorem Frame.trans {s t u : Scanner} (first : s.Frame t) (second : t.Frame u) : s.Frame u :=
  ⟨second.source_eq.trans first.source_eq, second.bookmark_eq.trans first.bookmark_eq⟩

/-- Neither jumps nor steps leave the frame. -/
def frameInvariant (s : Scanner) : Invariant where
  holds := s.Frame
  visits _ := True
  current _ := trivial
  previous _ _ := trivial
  jump frame _ := ⟨frame.source_eq, frame.bookmark_eq⟩
  moveTo frame _ := ⟨frame.source_eq, frame.bookmark_eq⟩

theorem Frame.eq_jump {s t : Scanner} (frame : s.Frame t) {c : Cursor} (current : t.current = c)
    (previous : t.previous = none) : t = s.jump c := by
  obtain ⟨source, here, before, bookmark⟩ := t
  obtain ⟨rfl, rfl⟩ := frame
  cases current
  cases previous
  rfl

/-- The bookmark of the frame is still the one to return to. -/
theorem Frame.returnToBookmark {s t : Scanner} {c : Cursor} (frame : s.Frame t)
    (marked : s.bookmark = some c) :
    t.returnToBookmark = (true, { s.jump c with bookmark := none }) := by
  rw [Scanner.returnToBookmark, frame.bookmark_eq, marked]
  simp only [jump, frame.source_eq]

end Scanner

theorem Outcome.Ends.andThen {α β : Type} {ok : α → Session → Prop} {ok' : β → Session → Prop}
    {failed : MatchError → Session → Prop} {o : Outcome α} {next : α → Session → Outcome β}
    (ends : o.Ends ok failed) (onward : ∀ value τ, ok value τ → (next value τ).Ends ok' failed) :
    (o.andThen next).Ends ok' failed := by
  cases o with
  | ok value τ => exact onward value τ ends
  | error e τ => exact ends
  | unfinished => trivial

theorem Outcome.rewinding_restores {α : Type} (o : Outcome α) (c : Cursor) :
    (o.rewinding c).Ends (fun _ _ => True) fun _ τ =>
      τ.current = c ∧ τ.scanner.previous = none := by
  cases o with
  | ok value τ => trivial
  | error e τ => exact ⟨rfl, rfl⟩
  | unfinished => trivial

namespace Matcher

variable {m : Matcher} {ms : List Matcher} {σ : Session}

theorem attempt_restores (kind : Kind) (m : Matcher) : (attempt kind m).Restores := by
  intro σ
  unfold attempt
  cases m σ with
  | ok boundary τ => trivial
  | error e τ => exact ⟨rfl, rfl⟩
  | unfinished => trivial

/-- Where no member is found, each of them was put back. -/
theorem firstOf_ends (restore : ∀ m ∈ ms, m.Restores) :
    (firstOf ms σ).Ends (fun found τ => found = none → τ.current = σ.current)
      fun _ τ => τ.current = σ.current := by
  induction ms generalizing σ with
  | nil => exact fun _ => rfl
  | cons m ms ih =>
    obtain ⟨head, tail⟩ := List.forall_mem_cons.mp restore
    have back := head σ
    unfold firstOf
    generalize m σ = o at back ⊢
    cases o with
    | ok boundary τ => exact fun found => by cases found
    | error e τ =>
      by_cases mismatch : e.isMismatch
      · simp only [if_pos mismatch]
        rw [← back.1]
        exact ih tail
      · simp only [if_neg mismatch]
        exact back.1
    | unfinished => trivial

theorem anyHolds_staysAt (restore : ∀ m ∈ ms, m.Restores) :
    (anyHolds ms σ).StaysAt σ.current := by
  refine (firstOf_ends restore).andThen fun found τ back => ?_
  cases found with
  | some boundary => exact Session.current_jump τ σ.current
  | none => exact back rfl

theorem noneOf_staysAt (expr : Expr) (restore : ∀ m ∈ ms, m.Restores) :
    (noneOf expr ms σ).StaysAt σ.current := by
  refine (anyHolds_staysAt restore).andThen fun holds τ stayed => ?_
  cases holds with
  | true => exact stayed
  | false => exact stayed

theorem ahead_staysAt (expr : Expr) (restore : ∀ m ∈ ms, m.Restores) :
    (ahead expr ms σ).StaysAt σ.current := by
  refine (anyHolds_staysAt restore).andThen fun holds τ stayed => ?_
  cases holds with
  | true => exact stayed
  | false => exact stayed

theorem attempt_staysAt (kind : Kind) (stays : (m σ).StaysAt σ.current) :
    (attempt kind m σ).StaysAt σ.current := by
  unfold attempt
  generalize m σ = o at stays ⊢
  cases o with
  | ok boundary τ => exact stays
  | error e τ => exact Session.current_jump _ σ.current
  | unfinished => trivial

end Matcher

theorem Expr.matcher_restores (limit : Nat) (e : Expr) : (e.matcher limit).Restores := by
  cases e <;> exact Matcher.attempt_restores _ _

theorem Expr.matchers_restore (limit : Nat) (es : List Expr) :
    ∀ m ∈ Expr.matchers limit es, m.Restores := by
  rw [Expr.matchers_eq_map]
  exact List.forall_mem_map.mpr fun e _ => e.matcher_restores limit

theorem Expr.listMatcher_restores (limit : Nat) (es : List Expr) :
    (Expr.listMatcher limit es).Restores := by
  intro σ
  unfold Expr.listMatcher
  split
  · next e => exact e.matcher_restores limit σ
  · exact Outcome.rewinding_restores _ σ.current

namespace Session

variable {σ τ : Session} {limit : Nat} {es : List Expr}

theorem current_of_expect_error {e : MatchError} (failed : σ.expectWithin limit es = .error e τ) :
    τ.current = σ.current ∧ τ.scanner.previous = none := by
  have back := Expr.listMatcher_restores limit es (σ.emit (.entered es.length))
  unfold expectWithin at failed
  split at failed
  · cases failed
  · next result =>
    cases failed
    rw [result] at back
    exact back
  · cases failed

theorem frame_of_expect (free : Expr.hooksIn es = [])
    (left : (σ.expectWithin limit es).session? = some τ) : σ.scanner.Frame τ.scanner := by
  have kept := @expectWithin_keeps σ.scanner.frameInvariant limit σ es (.refl σ.scanner)
    (by simp [free])
  exact kept.holds left

theorem frame_of_matches (matched : Relation.ReflTransGen MatchesTo σ τ) :
    σ.scanner.Frame τ.scanner := by
  induction matched with
  | refl => exact .refl σ.scanner
  | tail _ last ih =>
    obtain ⟨limit, es, free, left⟩ := last
    exact ih.trans (frame_of_expect free left)

/-- A match that fails has not moved the scanner, whatever its hooks did. A match without hooks
leaves the source and the bookmark slot as they were, and if it fails, all of the scanner but the
previous cursor; so a bookmark set before any number of such matches is the one to return to. Any
try of `noneOf` or `ahead`, at whatever depth of a match, ends where it began. -/
theorem expect_restores (limit : Nat) (es : List Expr) (σ : Session) :
    (∀ e τ, σ.expectWithin limit es = .error e τ →
      τ.current = σ.current ∧ τ.scanner.previous = none) ∧
    (Expr.hooksIn es = [] →
      (∀ τ, (σ.expectWithin limit es).session? = some τ → σ.scanner.Frame τ.scanner) ∧
      ∀ e τ, σ.expectWithin limit es = .error e τ → τ.scanner = σ.scanner.jump σ.current) ∧
    (∀ τ, Relation.ReflTransGen MatchesTo σ.setBookmark τ →
      τ.scanner.returnToBookmark =
        (true, { σ.scanner.jump σ.current with bookmark := none })) ∧
    ((Expr.noneOf es).matcher limit σ).StaysAt σ.current ∧
      ((Expr.ahead es).matcher limit σ).StaysAt σ.current := by
  refine ⟨fun e τ => current_of_expect_error, fun free => ⟨fun τ => frame_of_expect free, ?_⟩,
    fun τ matched => ?_, ?_, ?_⟩
  · intro e τ failed
    have frame := frame_of_expect free (show (σ.expectWithin limit es).session? = some τ by
      rw [failed]; rfl)
    obtain ⟨current, previous⟩ := current_of_expect_error failed
    exact frame.eq_jump current previous
  · exact (frame_of_matches matched).returnToBookmark rfl
  · exact Matcher.attempt_staysAt _
      (Matcher.noneOf_staysAt _ (Expr.matchers_restore limit es))
  · exact Matcher.attempt_staysAt _
      (Matcher.ahead_staysAt _ (Expr.matchers_restore limit es))

end Session
end TextMatch
