import TextMatch.Proofs.Matcher.Recount
import TextMatch.Proofs.Reading.Agreement

/-!
# Fatal failures

An error other than a mismatch ends the whole match. Many constructs answer the failure of a member
with something else, each of them with a test of its own. That none of these tests is missing, at
any depth, shows in the account of a match:

* a try that fails fatally is the last thing to happen, and every try around it fails with the same
  error (`Account.closes_of_occurs`);
* a match that fails fatally ends with such a try (`Account.ends_with_try`);
* the events from the first fatal one on are the ends of these tries and nothing else
  (`Account.fatalFrom`).

`Scanner.expect_passes_fatal_on` puts these together for the matches of expressions without hooks.
What a hook reports is not looked into.
-/
namespace TextMatch

/-- Whether the event is the end of a try that failed with an error other than a mismatch. -/
def Event.isFatal : Event → Bool
  | .backtracked _ _ _ mismatch => !mismatch
  | _ => false

namespace Happening

/-- Nothing comes after it but the ends of the tries around it, which all fail with the error. -/
inductive Closes (h : Happening) (error : MatchError) : List Happening → Prop
  | here {before : List Happening} : Closes h error (before ++ [h])
  | within {before inner : List Happening} {expr : Expr} {start : Cursor}
      (deeper : Closes h error inner) :
      Closes h error (before ++ [.tried expr start (.error error) inner])

end Happening

/-- The events divide in two: fatal are the later ones only, and these know no place. -/
structure Event.FatalFrom (events calm fatal : List Event) : Prop where
  divided : events = calm ++ fatal
  calm : ∀ event ∈ calm, event.isFatal = false
  fatal : ∀ event ∈ fatal, ∃ kind offset, event = .backtracked kind offset none false

open Happening

theorem Match.fatal?_eq_some_iff {m : Match} {e : MatchError} :
    m.fatal? = some e ↔ m.result = .error e ∧ e.isMismatch = false := by
  unfold Match.fatal?
  cases m.result with
  | ok boundary => simp
  | error d =>
    rw [MatchError.fatal?_eq_some_iff]
    constructor
    · rintro ⟨fatal, rfl⟩
      exact ⟨rfl, fatal⟩
    · rintro ⟨same, fatal⟩
      cases same
      exact ⟨fatal, rfl⟩

variable {limit : Nat} {whole : Expr} {σ τ : Session} {hs : List Happening}
  {error : Option MatchError}

/-- A try that fails fatally closes the account, at whatever depth it occurs. -/
theorem Account.closes_of_occurs {expr : Expr} {start : Cursor} {e : MatchError}
    {inner : List Happening} (account : Account limit whole σ hs error τ)
    (occurs : Occurs (.tried expr start (.error e) inner) hs) (fatal : e.isMismatch = false) :
    error = some e ∧ Closes (.tried expr start (.error e) inner) e hs := by
  induction account with
  | began => exact absurd occurs not_occurs_nil
  | jumped _ ih => exact ih occurs
  | read _ _ _ ih | unreadable _ _ _ ih | defective _ _ ih | called _ _ ih =>
    -- What comes behind an open account is no try here.
    rcases occurs_concat occurs with earlier | last | ⟨_, _, _, _, last, _⟩
    · cases (ih earlier).1
    · cases last
    · cases last
  | matched _ _ _ _ ih ihInside =>
    rcases occurs_concat occurs with earlier | last | ⟨_, _, _, _, last, deeper⟩
    · cases (ih earlier).1
    · cases last
    · cases last
      cases (ihInside deeper).1
  | failed _ _ _ _ ih ihInside =>
    rcases occurs_concat occurs with earlier | last | ⟨_, _, _, _, last, deeper⟩
    · cases (ih earlier).1
    · cases last
      exact ⟨MatchError.fatal?_eq_some_iff.mpr ⟨fatal, rfl⟩, .here⟩
    · cases last
      obtain ⟨same, closes⟩ := ihInside deeper
      obtain ⟨_, rfl⟩ := MatchError.fatal?_eq_some_iff.mp same
      exact ⟨same, .within closes⟩

/-- Where only members are tried, the account is closed by one of them. -/
theorem Account.ends_with_try {es : List Expr} {e : MatchError}
    (account : Account limit (.seq es) σ hs (some e) τ) :
    e.isMismatch = false ∧
      ∃ before expr start inner, hs = before ++ [.tried expr start (.error e) inner] := by
  generalize seq : Expr.seq es = whole, closed : some e = error at account
  induction account with
  | began | read | matched => cases closed
  | called => cases seq
  | jumped _ ih => exact ih seq closed
  | unreadable _ reads => subst seq; cases reads
  | defective _ wrong => subst seq; cases wrong
  | failed =>
    obtain ⟨fatal, rfl⟩ := MatchError.fatal?_eq_some_iff.mp closed.symm
    exact ⟨fatal, _, _, _, _, rfl⟩

namespace Event.FatalFrom

variable {events inside calm fatal : List Event} {event : Event}

theorem of_calm (harmless : ∀ event ∈ events, event.isFatal = false) :
    FatalFrom events events [] where
  divided := by simp
  calm := harmless
  fatal := by simp

theorem append (before : ∀ event ∈ events, event.isFatal = false)
    (after : FatalFrom inside calm fatal) :
    FatalFrom (events ++ inside) (events ++ calm) fatal where
  divided := by rw [after.divided, List.append_assoc]
  calm := by
    intro event listed
    rcases List.mem_append.mp listed with earlier | later
    · exact before event earlier
    · exact after.calm event later
  fatal := after.fatal

theorem concat (before : FatalFrom events calm fatal) {kind : Kind} {offset : Nat}
    (last : event = .backtracked kind offset none false) :
    FatalFrom (events ++ [event]) calm (fatal ++ [event]) where
  divided := by rw [before.divided, List.append_assoc]
  calm := before.calm
  fatal := by
    intro event listed
    rcases List.mem_append.mp listed with earlier | later
    · exact before.fatal event earlier
    · exact ⟨kind, offset, (List.mem_singleton.mp later).trans last⟩

theorem eq_nil_iff (divided : FatalFrom events calm fatal) :
    fatal = [] ↔ ∀ event ∈ events, event.isFatal = false := by
  constructor
  · rintro rfl
    simpa [divided.divided] using divided.calm
  · intro harmless
    rw [List.eq_nil_iff_forall_not_mem]
    intro event listed
    have calm := harmless event (by simp [divided.divided, listed])
    obtain ⟨kind, offset, rfl⟩ := divided.fatal event listed
    cases calm

end Event.FatalFrom

theorem Happening.isFatal_outcome_error (expr : Expr) (start : Cursor) (e : MatchError) :
    (outcome expr start (.error e)).isFatal = !e.isMismatch := rfl

/-- Whoever fails fatally does not know where. -/
theorem Happening.outcome_fatal (expr : Expr) (start : Cursor) {e : MatchError}
    (fatal : e.isMismatch = false) :
    outcome expr start (.error e) = .backtracked expr.kind start.offset none false := by
  cases e with
  | unmet | refused => cases fatal
  | defective | unreadable => rfl

theorem Happening.calm_concat (before : ∀ event ∈ eventsIn hs, event.isFatal = false)
    {h : Happening} (last : ∀ event ∈ h.events, event.isFatal = false) :
    ∀ event ∈ eventsIn (hs ++ [h]), event.isFatal = false := by
  rw [eventsIn_concat]
  exact List.forall_mem_append.mpr ⟨before, last⟩

theorem Happening.calm_tried {inner : List Happening} {expr : Expr} {start : Cursor}
    {result : Except MatchError Cursor} (within : ∀ event ∈ eventsIn inner, event.isFatal = false)
    (harmless : (outcome expr start result).isFatal = false) :
    ∀ event ∈ (tried expr start result inner).events, event.isFatal = false := by
  rw [events]
  exact List.forall_mem_append.mpr ⟨within, List.forall_mem_singleton.mpr harmless⟩

/-- As long as an account is open, none of its events is fatal. -/
theorem Account.calm (account : Account limit whole σ hs none τ) (free : whole.hooks = []) :
    ∀ event ∈ eventsIn hs, event.isFatal = false := by
  generalize still : (none : Option MatchError) = error at account
  induction account with
  | began => simp [eventsIn]
  | jumped _ ih => exact ih free still
  | read _ _ _ ih => exact calm_concat (ih free rfl) (by simp [events, Event.isFatal])
  | unreadable | defective => cases still
  | called => cases free
  | matched _ member _ _ ih ihInside =>
    have freeInside := Expr.hooks_eq_nil_of_mem_members free member
    exact calm_concat (ih free rfl) (calm_tried (ihInside freeInside rfl) rfl)
  | @failed _ _ _ _ _ _ _ error _ member _ _ ih ihInside =>
    have freeInside := Expr.hooks_eq_nil_of_mem_members free member
    refine calm_concat (ih free rfl) (calm_tried (ihInside freeInside still) ?_)
    rw [isFatal_outcome_error, MatchError.fatal?_eq_none_iff.mp still.symm]
    rfl

/-- The events of an account, up to the first fatal one and from there on. -/
theorem Account.fatalFrom (account : Account limit whole σ hs error τ) (free : whole.hooks = []) :
    ∃ calm fatal, Event.FatalFrom (eventsIn hs) calm fatal := by
  induction account with
  | began => exact ⟨_, [], .of_calm (by simp [eventsIn])⟩
  | jumped _ ih => exact ih free
  | read before reads next =>
    exact ⟨_, [], .of_calm ((Account.read before reads next).calm free)⟩
  | matched before member inside ended =>
    exact ⟨_, [], .of_calm ((Account.matched before member inside ended).calm free)⟩
  | unreadable before | defective before =>
    refine ⟨_, [], .of_calm ?_⟩
    exact calm_concat (before.calm free) (by simp [events])
  | called => cases free
  | @failed _ e _ τ _ _ _ error before member inside ended _ ihInside =>
    cases mismatch : error.isMismatch with
    | true =>
      have account := Account.failed before member inside ended
      rw [MatchError.fatal?_eq_none_iff.mpr mismatch] at account
      exact ⟨_, [], .of_calm (account.calm free)⟩
    | false =>
      have freeInside := Expr.hooks_eq_nil_of_mem_members free member
      obtain ⟨calm, fatal, divided⟩ := ihInside freeInside
      have ends := divided.concat (outcome_fatal e τ.current mismatch)
      rw [eventsIn_concat, events]
      exact ⟨_, _, ends.append (before.calm free)⟩

/-- Where only members are tried, no event is fatal exactly if the account is still open. -/
theorem Account.calm_iff {es : List Expr} (account : Account limit (.seq es) σ hs error τ)
    (free : Expr.hooksIn es = []) :
    (∀ event ∈ eventsIn hs, event.isFatal = false) ↔ error = none := by
  constructor
  · intro calm
    cases error with
    | none => rfl
    | some e =>
      obtain ⟨fatal, before, expr, start, inner, rfl⟩ := account.ends_with_try
      have last : outcome expr start (.error e) ∈
          eventsIn (before ++ [.tried expr start (.error e) inner]) := by
        simp [events]
      have harmless := calm _ last
      rw [isFatal_outcome_error, fatal] at harmless
      cases harmless
  · rintro rfl
    exact account.calm free

namespace Scanner

/-- A match of expressions without hooks finishes, and there is an account of it, from the event
that enters it to the one that leaves it. A try that fails with an error other than a mismatch is
the last thing to happen in this account, the tries around it fail with the same error, and so
does the match. The first fatal event is followed by fatal ones only, none of which knows the place
of the failure; there is one exactly if the match fails with an error other than a mismatch. -/
theorem expect_passes_fatal_on {t : Scanner} {i : Nat} {es : List Expr}
    (visited : t.source.Visits i t.current) (free : Expr.hooksIn es = []) :
    ∃ m hs σ, t.expect es = some m ∧
      Account (Session.roundLimit t.source) (.seq es) ⟨t, [.entered es.length]⟩ hs m.fatal? σ ∧
      m.scanner = σ.scanner ∧ m.events = .entered es.length :: (eventsIn hs ++ [.left]) ∧
      (∀ expr start e inner, Occurs (.tried expr start (.error e) inner) hs →
        e.isMismatch = false →
          Closes (.tried expr start (.error e) inner) e hs ∧ m.result = .error e) ∧
      ∃ calm fatal, Event.FatalFrom (eventsIn hs) calm fatal ∧
        (fatal ≠ [] ↔ ∃ e, m.result = .error e ∧ e.isMismatch = false) := by
  obtain ⟨rest, start, _⟩ := At.of_visits rfl visited
  obtain ⟨m, finished, _, _⟩ := start.expect free
  obtain ⟨hs, σ, account, scanner, events⟩ := account_of_expect finished
  refine ⟨m, hs, σ, finished, account, scanner, events, ?_, ?_⟩
  · intro expr start e inner occurs fatal
    obtain ⟨closed, closes⟩ := account.closes_of_occurs occurs fatal
    exact ⟨closes, (Match.fatal?_eq_some_iff.mp closed).1⟩
  · obtain ⟨calm, fatal, divided⟩ := account.fatalFrom free
    refine ⟨calm, fatal, divided, ?_⟩
    simp only [← Match.fatal?_eq_some_iff, ← Option.ne_none_iff_exists']
    rw [ne_eq, divided.eq_nil_iff, account.calm_iff free]

/-- An empty literal, tried within a sequence that is not to match, within an optional, within a
choice that has another alternative. -/
theorem expect_passes_empty_literal_on :
    let t : Scanner := ⟨⟨"ab".toUTF8⟩, ⟨.start, some 'a', 0⟩, none, none⟩
    let es : List Expr := [.oneOf [.optional [.noneOf [.seq [.point 'a', .literal ""]]], .any]]
    t.source.Visits 0 t.current ∧ Expr.hooksIn es = [] ∧
      ∃ m hs calm fatal, t.expect es = some m ∧
        m.result = .error (.defective .literal .emptyLiteral) ∧
        m.events = .entered 1 :: (eventsIn hs ++ [.left]) ∧
        Event.FatalFrom (eventsIn hs) calm fatal ∧ fatal ≠ [] := by
  intro t es
  have visited : t.source.Visits 0 t.current := .first (by decide)
  have free : Expr.hooksIn es = [] := rfl
  obtain ⟨m, hs, σ, finished, _, _, events, _, calm, fatal, divided, came⟩ :=
    expect_passes_fatal_on visited free
  have named : (t.expect es).bind (fun m =>
      match m.result with
      | .error (.defective kind defect) => some (kind, defect)
      | _ => none) = some (.literal, .emptyLiteral) := by decide
  have failed : m.result = .error (.defective .literal .emptyLiteral) := by
    rw [finished, Option.bind_some] at named
    split at named
    · next result =>
      cases named
      exact result
    · cases named
  exact ⟨visited, free, m, hs, calm, fatal, finished, failed, events, divided,
    came.mpr ⟨_, failed, rfl⟩⟩

end Scanner
end TextMatch
