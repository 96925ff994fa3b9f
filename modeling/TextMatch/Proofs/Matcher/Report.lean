import TextMatch.Proofs.Matcher.Recount
import TextMatch.Proofs.Scanner.Reach

/-!
# What hooks report

A hook reports events of its own, and nothing in its type keeps it from making them up. One that
does not is honest: it reports the scanners that it makes, the steps that scanners take, and the
matches that it makes, each as a whole, and these are in turn matches with honest hooks
(`Hook.Honest`). A property of events that all of these have, and that a match hands on from what
its hooks report to its own events, is one of all matches with honest hooks
(`Event.Law.of_honest`).

Hooks put together from steps are honest (`Script.honest`).
-/
namespace TextMatch

mutual

/-- What a hook at work with scanners that keep the invariant may report. -/
inductive Event.Reported (inv : Scanner.Invariant) : List Event → Prop
  | nil : Event.Reported inv []
  | created {events : List Event} {source : Source} {t : Scanner}
      (before : Event.Reported inv events) (made : Scanner.ofSource source = .ok t)
      (held : inv.holds t) : Event.Reported inv (events ++ [.created source.size])
  | advanced {events : List Event} {t : Scanner} {c : Cursor}
      (before : Event.Reported inv events) (held : inv.holds t)
      (next : t.source.cursorAfter t.current = .ok (some c)) :
      Event.Reported inv (events ++ [.advanced c.offset c.point])
  | nested {events trace : List Event} {σ τ : Session} {limit : Nat} {es : List Expr}
      {result : Except MatchError Cursor} (before : Event.Reported inv events)
      (held : inv.holds σ.scanner) (honest : ∀ h ∈ Expr.hooksIn es, Hook.Honest inv h)
      (came : (σ.expectWithin limit es).ComesTo result τ) (added : τ.events = σ.events ++ trace) :
      Event.Reported inv (events ++ trace)

/-- The hook keeps the invariant, and makes up no event. -/
inductive Hook.Honest (inv : Scanner.Invariant) : Hook → Prop
  | intro {h : Hook} (keeps : h.Keeps inv)
      (reports : ∀ t visit, inv.holds t → h.run t = some visit →
        Event.Reported inv visit.events) : Hook.Honest inv h

end

/-- A property of lists of events that goes from the parts of a match to the whole. -/
structure Event.Law (inv : Scanner.Invariant) where
  holds : List Event → Prop
  nil : holds []
  append {first second : List Event} : holds first → holds second → holds (first ++ second)
  created {source : Source} {t : Scanner} :
    Scanner.ofSource source = .ok t → inv.holds t → holds [.created source.size]
  advanced {t : Scanner} {c : Cursor} :
    inv.holds t → t.source.cursorAfter t.current = .ok (some c) →
      holds [.advanced c.offset c.point]
  outcome {expr : Expr} {start : Cursor} {result : Except MatchError Cursor} :
    inv.visits start → (∀ c, MatchError.cursorIn? result = some c → inv.visits c) →
      holds [Happening.outcome expr start result]
  whole {inside : List Event} (count : Nat) :
    holds inside → holds (.entered count :: (inside ++ [.left]))

open Happening

variable {inv : Scanner.Invariant} {events : List Event}

namespace Event.Law

variable {limit : Nat}

/-- Accounts in which hooks report what the law allows. -/
def terms (law : Law inv) (limit : Nat) : Account.Terms := ⟨inv, law.holds, limit⟩

mutual

theorem holds_events (law : Law inv) : ∀ h : Happening,
    (∀ k, Occurs k [h] → k.Genuine (law.terms limit)) → law.holds h.events
  | .read c, genuine => by
    cases genuine (.read c) (.here (List.mem_singleton_self _)) with
    | read held next => exact law.advanced held next
  | .called events, genuine => by
    cases genuine (.called events) (.here (List.mem_singleton_self _)) with
    | called _ _ reported => exact reported
  | .broke _, _ => law.nil
  | .tried expr start result within, genuine => by
    have inside := law.holds_eventsIn within fun k occurs =>
      genuine k (.within (List.mem_singleton_self _) occurs)
    cases genuine (.tried expr start result within) (.here (List.mem_singleton_self _)) with
    | tried held _ _ _ named _ =>
      exact law.append inside (law.outcome (inv.current held) named)

theorem holds_eventsIn (law : Law inv) : ∀ hs : List Happening,
    (∀ k, Occurs k hs → k.Genuine (law.terms limit)) → law.holds (eventsIn hs)
  | [], _ => law.nil
  | h :: hs, genuine => by
    have parts : ∀ k, Occurs k [h] ∨ Occurs k hs → k.Genuine (law.terms limit) :=
      fun k occurs => genuine k (occurs_append_iff.mpr occurs)
    rw [eventsIn]
    exact law.append (law.holds_events h fun k occurs => parts k (.inl occurs))
      (law.holds_eventsIn hs fun k occurs => parts k (.inr occurs))

end

/-- Where the hooks report what the law allows, a match keeps the law between its first event and
its last. -/
theorem of_expectWithin (law : Law inv) {σ τ : Session} {es : List Expr}
    {result : Except MatchError Cursor}
    (keep : ∀ h ∈ Expr.hooksIn es, h.KeepsTo (law.terms limit)) (held : inv.holds σ.scanner)
    (came : (σ.expectWithin limit es).ComesTo result τ) :
    ∃ inside, τ.events = σ.events ++ .entered es.length :: (inside ++ [.left]) ∧
      law.holds inside := by
  obtain ⟨hs, υ, account, _, rfl⟩ := Session.genuine_of_expectWithin keep held came
  exact ⟨eventsIn hs, account.account.events_left, law.holds_eventsIn hs account.genuine⟩

end Event.Law

mutual

theorem Event.Reported.lawful (law : Event.Law inv) : ∀ {events : List Event},
    Event.Reported inv events → law.holds events
  | _, .nil => law.nil
  | _, .created before made held => law.append (before.lawful law) (law.created made held)
  | _, .advanced before held next => law.append (before.lawful law) (law.advanced held next)
  | _, .nested before held honest came added => by
    obtain ⟨inside, told, kept⟩ :=
      law.of_expectWithin (fun h hooked => (honest h hooked).keepsTo law _) held came
    rw [List.append_cancel_left (added.symm.trans told)]
    exact law.append (before.lawful law) (law.whole _ kept)

theorem Hook.Honest.keepsTo (law : Event.Law inv) (limit : Nat) : ∀ {h : Hook}, h.Honest inv →
    h.KeepsTo (law.terms limit)
  | _, .intro keeps reports => fun t visit held run =>
    ⟨keeps t visit held run, (reports t visit held run).lawful law⟩

end

/-- A match with honest hooks keeps every law. -/
theorem Event.Law.of_honest (law : Event.Law inv) {σ τ : Session} {limit : Nat} {es : List Expr}
    {result : Except MatchError Cursor} {inside : List Event}
    (honest : ∀ h ∈ Expr.hooksIn es, h.Honest inv) (held : inv.holds σ.scanner)
    (came : (σ.expectWithin limit es).ComesTo result τ)
    (told : τ.events = σ.events ++ .entered es.length :: (inside ++ [.left])) :
    law.holds inside := by
  obtain ⟨inside', told', kept⟩ :=
    law.of_expectWithin (fun h hooked => (honest h hooked).keepsTo law _) held came
  have same := List.append_cancel_left (told.symm.trans told')
  rwa [List.append_cancel_right (List.cons.inj same).2]

/-- The accounts of matches with honest hooks. -/
def Account.Terms.honest (inv : Scanner.Invariant) (limit : Nat) : Account.Terms :=
  ⟨inv, Event.Reported inv, limit⟩

theorem Hook.Honest.keepsTo_honest {h : Hook} (honest : h.Honest inv) (limit : Nat) :
    h.KeepsTo (.honest inv limit) := by
  intro t visit held run
  cases honest with
  | intro keeps reports => exact ⟨keeps t visit held run, reports t visit held run⟩

/-! Hooks put together from steps. -/

/-- One report after another. -/
theorem Event.Reported.append {first : List Event} (front : Event.Reported inv first) :
    ∀ {second : List Event}, Event.Reported inv second → Event.Reported inv (first ++ second)
  | _, .nil => by
    rw [List.append_nil]
    exact front
  | _, .created before made held => by
    rw [← List.append_assoc]
    exact .created (front.append before) made held
  | _, .advanced before held next => by
    rw [← List.append_assoc]
    exact .advanced (front.append before) held next
  | _, .nested before held honest came added => by
    rw [← List.append_assoc]
    exact .nested (front.append before) held honest came added

/-- The second session comes from the first, and has honestly reported what happened. -/
structure Session.Reports (inv : Scanner.Invariant) (σ τ : Session) : Prop where
  held : inv.holds τ.scanner
  reported : ∃ events, τ.events = σ.events ++ events ∧ Event.Reported inv events

/-- All new scanners have it, over whatever source. -/
def Scanner.Invariant.Opens (inv : Scanner.Invariant) : Prop :=
  ∀ source t, Scanner.ofSource source = .ok t → inv.holds t

section Scripts

variable {start : Cursor} {σ τ υ : Session}

namespace Session.Reports

/-- Nothing is reported of what only moves the scanner. -/
theorem of_log_eq (held : inv.holds τ.scanner) (same : τ.log = σ.log) : σ.Reports inv τ := by
  refine ⟨held, [], ?_, .nil⟩
  rw [List.append_nil, Session.events, Session.events, same]

theorem trans (first : σ.Reports inv τ) (second : τ.Reports inv υ) : σ.Reports inv υ := by
  obtain ⟨before, told, reported⟩ := first.reported
  obtain ⟨later, told', reported'⟩ := second.reported
  exact ⟨second.held, before ++ later, by rw [told', told, List.append_assoc],
    reported.append reported'⟩

/-- What another session has logged counts as reported, also if it is not gone on with. -/
theorem adopt (reports : σ.Reports inv τ) {t : Scanner} (held : inv.holds t) :
    σ.Reports inv { τ with scanner := t } :=
  ⟨held, reports.reported⟩

theorem moveTo {c : Cursor} (held : inv.holds σ.scanner)
    (next : σ.source.cursorAfter σ.current = .ok (some c)) : σ.Reports inv (σ.moveTo c) := by
  refine ⟨inv.moveTo held next, [.advanced c.offset c.point], ?_, ?_⟩
  · simp [Session.events, Session.moveTo]
  · exact .advanced .nil held next

theorem advanceBy (n : Nat) (held : inv.holds σ.scanner) : σ.Reports inv (σ.advanceBy n).2 := by
  induction n generalizing σ with
  | zero => exact of_log_eq held rfl
  | succ n ih =>
    unfold Session.advanceBy
    split
    · exact of_log_eq held rfl
    · exact of_log_eq held rfl
    · next next =>
      have moved := moveTo held next
      exact moved.trans (ih moved.held)

theorem advanceWhile (first last : Char) (held : inv.holds σ.scanner) :
    σ.Reports inv (σ.advanceWhile first last).2 := by
  fun_induction Session.advanceWhile first last σ with
  | case1 | case3 | case4 | case5 => exact of_log_eq held rfl
  | case2 σ c _ _ next stepped ih =>
    have moved := moveTo held stepped
    exact moved.trans (ih moved.held)

theorem jumpAfter {scout : Session} (held : inv.holds σ.scanner) (scouted : σ.Reports inv scout)
    (n : Nat) : σ.Reports inv (σ.jumpAfter n scout).2 := by
  have ahead := scouted.trans (advanceBy n scouted.held)
  unfold Session.jumpAfter
  split
  · next result =>
    rw [result] at ahead
    exact ahead.adopt (inv.jump held (inv.current ahead.held))
  · next result =>
    rw [result] at ahead
    exact ahead.adopt held

theorem jumpInto {source : Source} (held : inv.holds σ.scanner)
    (opens : ∀ t, Scanner.ofSource source = .ok t → inv.holds t) (n : Nat) :
    σ.Reports inv (σ.jumpInto source n).2 := by
  unfold Session.jumpInto
  split
  · exact of_log_eq held rfl
  · next fresh made =>
    refine jumpAfter held ⟨opens fresh made, [.created source.size], ?_, ?_⟩ n
    · simp [Session.events]
    · exact .created .nil made (opens fresh made)

theorem expect {es : List Expr} {result : Except MatchError Cursor} (held : inv.holds σ.scanner)
    (honest : ∀ h ∈ Expr.hooksIn es, h.Honest inv) (came : (σ.expect es).ComesTo result τ) :
    σ.Reports inv τ := by
  obtain ⟨hs, υ, account, _, rfl⟩ := Session.genuine_of_expectWithin
    (fun h hooked => (honest h hooked).keepsTo_honest (roundLimit σ.source)) held came
  have told := account.account.events_left
  exact ⟨account.held, _, told, .nested .nil held honest came told⟩

end Session.Reports

theorem Step.reports {step : Step} {went : Bool} (supports : inv.Supports)
    (opens : step.isLocal = false → inv.Opens) (honest : ∀ h ∈ step.hooks, h.Honest inv)
    (held : inv.holds σ.scanner) (began : inv.visits start)
    (ran : step.run start σ = some (went, τ)) : σ.Reports inv τ := by
  cases step with
  | advance n =>
    cases ran
    exact .advanceBy n held
  | tryAdvance n =>
    cases ran
    exact .advanceBy n held
  | skip n =>
    have jumped := Session.Reports.jumpAfter held (.of_log_eq held rfl) n
    rw [Option.some.inj ran] at jumped
    exact jumped
  | goTo n =>
    have jumped : σ.Reports inv (σ.jumpInto σ.source n).2 :=
      .jumpInto held (fun _ made => supports.fresh held made) n
    rw [Option.some.inj ran] at jumped
    exact jumped
  | goToForeign source n =>
    have jumped := Session.Reports.jumpInto held (opens rfl source) n
    rw [Option.some.inj ran] at jumped
    exact jumped
  | goBack =>
    cases ran
    exact .of_log_eq (inv.jump held began) rfl
  | setBookmark =>
    cases ran
    exact .of_log_eq (supports.setBookmark held) rfl
  | returnToBookmark =>
    cases ran
    exact .of_log_eq (supports.returnToBookmark held) rfl
  | expect es | tryExpect es =>
    simp only [Step.run] at ran
    split at ran
    · next result =>
      cases ran
      exact .expect held honest (.of_ok result)
    · next result =>
      cases ran
      exact .expect held honest (.of_error result)
    · cases ran
  | advanceWhile first last =>
    have advanced := Session.Reports.advanceWhile first last held
    rw [Option.some.inj ran] at advanced
    exact advanced
  | isAt c | atEnd | fail =>
    cases ran
    exact .of_log_eq held rfl

theorem Script.reports {script : Script} {went : Bool} (supports : inv.Supports)
    (opens : ∀ step ∈ script, step.isLocal = false → inv.Opens)
    (honest : ∀ step ∈ script, ∀ h ∈ step.hooks, h.Honest inv) (held : inv.holds σ.scanner)
    (began : inv.visits start) (ran : script.run start σ = some (went, τ)) :
    σ.Reports inv τ := by
  induction script generalizing σ with
  | nil =>
    cases ran
    exact .of_log_eq held rfl
  | cons step script ih =>
    obtain ⟨opensHere, opensLater⟩ := List.forall_mem_cons.mp opens
    obtain ⟨honestHere, honestLater⟩ := List.forall_mem_cons.mp honest
    unfold Script.run at ran
    split at ran
    · next stepped =>
      have here := Step.reports supports opensHere honestHere held began stepped
      exact here.trans (ih opensLater honestLater here.held ran)
    · next stepped =>
      cases ran
      exact Step.reports supports opensHere honestHere held began stepped
    · cases ran

/-- A script reports just what it does. If it goes to another source, scanners over this have to
keep the invariant as well. -/
theorem Script.honest {script : Script} (name : String) (supports : inv.Supports)
    (opens : ∀ step ∈ script, step.isLocal = false → inv.Opens)
    (honest : ∀ step ∈ script, ∀ h ∈ step.hooks, h.Honest inv) :
    (script.toHook name).Honest inv := by
  have each (t : Scanner) (visit : Visit) (held : inv.holds t)
      (run : (script.toHook name).run t = some visit) :
      inv.holds visit.scanner ∧ Event.Reported inv visit.events := by
    unfold Script.toHook at run
    dsimp only at run
    split at run
    · next finished =>
      cases run
      have reports := Script.reports (σ := ⟨t, []⟩) supports opens honest held
        (inv.current held) finished
      obtain ⟨events, told, reported⟩ := reports.reported
      refine ⟨reports.held, ?_⟩
      rw [told]
      exact reported
    · cases run
  exact .intro (fun t visit held run => (each t visit held run).1)
    fun t visit held run => (each t visit held run).2

theorem Script.honest_of_local {script : Script} (name : String) (supports : inv.Supports)
    (isLocal : ∀ step ∈ script, step.isLocal = true)
    (honest : ∀ step ∈ script, ∀ h ∈ step.hooks, h.Honest inv) :
    (script.toHook name).Honest inv := by
  refine Script.honest name supports (fun step listed foreign => ?_) honest
  rw [isLocal step listed] at foreign
  cases foreign

end Scripts

theorem Scanner.Invariant.supports_unconditional :
    Scanner.Invariant.unconditional.Supports where
  fresh _ _ := trivial
  setBookmark _ := trivial
  returnToBookmark _ := trivial

end TextMatch
