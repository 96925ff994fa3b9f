import TextMatch.Proofs.Matcher.Report

/-!
# The events of a match

The events that a match adds to the log are a well-formed account of it (`Session.expect_events`):
they are those of the tries that it made, in between the event that enters it and the one that
leaves it, each try ends with one event of its own that says how it came out, and what is in front
of that are the points it read and the tries of its members, or what its hook reported. Nothing is
made up as long as no hook makes anything up. Matches within matches are entered and left like
brackets, and as long as the hooks stay on one source, all that is read lies there.
-/
namespace TextMatch

def Event.isEntered : Event → Bool
  | .entered _ => true
  | _ => false

/-- Matches are left that have been entered before, and all are left in the end. -/
structure Event.Balanced (events : List Event) : Prop where
  opened : ∀ front, front <+: events → front.count .left ≤ front.countP Event.isEntered
  settled : events.count .left = events.countP Event.isEntered

/-- One match, which is entered first and left last, with balanced events in between. -/
structure Event.Nested (events : List Event) : Prop extends Event.Balanced events where
  inside : ∀ front, front <+: events → front ≠ [] → front ≠ events →
    front.count .left < front.countP Event.isEntered

/-- All that the event tells is true of scanners over `source`: a step goes from one cursor of the
walk to the next, and the other offsets are of such cursors as well. -/
def Event.IsOf (source : Source) : Event → Prop
  | .created size => size = source.size
  | .advanced offset point => ∃ p c, source.Visited p ∧ source.cursorAfter p = .ok (some c) ∧
      source.Canonical c ∧ offset = c.offset ∧ point = c.point
  | .matched _ offset => ∃ c, source.Canonical c ∧ offset = c.offset
  | .backtracked _ offset failedAt _ => (∃ c, source.Canonical c ∧ offset = c.offset) ∧
      ∀ place, failedAt = some place → ∃ c, source.Canonical c ∧ place = c.offset
  | .entered _ | .left => True

namespace Event

variable {first second inside : List Event}

/-- A prefix of two lists together ends within the first, or goes on into the second. -/
theorem prefix_append {front : List Event} (leads : front <+: first ++ second) :
    front <+: first ∨ ∃ later, later <+: second ∧ front = first ++ later := by
  obtain ⟨rest, split⟩ := leads
  rcases List.append_eq_append_iff.mp split with ⟨later, whole, _⟩ | ⟨later, whole, back⟩
  · exact .inl ⟨later, whole.symm⟩
  · exact .inr ⟨later, ⟨rest, back.symm⟩, whole⟩

theorem Balanced.nil : Balanced [] where
  opened front leads := by simp [List.prefix_nil.mp leads]
  settled := rfl

theorem Balanced.append (front : Balanced first) (back : Balanced second) :
    Balanced (first ++ second) where
  opened events leads := by
    rcases prefix_append leads with within | ⟨later, within, rfl⟩
    · exact front.opened events within
    · rw [List.count_append, List.countP_append, front.settled]
      exact Nat.add_le_add_left (back.opened later within) _
  settled := by rw [List.count_append, List.countP_append, front.settled, back.settled]

/-- An event that neither enters a match nor leaves one. -/
theorem Balanced.single {event : Event} (stays : event ≠ .left)
    (level : event.isEntered = false) : Balanced [event] where
  opened front leads := by
    rcases List.prefix_cons_iff.mp leads with rfl | ⟨later, rfl, nothing⟩
    · simp
    · simp [List.prefix_nil.mp nothing, stays, level]
  settled := by simp [stays, level]

theorem Balanced.nested (balanced : Balanced inside) (count : Nat) :
    Nested (.entered count :: (inside ++ [.left])) := by
  have counted (later : List Event) :
      (Event.entered count :: later).count .left = later.count .left ∧
        (Event.entered count :: later).countP isEntered = later.countP isEntered + 1 :=
    ⟨List.count_cons_of_ne (by simp), List.countP_cons_of_pos rfl⟩
  have settled : (Event.entered count :: (inside ++ [.left])).count .left =
      (Event.entered count :: (inside ++ [.left])).countP isEntered := by
    rw [(counted _).1, (counted _).2, List.count_append, List.countP_append, balanced.settled]
    rfl
  -- in front of the end, there is one more that was entered
  have ahead (later : List Event) (leads : later <+: inside) :
      (Event.entered count :: later).count .left <
        (Event.entered count :: later).countP isEntered := by
    rw [(counted _).1, (counted _).2]
    exact Nat.lt_succ_of_le (balanced.opened later leads)
  refine ⟨⟨fun front leads => ?_, settled⟩, fun front leads nonempty proper => ?_⟩
  · rcases List.prefix_cons_iff.mp leads with rfl | ⟨later, rfl, within⟩
    · exact Nat.le_refl 0
    · rcases List.prefix_concat_iff.mp within with rfl | within
      · exact settled.le
      · exact (ahead later within).le
  · rcases List.prefix_cons_iff.mp leads with rfl | ⟨later, rfl, within⟩
    · exact absurd rfl nonempty
    · rcases List.prefix_concat_iff.mp within with rfl | within
      · exact absurd rfl proper
      · exact ahead later within

end Event

open Happening
open MatchError (fatalIn)

/-- Matches within matches are balanced. -/
def Event.balanceLaw (inv : Scanner.Invariant) : Event.Law inv where
  holds := Event.Balanced
  nil := .nil
  append := .append
  created _ _ := .single (by simp) rfl
  advanced _ _ := .single (by simp) rfl
  outcome {expr start result} _ _ := by
    cases result with
    | ok boundary => exact .single nofun rfl
    | error e => exact .single nofun rfl
  whole count balanced := (balanced.nested count).toBalanced

/-- On one source, all that is read is there. -/
def Event.sourceLaw (source : Source) : Event.Law (Scanner.canonicalInvariant source) where
  holds events := ∀ event ∈ events, event.IsOf source
  nil := List.forall_mem_nil _
  append front back := List.forall_mem_append.mpr ⟨front, back⟩
  created {source' t} made canonical := by
    rw [List.forall_mem_singleton, ← Scanner.ofSource_source made, canonical.source_eq]
    rfl
  advanced {t c} canonical next := by
    rw [canonical.source_eq] at next
    obtain ⟨i, visited⟩ := canonical.current
    have reached : source.Visited c := ⟨i + 1, visited.after next⟩
    exact List.forall_mem_singleton.mpr
      ⟨t.current, c, canonical.current, next, reached.canonical, rfl, rfl⟩
  outcome {expr start result} began named := by
    rw [List.forall_mem_singleton]
    cases result with
    | ok boundary => exact ⟨boundary, (named boundary rfl).canonical, rfl⟩
    | error e =>
      refine ⟨⟨start, began.canonical, rfl⟩, fun place failed => ?_⟩
      obtain ⟨c, stopped, rfl⟩ := Option.map_eq_some_iff.mp failed
      exact ⟨c, (named c stopped).canonical, rfl⟩
  whole count inside := by
    refine List.forall_mem_cons.mpr ⟨trivial, List.forall_mem_append.mpr ⟨inside, ?_⟩⟩
    exact List.forall_mem_singleton.mpr trivial

/-- What a match adds to the log, as long as its hooks make nothing up. The members of the list are
tried in order, up to the first that fails, and the result is that of the last try. Every try, at
any depth, is genuine: it is the evaluation of its expression in some session, with its result and
its events, of which the last says how it came out, and in front of it is what an expression of this
form does by itself and with its members. Matches within this one are entered and left like
brackets. If the hooks stay on the source of the scanner, what is read is there. -/
theorem Session.expect_events {σ τ : Session} {limit : Nat} {es : List Expr}
    {result : Except MatchError Cursor}
    (honest : ∀ h ∈ Expr.hooksIn es, h.Honest .unconditional)
    (came : (σ.expectWithin limit es).ComesTo result τ) :
    ∃ hs υ, τ.events = σ.events ++ .entered es.length :: (eventsIn hs ++ [.left]) ∧
      Account limit (.seq es) (σ.emit (.entered es.length)) hs (fatalIn result) υ ∧
      InSequence es σ.current hs result ∧
      (∀ h, Occurs h hs → h.Genuine (.honest .unconditional limit)) ∧
      Event.Nested (.entered es.length :: (eventsIn hs ++ [.left])) ∧
      ∀ source, σ.scanner.Canonical source →
        (∀ h ∈ Expr.hooksIn es, h.Honest (Scanner.canonicalInvariant source)) →
          ∀ event ∈ eventsIn hs, event.IsOf source := by
  have keep : ∀ h ∈ Expr.hooksIn es, h.KeepsTo (.honest .unconditional limit) :=
    fun h hooked => (honest h hooked).keepsTo_honest limit
  obtain ⟨hs, υ, account, members, rfl⟩ := genuine_of_expectWithin keep trivial came
  have told := account.account.events_left
  have balanced : Event.Balanced (eventsIn hs) :=
    (Event.balanceLaw .unconditional).of_honest honest trivial came told
  refine ⟨hs, υ, told, account.account, members, account.genuine, balanced.nested es.length, ?_⟩
  intro source canonical stay
  exact (Event.sourceLaw source).of_honest stay canonical came told

/-- Look at the second point with a scanner made for it, and then match an "a" at the first. -/
def Session.glance : Hook := Script.toHook [.goTo 1, .goBack, .expect [.point 'a']] "glance"

/-- A hook that makes a match of its own, and then a point that is not there. -/
theorem Session.expect_events_glance :
    let σ : Session := ⟨⟨.ofString "ab", ⟨.start, some 'a', 0⟩, none, none⟩, []⟩
    let es : List Expr := [.hook glance, .point 'x']
    (∀ h ∈ Expr.hooksIn es, h.Honest .unconditional) ∧
      ∃ result τ hs, (σ.expect es).ComesTo result τ ∧
        τ.events = [.entered 2, .created 2, .advanced 1 (some 'b'),
          .entered 1, .advanced 1 (some 'b'), .matched .point 0, .left, .matched .hook 0,
          .backtracked .point 1 (some 1) true, .left] ∧
        τ.events = .entered 2 :: (eventsIn hs ++ [.left]) ∧ InSequence es σ.current hs result ∧
        Event.Nested τ.events ∧ ∀ event ∈ eventsIn hs, event.IsOf σ.source := by
  intro σ es
  have glances {inv : Scanner.Invariant} (supports : inv.Supports) :
      ∀ h ∈ Expr.hooksIn es, h.Honest inv := by
    have honest : glance.Honest inv :=
      Script.honest_of_local _ supports (by decide) (by simp [Step.hooks, Expr.hooksIn, Expr.hooks])
    simpa [es, Expr.hooksIn, Expr.hooks] using honest
  have honest := glances Scanner.Invariant.supports_unconditional
  have left : (σ.expect es).session?.map Session.events =
      some [.entered 2, .created 2, .advanced 1 (some 'b'),
        .entered 1, .advanced 1 (some 'b'), .matched .point 0, .left, .matched .hook 0,
        .backtracked .point 1 (some 1) true, .left] := by decide +kernel
  obtain ⟨τ, finished, events⟩ := Option.map_eq_some_iff.mp left
  obtain ⟨result, came⟩ := Outcome.comesTo_of_session? finished
  obtain ⟨hs, υ, told, _, members, _, nested, within⟩ := expect_events honest came
  have canonical : σ.scanner.Canonical σ.source := Scanner.canonical_ofSource (by decide)
  rw [show σ.events = [] from rfl, List.nil_append] at told
  rw [← told] at nested
  exact ⟨honest, result, τ, hs, came, events, told, members, nested,
    within _ canonical (glances (Scanner.canonicalInvariant_isOver _).toSupports)⟩

end TextMatch
