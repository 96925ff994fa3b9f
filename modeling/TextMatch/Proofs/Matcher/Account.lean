import TextMatch.Proofs.Matcher.Invariant
import TextMatch.Proofs.Expr.Parts

/-!
# Accounts of matches

The events of a match are the outline of a tree. Its nodes are the tries, and within a try lies
all that it took: the points read, and the tries of its own members. An account gives the tree
back. One that goes on where another has come to continues it (`Account.trans`).

An error other than a mismatch closes an account: there is no rule that would add to it.
-/
namespace TextMatch

/-- The error itself, if it ends the whole match. -/
def MatchError.fatal? (e : MatchError) : Option MatchError :=
  bif e.isMismatch then none else some e

def Outcome.fatal? {α : Type} : Outcome α → Option MatchError
  | .ok _ _ => none
  | .error e _ => e.fatal?
  | .unfinished => none

def Match.fatal? (m : Match) : Option MatchError :=
  match m.result with
  | .ok _ => none
  | .error e => e.fatal?

theorem MatchError.fatal?_eq_none_iff {e : MatchError} :
    e.fatal? = none ↔ e.isMismatch = true := by
  cases mismatch : e.isMismatch <;> simp [fatal?, mismatch]

theorem MatchError.fatal?_eq_some_iff {e d : MatchError} :
    e.fatal? = some d ↔ e.isMismatch = false ∧ e = d := by
  cases mismatch : e.isMismatch <;> simp [fatal?, mismatch]

/-- Whether a try of the expression reads points itself, outside the tries of its members. -/
def Expr.reads : Expr → Bool
  | .literal _ | .point _ | .any | .range _ _ | .untilAny _ _ | .hook _ => true
  | .noneOf _ | .ahead _ | .oneOf _ | .seq _ | .optional _ => false
  | .between .. | .atLeast .. | .exactly .. => false

/-- What happens in a match. -/
inductive Happening where
  /-- The scanner advanced to `c`. -/
  | read (c : Cursor)
  /-- A hook was called, and reported these events. -/
  | called (events : List Event)
  /-- An error came up that no alternative can answer. -/
  | broke (error : MatchError)
  /-- An expression was tried at `start`, with this result, after all that happened within. -/
  | tried (expr : Expr) (start : Cursor) (result : Except MatchError Cursor)
    (within : List Happening)

namespace Happening

/-- The event that ends a try. -/
def outcome (expr : Expr) (start : Cursor) : Except MatchError Cursor → Event
  | .ok boundary => .matched expr.kind boundary.offset
  | .error e =>
    .backtracked expr.kind start.offset (e.cursor?.map Cursor.offset) e.isMismatch

mutual

/-- The events of what happened, earliest first. -/
def events : Happening → List Event
  | .read c => [.advanced c.offset c.point]
  | .called events => events
  | .broke _ => []
  | .tried expr start result within => eventsIn within ++ [outcome expr start result]

def eventsIn : List Happening → List Event
  | [] => []
  | h :: hs => h.events ++ eventsIn hs

end

/-- It is among what happened, or happened within some try, at any depth. -/
inductive Occurs (h : Happening) : List Happening → Prop
  | here {hs : List Happening} (listed : h ∈ hs) : Occurs h hs
  | within {hs inner : List Happening} {expr : Expr} {start : Cursor}
      {result : Except MatchError Cursor} (listed : .tried expr start result inner ∈ hs)
      (deeper : Occurs h inner) : Occurs h hs

variable {h k : Happening} {hs : List Happening}

theorem not_occurs_nil : ¬ Occurs h [] := by
  intro occurs
  cases occurs with
  | here listed => simp at listed
  | within listed _ => simp at listed

/-- What occurs at the end of a list is the last there or occurs within it. -/
theorem occurs_concat (occurs : Occurs h (hs ++ [k])) :
    Occurs h hs ∨ h = k ∨
      ∃ expr start result inner, k = .tried expr start result inner ∧ Occurs h inner := by
  cases occurs with
  | here listed =>
    rcases List.mem_append.mp listed with earlier | last
    · exact .inl (.here earlier)
    · exact .inr (.inl (List.mem_singleton.mp last))
  | within listed deeper =>
    rcases List.mem_append.mp listed with earlier | last
    · exact .inl (.within earlier deeper)
    · exact .inr (.inr ⟨_, _, _, _, (List.mem_singleton.mp last).symm, deeper⟩)

theorem occurs_append_iff {ks : List Happening} :
    Occurs h (hs ++ ks) ↔ Occurs h hs ∨ Occurs h ks := by
  constructor
  · intro occurs
    cases occurs with
    | here listed => exact (List.mem_append.mp listed).imp .here .here
    | within listed deeper =>
      exact (List.mem_append.mp listed).imp (.within · deeper) (.within · deeper)
  · rintro (occurs | occurs)
    · cases occurs with
      | here listed => exact .here (List.mem_append_left ks listed)
      | within listed deeper => exact .within (List.mem_append_left ks listed) deeper
    · cases occurs with
      | here listed => exact .here (List.mem_append_right hs listed)
      | within listed deeper => exact .within (List.mem_append_right hs listed) deeper

@[simp] theorem eventsIn_concat (hs : List Happening) (h : Happening) :
    eventsIn (hs ++ [h]) = eventsIn hs ++ h.events := by
  induction hs with
  | nil => rw [List.nil_append, eventsIn, eventsIn, eventsIn, List.append_nil, List.nil_append]
  | cons first hs ih => rw [List.cons_append, eventsIn, ih, eventsIn, List.append_assoc]

end Happening

open Happening in
/-- What has happened in a try of `whole` that began in the second session and has come to the last
one, with the error that closes the account, if one does. Jumps are not told. -/
inductive Account (limit : Nat) :
    Expr → Session → List Happening → Option MatchError → Session → Prop
  | began {whole : Expr} {σ : Session} : Account limit whole σ [] none σ
  | jumped {whole : Expr} {σ τ : Session} {hs : List Happening} {error : Option MatchError}
      {c : Cursor} (before : Account limit whole σ hs error τ) :
      Account limit whole σ hs error (τ.jump c)
  | read {whole : Expr} {σ τ : Session} {hs : List Happening} {c : Cursor}
      (before : Account limit whole σ hs none τ) (reads : whole.reads = true)
      (next : τ.source.cursorAfter τ.current = .ok (some c)) :
      Account limit whole σ (hs ++ [.read c]) none (τ.moveTo c)
  | unreadable {whole : Expr} {σ τ : Session} {hs : List Happening} {error : ScanError}
      (before : Account limit whole σ hs none τ) (reads : whole.reads = true)
      (next : τ.source.cursorAfter τ.current = .error error) :
      Account limit whole σ (hs ++ [.broke (.unreadable error)]) (some (.unreadable error)) τ
  | defective {whole : Expr} {σ τ : Session} {hs : List Happening} {defect : Defect}
      (before : Account limit whole σ hs none τ) (wrong : whole.defect? = some defect) :
      Account limit whole σ (hs ++ [.broke (.defective whole.kind defect)])
        (some (.defective whole.kind defect)) τ
  | called {h : Hook} {σ τ : Session} {hs : List Happening} {visit : Visit}
      (before : Account limit (.hook h) σ hs none τ) (run : h.run τ.scanner = some visit) :
      Account limit (.hook h) σ (hs ++ [.called visit.events]) none
        ⟨visit.scanner, visit.events.reverse ++ τ.log⟩
  | matched {whole e : Expr} {σ τ υ : Session} {hs within : List Happening} {boundary : Cursor}
      (before : Account limit whole σ hs none τ) (member : e ∈ whole.members)
      (inside : Account limit e τ within none υ)
      (ended : e.matcher limit τ = .ok boundary (υ.emit (outcome e τ.current (.ok boundary)))) :
      Account limit whole σ (hs ++ [.tried e τ.current (.ok boundary) within]) none
        (υ.emit (outcome e τ.current (.ok boundary)))
  | failed {whole e : Expr} {σ τ υ : Session} {hs within : List Happening} {error : MatchError}
      (before : Account limit whole σ hs none τ) (member : e ∈ whole.members)
      (inside : Account limit e τ within error.fatal? υ)
      (ended : e.matcher limit τ =
        .error error ((υ.emit (outcome e τ.current (.error error))).jump τ.current)) :
      Account limit whole σ (hs ++ [.tried e τ.current (.error error) within]) error.fatal?
        ((υ.emit (outcome e τ.current (.error error))).jump τ.current)

variable {limit : Nat} {whole : Expr} {σ τ υ : Session}

/-- The log is that of the beginning and, behind it, the events of what has happened. -/
theorem Account.log_eq {hs : List Happening} {error : Option MatchError}
    (account : Account limit whole σ hs error τ) :
    τ.log = (Happening.eventsIn hs).reverse ++ σ.log := by
  induction account with
  | began => rfl
  | jumped _ ih => exact ih
  | read _ _ _ ih => simp [Session.moveTo, ih, Happening.events]
  | unreadable _ _ _ ih => simpa [Happening.events] using ih
  | defective _ _ ih => simpa [Happening.events] using ih
  | called _ _ ih => simp [ih, Happening.events]
  | matched _ _ _ _ ih ihInside => simp [Session.emit, ih, ihInside, Happening.events]
  | failed _ _ _ _ ih ihInside => simp [Session.emit, ih, ihInside, Happening.events]

theorem Account.events_eq {hs : List Happening} {error : Option MatchError}
    (account : Account limit whole σ hs error τ) :
    τ.events = σ.events ++ Happening.eventsIn hs := by
  unfold Session.events
  rw [account.log_eq, List.reverse_append, List.reverse_reverse]

/-- The events of a match that enters and leaves are those of its account, in between. -/
theorem Account.events_left {hs : List Happening} {error : Option MatchError} {count : Nat}
    (account : Account limit whole (σ.emit (.entered count)) hs error τ) :
    (τ.emit .left).events =
      σ.events ++ .entered count :: (Happening.eventsIn hs ++ [.left]) := by
  simp [Session.events, Session.emit, account.log_eq]

/-- What happens after something else is told behind it. -/
theorem Account.trans {hs ks : List Happening} {error : Option MatchError}
    (first : Account limit whole σ hs none τ) (second : Account limit whole τ ks error υ) :
    Account limit whole σ (hs ++ ks) error υ := by
  induction second with
  | began =>
    rw [List.append_nil]
    exact first
  | jumped _ ih => exact (ih first).jumped
  | read _ reads next ih =>
    rw [← List.append_assoc]
    exact (ih first).read reads next
  | unreadable _ reads next ih =>
    rw [← List.append_assoc]
    exact (ih first).unreadable reads next
  | defective _ wrong ih =>
    rw [← List.append_assoc]
    exact (ih first).defective wrong
  | called _ run ih =>
    rw [← List.append_assoc]
    exact (ih first).called run
  | matched _ member inside ended ih =>
    rw [← List.append_assoc]
    exact (ih first).matched member inside ended
  | failed _ member inside ended ih =>
    rw [← List.append_assoc]
    exact (ih first).failed member inside ended

end TextMatch
