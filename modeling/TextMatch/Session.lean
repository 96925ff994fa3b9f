import TextMatch.Event
import TextMatch.Scanner.Basic

/-!
# Sessions

A scanner at work, together with the events of its work so far. Reading is logged; looking,
jumping and bookmarks are not.
-/
namespace TextMatch

structure Session where
  scanner : Scanner
  /-- Latest first. -/
  log : List Event
  deriving DecidableEq

namespace Session

def ofSource (source : Source) : Except ScanError Session :=
  match Scanner.ofSource source with
  | .error e => .error e
  | .ok scanner => .ok ⟨scanner, [.created source.size]⟩

/-- Earliest first. -/
def events (σ : Session) : List Event := σ.log.reverse

def source (σ : Session) : Source := σ.scanner.source

def current (σ : Session) : Cursor := σ.scanner.current

def emit (σ : Session) (event : Event) : Session := { σ with log := event :: σ.log }

/-- One logged step to `c`. -/
def moveTo (σ : Session) (c : Cursor) : Session :=
  ⟨σ.scanner.moveTo c, .advanced c.offset c.point :: σ.log⟩

def jump (σ : Session) (c : Cursor) : Session := { σ with scanner := σ.scanner.jump c }

def setBookmark (σ : Session) : Session := { σ with scanner := σ.scanner.setBookmark }

def returnToBookmark (σ : Session) : Bool × Session :=
  let (jumped, scanner) := σ.scanner.returnToBookmark
  (jumped, { σ with scanner := scanner })

def advance (σ : Session) : Except ScanError Unit × Session :=
  match σ.source.cursorAfter σ.current with
  | .error e => (.error e, σ)
  | .ok none => (.ok (), σ)
  | .ok (some c) => (.ok (), σ.moveTo c)

def advanceBy : Nat → Session → Except ScanError Unit × Session
  | 0, σ => (.ok (), σ)
  | n + 1, σ =>
    match σ.source.cursorAfter σ.current with
    | .error e => (.error e, σ)
    | .ok none => (.ok (), σ)
    | .ok (some c) => advanceBy n (σ.moveTo c)

@[simp] theorem current_jump (σ : Session) (c : Cursor) : (σ.jump c).current = c := rfl

@[simp] theorem source_jump (σ : Session) (c : Cursor) : (σ.jump c).source = σ.source := rfl

@[simp] theorem log_jump (σ : Session) (c : Cursor) : (σ.jump c).log = σ.log := rfl

@[simp] theorem scanner_emit (σ : Session) (event : Event) : (σ.emit event).scanner = σ.scanner :=
  rfl

@[simp] theorem current_emit (σ : Session) (event : Event) : (σ.emit event).current = σ.current :=
  rfl

@[simp] theorem source_emit (σ : Session) (event : Event) : (σ.emit event).source = σ.source := rfl

@[simp] theorem current_moveTo (σ : Session) (c : Cursor) : (σ.moveTo c).current = c := rfl

@[simp] theorem source_moveTo (σ : Session) (c : Cursor) : (σ.moveTo c).source = σ.source := rfl

/-- The log takes no part in reading. -/
theorem scanner_advanceBy (n : Nat) (σ : Session) :
    ((σ.advanceBy n).1, (σ.advanceBy n).2.scanner) = σ.scanner.advanceBy n := by
  induction n generalizing σ with
  | zero => rfl
  | succ n ih =>
    unfold advanceBy Scanner.advanceBy source current
    cases σ.scanner.source.cursorAfter σ.scanner.current with
    | error e => rfl
    | ok next =>
      cases next with
      | none => rfl
      | some c => exact ih (σ.moveTo c)

end Session
end TextMatch
