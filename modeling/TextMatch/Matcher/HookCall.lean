import TextMatch.Matcher.Outcome

/-!
# Calling hooks

A hook moves the scanner as it likes, so the boundary of its match is found afterwards: the
cursor before the last advance, if that was the last thing to move the scanner; otherwise the
point that ends where the scanner is now, found by reading on from where the hook began.
-/
namespace TextMatch.Matcher

/-- Read on to the point that ends at `target`, or to the first that ends beyond. `none` if the
points end before. -/
def walkTo (target : Nat) (σ : Session) : Option Cursor × Session :=
  if σ.current.next < target then
    match _stepped : σ.source.cursorAfter σ.current with
    | .ok (some c) => if c.isEnd then (none, σ.moveTo c) else walkTo target (σ.moveTo c)
    | _ => (none, σ)
  else (some σ.current, σ)
termination_by σ.source.distance σ.current
decreasing_by exact Source.distance_cursorAfter_lt _stepped

/-- The boundary of a hook that began at `start` and left the scanner as it is in `σ`. -/
def hookBoundary (start : Cursor) (σ : Session) : Cursor × Session :=
  if σ.current = start then (start, σ)
  else
    match σ.scanner.previous with
    | some previous => (previous, σ)
    | none =>
      let (reached, walked) := walkTo σ.current.offset (σ.jump start)
      let boundary :=
        match reached with
        | some c => if c.next = σ.current.offset then c else σ.current
        | none => σ.current
      (boundary, { σ with log := walked.log })

/-- The walk is not made by the scanner itself, only its events are kept. -/
@[simp] theorem scanner_hookBoundary (start : Cursor) (σ : Session) :
    (hookBoundary start σ).2.scanner = σ.scanner := by
  unfold hookBoundary
  split
  · rfl
  · split <;> rfl

def callHook (hook : Hook) : Matcher := fun σ =>
  match hook.run σ.scanner with
  | none => .unfinished
  | some visit =>
    let τ : Session := ⟨visit.scanner, visit.events.reverse ++ σ.log⟩
    if visit.accepted then
      let (boundary, υ) := hookBoundary σ.current τ
      .ok boundary υ
    else .error (.refused hook.name τ.current) τ

end TextMatch.Matcher
