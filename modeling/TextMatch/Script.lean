import TextMatch.Expr.Matching

/-!
# Scripts

Hooks put together from steps. The steps run in order on the live scanner, and the first one
that fails ends the script. Steps that read from a scanner of their own leave the live one as it
is until they jump; what they read is an event all the same.
-/
namespace TextMatch

inductive Step where
  /-- Advance `n` times; fails if one of them does. -/
  | advance (n : Nat)
  /-- The same, without failing. -/
  | tryAdvance (n : Nat)
  /-- Jump to the cursor `n` points ahead. -/
  | skip (n : Nat)
  /-- Jump to the cursor `n` points after the first one. -/
  | goTo (n : Nat)
  /-- Jump to the cursor `n` points after the first one of another source. -/
  | goToForeign (source : Source) (n : Nat)
  /-- Jump to where the script began. -/
  | goBack
  | setBookmark
  /-- Fails if there is no bookmark. -/
  | returnToBookmark
  | expect (es : List Expr)
  | tryExpect (es : List Expr)
  | isAt (c : Char)
  /-- Advance as long as the point is from `first` to `last`. -/
  | advanceWhile (first last : Char)
  | atEnd
  | fail

abbrev Script := List Step

namespace Session

/-- Jump to the cursor that `scout` reaches in `n` steps, and take over what it logs. -/
def jumpAfter (σ : Session) (n : Nat) (scout : Session) : Bool × Session :=
  match scout.advanceBy n with
  | (.ok (), reached) => (true, { σ.jump reached.current with log := reached.log })
  | (.error _, reached) => (false, { σ with log := reached.log })

/-- Jump to the cursor `n` points after the first one of `source`. -/
def jumpInto (σ : Session) (source : Source) (n : Nat) : Bool × Session :=
  match Scanner.ofSource source with
  | .error _ => (false, σ)
  | .ok fresh => σ.jumpAfter n ⟨fresh, .created source.size :: σ.log⟩

/-- Advance while the point is from `first` to `last`; `false` if that fails. -/
def advanceWhile (first last : Char) (σ : Session) : Bool × Session :=
  match σ.current.point with
  | none => (true, σ)
  | some c =>
    if first ≤ c && c ≤ last then
      match _stepped : σ.source.cursorAfter σ.current with
      | .ok (some next) => advanceWhile first last (σ.moveTo next)
      | .ok none => (true, σ)
      | .error _ => (false, σ)
    else (true, σ)
termination_by σ.source.distance σ.current
decreasing_by exact Source.distance_cursorAfter_lt _stepped

end Session

/-- One step of a script that began at `start`: whether it went well, and the session after. -/
def Step.run (start : Cursor) (σ : Session) : Step → Option (Bool × Session)
  | .advance n => let (result, τ) := σ.advanceBy n; some (result.isOk, τ)
  | .tryAdvance n => some (true, (σ.advanceBy n).2)
  | .skip n => some (σ.jumpAfter n σ)
  | .goTo n => some (σ.jumpInto σ.source n)
  | .goToForeign source n => some (σ.jumpInto source n)
  | .goBack => some (true, σ.jump start)
  | .setBookmark => some (true, σ.setBookmark)
  | .returnToBookmark => some σ.returnToBookmark
  | .expect es =>
    match σ.expect es with
    | .ok _ τ => some (true, τ)
    | .error _ τ => some (false, τ)
    | .unfinished => none
  | .tryExpect es =>
    match σ.expect es with
    | .ok _ τ => some (true, τ)
    | .error _ τ => some (true, τ)
    | .unfinished => none
  | .isAt c => some (σ.current.isAt c, σ)
  | .advanceWhile first last => some (σ.advanceWhile first last)
  | .atEnd => some (σ.scanner.atEnd, σ)
  | .fail => some (false, σ)

/-- The steps of `script` in order, up to the first that fails. -/
def Script.run (start : Cursor) (script : Script) (σ : Session) : Option (Bool × Session) :=
  match script with
  | [] => some (true, σ)
  | step :: rest =>
    match step.run start σ with
    | some (true, τ) => Script.run start rest τ
    | some (false, τ) => some (false, τ)
    | none => none

/-- The hook called `name` that runs `script`. -/
def Script.toHook (script : Script) (name : String) : Hook where
  name := name
  run scanner :=
    match script.run scanner.current ⟨scanner, []⟩ with
    | some (accepted, σ) => some ⟨accepted, σ.scanner, σ.events⟩
    | none => none

end TextMatch
