import TextMatch.Matcher.HookCall
import TextMatch.Matcher.Loop

/-!
# Matching expressions

The matcher of an expression, and matching a list of expressions in order. Every try of an
expression, at any depth, ends with an event that says how it came out, and goes back to where
it began if it failed.
-/
namespace TextMatch

/-- A try of an expression of `kind`, which is matched by `m`. -/
def Matcher.attempt (kind : Kind) (m : Matcher) : Matcher := fun σ =>
  match m σ with
  | .ok boundary τ => .ok boundary (τ.emit (.matched kind boundary.offset))
  | .error e τ =>
    let outcome := .backtracked kind σ.current.offset (e.cursor?.map Cursor.offset) e.isMismatch
    .error e ((τ.emit outcome).jump σ.current)
  | .unfinished => .unfinished

mutual

/-- How `e` is matched, with at most `limit` rounds in each of its loops. -/
def Expr.matcher (limit : Nat) : Expr → Matcher
  | .literal text => .attempt .literal (.literal text)
  | .point c => .attempt .point (.pointIf (.point c) (· == c))
  | .any => .attempt .any (.pointIf .any fun _ => true)
  | .noneOf es => .attempt .noneOf (.noneOf (.noneOf es) (Expr.matchers limit es))
  | .ahead es => .attempt .ahead (.ahead (.ahead es) (Expr.matchers limit es))
  | .oneOf es => .attempt .oneOf (.oneOf (.oneOf es) (Expr.matchers limit es))
  | .seq es => .attempt .seq (.seq (Expr.matchers limit es))
  | .optional es => .attempt .optional (.optional limit (.optional es) (Expr.matchers limit es))
  | .between low high e =>
    .attempt .between (.between limit (.between low high e) (e.matcher limit) low high)
  | .atLeast low e =>
    .attempt .atLeast (.repeated limit (.atLeast low e) (e.matcher limit) low none)
  | .exactly times e =>
    .attempt .exactly (.repeated limit (.exactly times e) (e.matcher limit) times (some times))
  | .range first last => .attempt .range (.range first last)
  | .untilAny es inclusive =>
    .attempt .untilAny
      (.untilAny limit (.untilAny es inclusive) (Expr.matchers limit es) inclusive)
  | .hook h => .attempt .hook (.callHook h)

def Expr.matchers (limit : Nat) : List Expr → List Matcher
  | [] => []
  | e :: es => e.matcher limit :: Expr.matchers limit es

end

theorem Expr.matchers_eq_map (limit : Nat) (es : List Expr) :
    Expr.matchers limit es = es.map (Expr.matcher limit) := by
  induction es with
  | nil => rfl
  | cons e es ih => rw [Expr.matchers, ih, List.map_cons]

/-- One expression is tried by itself; any other number is a sequence. -/
def Expr.listMatcher (limit : Nat) : List Expr → Matcher
  | [e] => e.matcher limit
  | es => fun σ => (Matcher.seq (Expr.matchers limit es) σ).rewinding σ.current

namespace Session

/-- Match `es` in order, with at most `limit` rounds in each loop. -/
def expectWithin (limit : Nat) (es : List Expr) (σ : Session) : Outcome Cursor :=
  match Expr.listMatcher limit es (σ.emit (.entered es.length)) with
  | .ok boundary τ => .ok boundary (τ.emit .left)
  | .error e τ => .error e (τ.emit .left)
  | .unfinished => .unfinished

/-- The rounds that a loop is given: more than the source has points, which is enough where no
member goes back, and more than a count of 32 bits can tell apart. Only a hook that goes back can
keep a loop going for longer, and such a match is given up. -/
def roundLimit (source : Source) : Nat := source.size + UInt32.size

/-- Match `es` in order. A failure leaves the scanner at its cursor of before. -/
def expect (es : List Expr) (σ : Session) : Outcome Cursor :=
  σ.expectWithin (roundLimit σ.source) es

end Session

/-- What a finished match leaves. -/
structure Match where
  result : Except MatchError Cursor
  scanner : Scanner
  /-- Earliest first. -/
  events : List Event

/-- Match `es` in order; `none` if that does not come to an end. -/
def Scanner.expect (s : Scanner) (es : List Expr) : Option Match :=
  match Session.expect es ⟨s, []⟩ with
  | .ok boundary σ => some ⟨.ok boundary, σ.scanner, σ.events⟩
  | .error e σ => some ⟨.error e, σ.scanner, σ.events⟩
  | .unfinished => none

end TextMatch
