import TextMatch.Matcher.Outcome

/-!
# Matchers for points, sequences and choices

The matchers that try each of their parts once. The parts are matchers themselves; each of them
is expected to go back to where it began when it fails.
-/
namespace TextMatch.Matcher

/-- Accept the current point, whatever it is. -/
def consume (σ : Session) : Outcome Unit :=
  match σ.advance with
  | (.ok (), τ) => .ok () τ
  | (.error e, τ) => .error (.unreadable e) τ

/-- Consume the current point if it is one that `accepts`. -/
def pointIf (expr : Expr) (accepts : Char → Bool) : Matcher := fun σ =>
  if σ.current.point.any accepts then (consume σ).andThen fun _ τ => .ok σ.current τ
  else .error (.unmet expr σ.current) σ

/-- Consume `cs`, one point after the other; `last` is the boundary so far. -/
def points (expr : Expr) : List Char → Cursor → Matcher
  | [], last, σ => .ok last σ
  | c :: cs, _, σ => (pointIf expr (· == c) σ).andThen fun boundary τ => points expr cs boundary τ

def literal (text : String) : Matcher := fun σ =>
  if text = "" then .error (.defective .literal .emptyLiteral) σ
  else points (.literal text) text.toList σ.current σ

def range (first last : Char) : Matcher := fun σ =>
  if last < first then .error (.defective .range .reversedRange) σ
  else pointIf (.range first last) (fun c => first ≤ c && c ≤ last) σ

/-- All the matchers, each from where the one before it stopped; `last` is the boundary so
far. -/
def seqFrom : List Matcher → Cursor → Matcher
  | [], last, σ => .ok last σ
  | m :: ms, _, σ => (m σ).andThen fun boundary τ => seqFrom ms boundary τ

def seq (ms : List Matcher) : Matcher := fun σ => seqFrom ms σ.current σ

/-- The boundary of the first matcher to succeed, or `none` if the input is no match for any.
Any other error ends the search. -/
def firstOf : List Matcher → Session → Outcome (Option Cursor)
  | [], σ => .ok none σ
  | m :: ms, σ =>
    match m σ with
    | .ok boundary τ => .ok (some boundary) τ
    | .error e τ => if e.isMismatch then firstOf ms τ else .error e τ
    | .unfinished => .unfinished

def oneOf (expr : Expr) (ms : List Matcher) : Matcher := fun σ =>
  (firstOf ms σ).andThen fun found τ =>
    match found with
    | some boundary => .ok boundary τ
    | none => .error (.unmet expr σ.current) τ

/-- Whether some matcher succeeds here. Nothing is consumed. -/
def anyHolds (ms : List Matcher) (σ : Session) : Outcome Bool :=
  (firstOf ms σ).andThen fun found τ =>
    match found with
    | some _ => .ok true (τ.jump σ.current)
    | none => .ok false τ

def noneOf (expr : Expr) (ms : List Matcher) : Matcher := fun σ =>
  (anyHolds ms σ).andThen fun holds τ =>
    if holds then .error (.unmet expr σ.current) τ else .ok σ.current τ

def ahead (expr : Expr) (ms : List Matcher) : Matcher := fun σ =>
  (anyHolds ms σ).andThen fun holds τ =>
    if holds then .ok σ.current τ else .error (.unmet expr σ.current) τ

end TextMatch.Matcher
