import TextMatch.Matcher.Basic

/-!
# Matchers that loop

Repetition is one greedy run: a matcher is tried again and again, until it fails or succeeds
without moving, and only then is the number of successes compared with the bounds. Nothing is
ever given back. Each loop has a `limit` on its rounds, and is `unfinished` beyond it.
-/
namespace TextMatch.Matcher

/-- The greedy run of `m`: how often it succeeded, and the boundary of the last success. A
success that leaves the cursor where it was counts, and ends the run. -/
def greedyRun (m : Matcher) : Nat → Nat → Cursor → Session → Outcome (Nat × Cursor)
  | 0, _, _, _ => .unfinished
  | limit + 1, count, last, σ =>
    match m σ with
    | .ok boundary τ =>
      if τ.current = σ.current then .ok (count + 1, boundary) τ
      else greedyRun m limit (count + 1) boundary τ
    | .error e τ => if e.isMismatch then .ok (count, last) τ else .error e τ
    | .unfinished => .unfinished

/-- The greedy run of `m`, which is a failure of `expr` unless it took from `low` to `high`
rounds. -/
def bounded (limit : Nat) (expr : Expr) (m : Matcher) (low : Nat) (high : Option Nat)
    (σ : Session) : Outcome (Nat × Cursor) :=
  ((greedyRun m limit 0 σ.current σ).andThen fun run τ =>
    if low ≤ run.1 && high.all (run.1 ≤ ·) then .ok run τ
    else .error (.unmet expr τ.current) τ).rewinding σ.current

def repeated (limit : Nat) (expr : Expr) (m : Matcher) (low : Nat) (high : Option Nat) :
    Matcher := fun σ =>
  (bounded limit expr m low high σ).andThen fun run τ => .ok run.2 τ

/-- Bounds as `Expr.between` has them, where no upper bound is written as zero. -/
def between (limit : Nat) (expr : Expr) (m : Matcher) (low high : Nat) : Matcher := fun σ =>
  if high ≠ 0 ∧ high < low then .error (.defective .between .lowAboveHigh) σ
  else repeated limit expr m low (if high = 0 then none else some high) σ

/-- Each matcher once or not at all; `last` is the boundary so far. One that succeeds more than
once in its greedy run is left out, like one that fails. -/
def optionalFrom (limit : Nat) (expr : Expr) : List Matcher → Cursor → Matcher
  | [], last, σ => .ok last σ
  | m :: ms, last, σ =>
    match bounded limit expr m 0 (some 1) σ with
    | .ok (0, _) τ => optionalFrom limit expr ms last τ
    | .ok (_, boundary) τ => optionalFrom limit expr ms boundary τ
    | .error e τ => if e.isMismatch then optionalFrom limit expr ms last τ else .error e τ
    | .unfinished => .unfinished

def optional (limit : Nat) (expr : Expr) (ms : List Matcher) : Matcher := fun σ =>
  optionalFrom limit expr ms σ.current σ

/-- Search on from the current point, the end of data included; `last` is the boundary so
far. -/
def untilFrom (expr : Expr) (ms : List Matcher) (inclusive : Bool) : Nat → Cursor → Matcher
  | 0, _, _ => .unfinished
  | limit + 1, last, σ =>
    match firstOf ms σ with
    | .ok (some boundary) τ => if inclusive then .ok boundary τ else .ok last (τ.jump σ.current)
    | .ok none τ =>
      if σ.current.isEnd then .error (.unmet expr σ.current) τ
      else (consume τ).andThen fun _ υ => untilFrom expr ms inclusive limit σ.current υ
    | .error e τ => .error e τ
    | .unfinished => .unfinished

def untilAny (limit : Nat) (expr : Expr) (ms : List Matcher) (inclusive : Bool) : Matcher :=
  fun σ => untilFrom expr ms inclusive limit σ.current σ

end TextMatch.Matcher
