import TextMatch.MatchError.Basic

/-!
# Readers

Matching without a scanner. A reader takes the points that are left and gives back those left
after it, so there is nothing to go back to and nothing to restore; it has one definition for each
matcher, and needs no limit on the rounds of a loop. Whether the bytes behind the last point are
malformed is all that it knows of the source (`whole`), for then that point cannot be consumed.

Hooks are not read. In place of a boundary a reader gives the point that comes before the ones
left, if the part of the match that ended it consumed one: a part that succeeds without consuming
leaves no trace of the points consumed before it.
-/
namespace TextMatch

/-- Why a reader fails, with the points left where it does. -/
inductive Failure where
  | unmet (expr : Expr) (rest : List Char)
  | defective (kind : Kind) (defect : Defect)
  | unreadable

/-- Whether the next alternative is tried. -/
def Failure.isMismatch : Failure → Bool
  | .unmet _ _ => true
  | .defective _ _ => false
  | .unreadable => false

inductive Reading (α : Type) where
  | ok (value : α) (rest : List Char)
  | error (failure : Failure)

def Reading.andThen {α β : Type} (r : Reading α) (next : α → List Char → Reading β) : Reading β :=
  match r with
  | .ok value rest => next value rest
  | .error f => .error f

/-- A success gives the point that the last part of it consumed. -/
abbrev Reader := List Char → Reading (Option Char)

namespace Reader

/-- At the end of data nothing is consumed. -/
def consume (whole : Bool) : Reader
  | [] => .ok none []
  | c :: rest => if rest = [] ∧ whole = false then .error .unreadable else .ok (some c) rest

def pointIf (whole : Bool) (expr : Expr) (accepts : Char → Bool) : Reader := fun rest =>
  if rest.head?.any accepts then consume whole rest else .error (.unmet expr rest)

def points (whole : Bool) (expr : Expr) : List Char → Option Char → Reader
  | [], last, rest => .ok last rest
  | c :: cs, _, rest => (pointIf whole expr (· == c) rest).andThen fun last rest =>
    points whole expr cs last rest

def literal (whole : Bool) (text : String) : Reader := fun rest =>
  if text = "" then .error (.defective .literal .emptyLiteral)
  else points whole (.literal text) text.toList none rest

def range (whole : Bool) (first last : Char) : Reader := fun rest =>
  if last < first then .error (.defective .range .reversedRange)
  else pointIf whole (.range first last) (fun c => first ≤ c && c ≤ last) rest

def seqFrom : List Reader → Option Char → Reader
  | [], last, rest => .ok last rest
  | r :: rs, _, rest => (r rest).andThen fun last rest => seqFrom rs last rest

def seq (rs : List Reader) : Reader := fun rest => seqFrom rs none rest

/-- What the first reader to succeed gives, or `none`. -/
def firstOf : List Reader → List Char → Reading (Option (Option Char))
  | [], rest => .ok none rest
  | r :: rs, rest =>
    match r rest with
    | .ok last stop => .ok (some last) stop
    | .error f => if f.isMismatch then firstOf rs rest else .error f

def oneOf (expr : Expr) (rs : List Reader) : Reader := fun rest =>
  (firstOf rs rest).andThen fun found stop =>
    match found with
    | some last => .ok last stop
    | none => .error (.unmet expr rest)

def anyHolds (rs : List Reader) (rest : List Char) : Reading Bool :=
  (firstOf rs rest).andThen fun found _ => .ok found.isSome rest

def noneOf (expr : Expr) (rs : List Reader) : Reader := fun rest =>
  (anyHolds rs rest).andThen fun holds _ =>
    if holds then .error (.unmet expr rest) else .ok none rest

def ahead (expr : Expr) (rs : List Reader) : Reader := fun rest =>
  (anyHolds rs rest).andThen fun holds _ =>
    if holds then .ok none rest else .error (.unmet expr rest)

/-- How often `r` succeeds in a row, up to a success that leaves no fewer points. -/
def greedyRun (r : Reader) (count : Nat) (last : Option Char) (rest : List Char) :
    Reading (Nat × Option Char) :=
  match r rest with
  | .ok tail stop =>
    if stop.length < rest.length then greedyRun r (count + 1) tail stop
    else .ok (count + 1, tail) stop
  | .error f => if f.isMismatch then .ok (count, last) rest else .error f
termination_by rest.length

def bounded (expr : Expr) (r : Reader) (low : Nat) (high : Option Nat) (rest : List Char) :
    Reading (Nat × Option Char) :=
  (greedyRun r 0 none rest).andThen fun run stop =>
    if low ≤ run.1 && high.all (run.1 ≤ ·) then .ok run stop else .error (.unmet expr stop)

def repeated (expr : Expr) (r : Reader) (low : Nat) (high : Option Nat) : Reader := fun rest =>
  (bounded expr r low high rest).andThen fun run stop => .ok run.2 stop

def between (expr : Expr) (r : Reader) (low high : Nat) : Reader := fun rest =>
  if high ≠ 0 ∧ high < low then .error (.defective .between .lowAboveHigh)
  else repeated expr r low (if high = 0 then none else some high) rest

def optionalFrom (expr : Expr) : List Reader → Option Char → Reader
  | [], last, rest => .ok last rest
  | r :: rs, last, rest =>
    match bounded expr r 0 (some 1) rest with
    | .ok (0, _) _ => optionalFrom expr rs last rest
    | .ok (_, tail) stop => optionalFrom expr rs tail stop
    | .error f => if f.isMismatch then optionalFrom expr rs last rest else .error f

def optional (expr : Expr) (rs : List Reader) : Reader := fun rest => optionalFrom expr rs none rest

def untilFrom (whole : Bool) (expr : Expr) (rs : List Reader) (inclusive : Bool)
    (last : Option Char) (rest : List Char) : Reading (Option Char) :=
  match firstOf rs rest with
  | .ok (some tail) stop => if inclusive then .ok tail stop else .ok last rest
  | .ok none _ =>
    match rest with
    | [] => .error (.unmet expr [])
    | c :: after =>
      if after = [] ∧ whole = false then .error .unreadable
      else untilFrom whole expr rs inclusive (some c) after
  | .error f => .error f
termination_by structural rest

def untilAny (whole : Bool) (expr : Expr) (rs : List Reader) (inclusive : Bool) : Reader :=
  fun rest => untilFrom whole expr rs inclusive none rest

/-! What a round of the search comes to, by what it finds. -/

section Search

variable {whole inclusive : Bool} {expr : Expr} {rs : List Reader} {last tail : Option Char}
  {c : Char} {rest stop : List Char}

theorem untilFrom_of_found (found : firstOf rs rest = .ok (some tail) stop) :
    untilFrom whole expr rs inclusive last rest =
      if inclusive then .ok tail stop else .ok last rest := by
  rw [untilFrom.eq_def, found]

theorem untilFrom_of_error {f : Failure} (failed : firstOf rs rest = .error f) :
    untilFrom whole expr rs inclusive last rest = .error f := by
  rw [untilFrom.eq_def, failed]

theorem untilFrom_nil (nowhere : firstOf rs [] = .ok none stop) :
    untilFrom whole expr rs inclusive last [] = .error (.unmet expr []) := by
  rw [untilFrom.eq_def, nowhere]

theorem untilFrom_cons (nowhere : firstOf rs (c :: rest) = .ok none stop) :
    untilFrom whole expr rs inclusive last (c :: rest) =
      if rest = [] ∧ whole = false then .error .unreadable
      else untilFrom whole expr rs inclusive (some c) rest := by
  rw [untilFrom.eq_def, nowhere]

end Search

end Reader

mutual

/-- How `e` is read. A hook is not, and counts as one that never accepts. -/
def Expr.reader (whole : Bool) : Expr → Reader
  | .literal text => .literal whole text
  | .point c => .pointIf whole (.point c) (· == c)
  | .any => .pointIf whole .any fun _ => true
  | .noneOf es => .noneOf (.noneOf es) (Expr.readers whole es)
  | .ahead es => .ahead (.ahead es) (Expr.readers whole es)
  | .oneOf es => .oneOf (.oneOf es) (Expr.readers whole es)
  | .seq es => .seq (Expr.readers whole es)
  | .optional es => .optional (.optional es) (Expr.readers whole es)
  | .between low high e => .between (.between low high e) (e.reader whole) low high
  | .atLeast low e => .repeated (.atLeast low e) (e.reader whole) low none
  | .exactly times e => .repeated (.exactly times e) (e.reader whole) times (some times)
  | .range first last => .range whole first last
  | .untilAny es inclusive =>
    .untilAny whole (.untilAny es inclusive) (Expr.readers whole es) inclusive
  | .hook h => fun rest => .error (.unmet (.hook h) rest)

def Expr.readers (whole : Bool) : List Expr → List Reader
  | [] => []
  | e :: es => e.reader whole :: Expr.readers whole es

end

theorem Expr.readers_eq_map (whole : Bool) (es : List Expr) :
    Expr.readers whole es = es.map (Expr.reader whole) := by
  induction es with
  | nil => rfl
  | cons e es ih => rw [Expr.readers, ih, List.map_cons]

/-- How a list of expressions is read. -/
def Expr.listReader (whole : Bool) (es : List Expr) : Reader := .seq (Expr.readers whole es)

theorem Expr.listReader_singleton (whole : Bool) (e : Expr) (rest : List Char) :
    Expr.listReader whole [e] rest = e.reader whole rest := by
  have alone : Expr.listReader whole [e] rest =
      (e.reader whole rest).andThen fun last stop => .ok last stop := rfl
  rw [alone]
  cases e.reader whole rest <;> rfl

end TextMatch
