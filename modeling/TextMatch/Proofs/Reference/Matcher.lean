import TextMatch.Expr.Basic

/-!
# The reference matcher

Matching as a function of a list of characters alone, by recursion on the expression: from the
index where a match begins to the one where it ends. There are no bytes here, no cursor that moves
and nothing to go back to. An expression that can be matched against nothing at all is unsupported,
and so is a match that comes upon one.
-/
namespace TextMatch

inductive Verdict where
  | fail
  | unsupported
  /-- A match that ends before the character at `stop`. -/
  | ok (stop : Nat)
  deriving DecidableEq, Repr

/-- What becomes of a match that begins at an index. -/
abbrev Trial := Nat → Verdict

namespace Reference

def literal (cs : List Char) (text : String) : Trial := fun i =>
  if text = "" then .unsupported
  else if text.toList.isPrefixOf (cs.drop i) then .ok (i + text.length)
  else .fail

def pointIf (cs : List Char) (accepts : Char → Bool) : Trial := fun i =>
  if cs[i]?.any accepts then .ok (i + 1) else .fail

def range (cs : List Char) (first last : Char) : Trial := fun i =>
  if last < first then .unsupported else pointIf cs (fun c => first ≤ c && c ≤ last) i

def seq : List Trial → Trial
  | [], i => .ok i
  | m :: ms, i =>
    match m i with
    | .ok j => seq ms j
    | verdict => verdict

/-- The first that does not fail. -/
def oneOf : List Trial → Trial
  | [], _ => .fail
  | m :: ms, i =>
    match m i with
    | .fail => oneOf ms i
    | verdict => verdict

def noneOf (ms : List Trial) : Trial := fun i =>
  match oneOf ms i with
  | .ok _ => .fail
  | .fail => .ok i
  | .unsupported => .unsupported

def ahead (ms : List Trial) : Trial := fun i =>
  match oneOf ms i with
  | .ok _ => .ok i
  | verdict => verdict

/-- How often `m` succeeds in a row, with where the last success ends; `none` if one of the tries
is unsupported. A success that does not move counts, and ends the run. No expression goes back or
leaves the list, so to move is to go on within it (`Expr.greedy_reference`). -/
def greedy (size : Nat) (m : Trial) (count i : Nat) : Option (Nat × Nat) :=
  match m i with
  | .ok j => if i < j ∧ j ≤ size then greedy size m (count + 1) j else some (count + 1, j)
  | .fail => some (count, i)
  | .unsupported => none
termination_by size - i

/-- The greedy run of `m`, if it takes a number of rounds that `fits`. -/
def repeated (size : Nat) (m : Trial) (fits : Nat → Bool) : Trial := fun i =>
  match greedy size m 0 i with
  | some (count, j) => if fits count then .ok j else .fail
  | none => .unsupported

def between (size : Nat) (m : Trial) (low high : Nat) : Trial := fun i =>
  if high ≠ 0 ∧ high < low then .unsupported
  else repeated size m (fun count => low ≤ count && (high = 0 || count ≤ high)) i

/-- Each in order: where it succeeds exactly once the next begins there, otherwise where it began
itself. -/
def optional (size : Nat) : List Trial → Trial
  | [], i => .ok i
  | m :: ms, i =>
    match greedy size m 0 i with
    | some (count, j) => optional size ms (if count = 1 then j else i)
    | none => .unsupported

/-- The first index from `i` on, the end of the list included, where one of the tries succeeds. -/
def untilAny (size : Nat) (ms : List Trial) (inclusive : Bool) (i : Nat) : Verdict :=
  match oneOf ms i with
  | .ok j => .ok (if inclusive then j else i)
  | .fail => if i < size then untilAny size ms inclusive (i + 1) else .fail
  | .unsupported => .unsupported
termination_by size - i

end Reference

mutual

/-- What becomes of a match of `e` against `cs`. Hooks have no place here, and fail. -/
def Expr.reference (cs : List Char) : Expr → Trial
  | .literal text => Reference.literal cs text
  | .point c => Reference.pointIf cs (· == c)
  | .any => Reference.pointIf cs fun _ => true
  | .noneOf es => Reference.noneOf (Expr.references cs es)
  | .ahead es => Reference.ahead (Expr.references cs es)
  | .oneOf es => Reference.oneOf (Expr.references cs es)
  | .seq es => Reference.seq (Expr.references cs es)
  | .optional es => Reference.optional cs.length (Expr.references cs es)
  | .between low high e => Reference.between cs.length (e.reference cs) low high
  | .atLeast low e => Reference.repeated cs.length (e.reference cs) (low ≤ ·)
  | .exactly times e => Reference.repeated cs.length (e.reference cs) (· == times)
  | .range first last => Reference.range cs first last
  | .untilAny es inclusive => Reference.untilAny cs.length (Expr.references cs es) inclusive
  | .hook _ => fun _ => .fail

def Expr.references (cs : List Char) : List Expr → List Trial
  | [] => []
  | e :: es => e.reference cs :: Expr.references cs es

end

theorem Expr.references_eq_map (cs : List Char) (es : List Expr) :
    Expr.references cs es = es.map (Expr.reference cs) := by
  induction es with
  | nil => rfl
  | cons e es ih => rw [Expr.references, ih, List.map_cons]

end TextMatch
