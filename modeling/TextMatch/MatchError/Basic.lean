import TextMatch.Expr.Printer

/-!
# Match errors

Why a match failed. In a mismatch the input is not what an expression asks for at some place;
wherever there is an alternative, matching goes on with it. The other errors lie with the
expression or with the bytes, and end the whole match.
-/
namespace TextMatch

/-- What is wrong with an expression that cannot be matched against anything. -/
inductive Defect where
  | emptyLiteral | reversedRange | lowAboveHigh
  | other (reason : String)
  deriving DecidableEq, Repr

def Defect.reason : Defect → String
  | .emptyLiteral => "empty literal"
  | .reversedRange => "range start is after range end"
  | .lowAboveHigh => "min is greater than max"
  | .other reason => reason

inductive MatchError where
  /-- The input at `cursor` is not what `expr` asks for. -/
  | unmet (expr : Expr) (cursor : Cursor)
  /-- A hook did not accept, and had got to `cursor`. -/
  | refused (name : String) (cursor : Cursor)
  | defective (kind : Kind) (defect : Defect)
  | unreadable (error : ScanError)

namespace MatchError

/-- Where matching stopped, for a mismatch. -/
def cursor? : MatchError → Option Cursor
  | .unmet _ cursor => some cursor
  | .refused _ cursor => some cursor
  | .defective _ _ => none
  | .unreadable _ => none

/-- Whether the input is to blame, and another alternative may be tried. -/
def isMismatch : MatchError → Bool
  | .unmet _ _ => true
  | .refused _ _ => true
  | .defective _ _ => false
  | .unreadable _ => false

end MatchError
end TextMatch
