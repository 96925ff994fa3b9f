import TextMatch.Expr.Kind
import TextMatch.Hook

/-!
# Expressions

What can be matched. An expression is a plain value that knows no source; it is put together
once and matched against any number of them.
-/
namespace TextMatch

inductive Expr where
  /-- The points of `text`, in order. -/
  | literal (text : String)
  | point (c : Char)
  /-- Any point; the end of data is none. -/
  | any
  /-- Nothing, where no member matches. -/
  | noneOf (members : List Expr)
  /-- Nothing, where some member matches. -/
  | ahead (members : List Expr)
  /-- The first member that matches. -/
  | oneOf (members : List Expr)
  | seq (members : List Expr)
  /-- Each member once or not at all, in order. -/
  | optional (members : List Expr)
  /-- As often as it goes, which has to be from `low` to `high` times; no upper bound if `high`
  is zero. -/
  | between (low high : Nat) (inner : Expr)
  | atLeast (low : Nat) (inner : Expr)
  | exactly (times : Nat) (inner : Expr)
  | range (first last : Char)
  /-- Everything before the first place where a member matches, or through that match. -/
  | untilAny (members : List Expr) (inclusive : Bool)
  | hook (hook : Hook)

def Expr.kind : Expr → Kind
  | .literal _ => .literal
  | .point _ => .point
  | .any => .any
  | .noneOf _ => .noneOf
  | .ahead _ => .ahead
  | .oneOf _ => .oneOf
  | .seq _ => .seq
  | .optional _ => .optional
  | .between .. => .between
  | .atLeast .. => .atLeast
  | .exactly .. => .exactly
  | .range .. => .range
  | .untilAny .. => .untilAny
  | .hook _ => .hook

end TextMatch
