import TextMatch.Expr.Kind

/-!
# Events

The account of a match: what was read, what was tried, and how each try came out, in the order
in which it happened.
-/
namespace TextMatch

inductive Event where
  /-- A scanner was made over a source of `size` bytes. -/
  | created (size : Nat)
  /-- A scanner advanced to the byte `offset`, where `point` is; no point at the end of data. -/
  | advanced (offset : Nat) (point : Option Char)
  /-- A match of `count` expressions began. -/
  | entered (count : Nat)
  /-- The match that began last, of those still going on, ended. -/
  | left
  /-- An expression matched; `offset` is that of its boundary. -/
  | matched (kind : Kind) (offset : Nat)
  /-- An expression failed and the scanner went back to `offset`. The place of the failure is
  known for a mismatch only. -/
  | backtracked (kind : Kind) (offset : Nat) (failedAt : Option Nat) (mismatch : Bool)
  deriving DecidableEq, Repr

end TextMatch
