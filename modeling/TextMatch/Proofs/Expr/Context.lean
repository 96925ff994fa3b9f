import TextMatch.Proofs.Expr.Induction

/-!
# Expressions with a hole

A context is an expression in which one member, at some depth and between any others, is left open.
It is filled with an expression, and what is beside the hole stays as it is.
-/
namespace TextMatch.Expr

inductive Context where
  | hole
  | noneOf (before : List Expr) (inner : Context) (after : List Expr)
  | ahead (before : List Expr) (inner : Context) (after : List Expr)
  | oneOf (before : List Expr) (inner : Context) (after : List Expr)
  | seq (before : List Expr) (inner : Context) (after : List Expr)
  | optional (before : List Expr) (inner : Context) (after : List Expr)
  | between (low high : Nat) (inner : Context)
  | atLeast (low : Nat) (inner : Context)
  | exactly (times : Nat) (inner : Context)
  | untilAny (before : List Expr) (inner : Context) (after : List Expr) (inclusive : Bool)

namespace Context

/-- The context with `e` in its hole. -/
def fill (e : Expr) : Context → Expr
  | .hole => e
  | .noneOf before inner after => .noneOf (before ++ inner.fill e :: after)
  | .ahead before inner after => .ahead (before ++ inner.fill e :: after)
  | .oneOf before inner after => .oneOf (before ++ inner.fill e :: after)
  | .seq before inner after => .seq (before ++ inner.fill e :: after)
  | .optional before inner after => .optional (before ++ inner.fill e :: after)
  | .between low high inner => .between low high (inner.fill e)
  | .atLeast low inner => .atLeast low (inner.fill e)
  | .exactly times inner => .exactly times (inner.fill e)
  | .untilAny before inner after inclusive => .untilAny (before ++ inner.fill e :: after) inclusive

/-- The hooks beside the hole. -/
def hooks : Context → List Hook
  | .hole => []
  | .noneOf before inner after | .ahead before inner after | .oneOf before inner after
  | .seq before inner after | .optional before inner after | .untilAny before inner after _ =>
    hooksIn before ++ (inner.hooks ++ hooksIn after)
  | .between _ _ inner | .atLeast _ inner | .exactly _ inner => inner.hooks

end Context

theorem hooksIn_append (es ds : List Expr) : hooksIn (es ++ ds) = hooksIn es ++ hooksIn ds := by
  induction es with
  | nil => rfl
  | cons e es ih => rw [List.cons_append, hooksIn, hooksIn, ih, List.append_assoc]

theorem hooksIn_around {before after : List Expr} {e : Expr} (free : e.hooks = []) :
    hooksIn (before ++ e :: after) = hooksIn before ++ hooksIn after := by
  rw [hooksIn_append, hooksIn, free, List.nil_append]

/-- Filling the hole with an expression without hooks adds none. -/
theorem Context.hooks_fill {e : Expr} (free : e.hooks = []) (context : Context)
    (beside : context.hooks = []) : (context.fill e).hooks = [] := by
  induction context with
  | hole => exact free
  | noneOf before inner after ih | ahead before inner after ih | oneOf before inner after ih
  | seq before inner after ih | optional before inner after ih
  | untilAny before inner after inclusive ih =>
    simp only [hooks, List.append_eq_nil_iff] at beside
    obtain ⟨front, inside, back⟩ := beside
    rw [fill, Expr.hooks, hooksIn_around (ih inside), front, back, List.append_nil]
  | between low high inner ih => exact ih beside
  | atLeast low inner ih => exact ih beside
  | exactly times inner ih => exact ih beside

end TextMatch.Expr
