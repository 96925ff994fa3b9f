import TextMatch.MatchError.Basic
import TextMatch.Proofs.Expr.Induction

/-!
# The parts of an expression

The expressions within an expression, itself included, from all depths; and the expressions that
can be matched against nothing, each with what is wrong with it.
-/
namespace TextMatch.Expr

/-- The expressions directly within an expression. -/
def members : Expr → List Expr
  | .literal _ | .point _ | .any | .range _ _ | .hook _ => []
  | .noneOf es | .ahead es | .oneOf es | .seq es | .optional es | .untilAny es _ => es
  | .between _ _ e | .atLeast _ e | .exactly _ e => [e]

/-- The first expression is the second or lies within it. -/
inductive IsPart : Expr → Expr → Prop
  | self {e : Expr} : IsPart e e
  | member {d e whole : Expr} (part : IsPart d e) (member : e ∈ whole.members) : IsPart d whole

/-- What is wrong with the expression by itself, whatever its members are. -/
def defect? : Expr → Option Defect
  | .literal text => if text = "" then some .emptyLiteral else none
  | .range first last => if last < first then some .reversedRange else none
  | .between low high _ => if high ≠ 0 ∧ high < low then some .lowAboveHigh else none
  | _ => none

theorem hooks_subset_of_mem_members {e whole : Expr} (member : e ∈ whole.members) :
    e.hooks ⊆ whole.hooks := by
  cases whole with
  | literal | point | any | range | hook => cases member
  | noneOf es | ahead es | oneOf es | seq es | optional es | untilAny es _ =>
    exact hooks_subset_hooksIn member
  | between _ _ d | atLeast _ d | exactly _ d =>
    cases List.mem_singleton.mp member
    exact List.Subset.refl _

theorem hooks_eq_nil_of_mem_members {e whole : Expr} (free : whole.hooks = [])
    (member : e ∈ whole.members) : e.hooks = [] :=
  List.subset_nil.mp (free ▸ hooks_subset_of_mem_members member)

theorem hooks_subset_of_isPart {d whole : Expr} (part : d.IsPart whole) :
    d.hooks ⊆ whole.hooks := by
  induction part with
  | self => exact List.Subset.refl _
  | member _ member ih => exact List.Subset.trans ih (hooks_subset_of_mem_members member)

end TextMatch.Expr
