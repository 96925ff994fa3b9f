import TextMatch.Expr.Basic

/-!
# Induction over expressions

Expressions hold lists of expressions. The induction principle gives the property of every member
of such a list at once, and `hooks` collects the hooks of an expression from all depths.
-/
namespace TextMatch.Expr

theorem induction {P : Expr → Prop} (literal : ∀ text, P (.literal text))
    (point : ∀ c, P (.point c)) (any : P .any)
    (noneOf : ∀ es, (∀ e ∈ es, P e) → P (.noneOf es))
    (ahead : ∀ es, (∀ e ∈ es, P e) → P (.ahead es))
    (oneOf : ∀ es, (∀ e ∈ es, P e) → P (.oneOf es))
    (seq : ∀ es, (∀ e ∈ es, P e) → P (.seq es))
    (optional : ∀ es, (∀ e ∈ es, P e) → P (.optional es))
    (between : ∀ low high e, P e → P (.between low high e))
    (atLeast : ∀ low e, P e → P (.atLeast low e))
    (exactly : ∀ times e, P e → P (.exactly times e))
    (range : ∀ first last, P (.range first last))
    (untilAny : ∀ es inclusive, (∀ e ∈ es, P e) → P (.untilAny es inclusive))
    (hook : ∀ h, P (.hook h)) (e : Expr) : P e :=
  @Expr.rec P (fun es => ∀ e ∈ es, P e) literal point any noneOf ahead oneOf seq optional between
    atLeast exactly range untilAny hook (fun _ member => absurd member List.not_mem_nil)
    (fun _ _ head tail => List.forall_mem_cons.mpr ⟨head, tail⟩) e

mutual

/-- The hooks within an expression. -/
def hooks : Expr → List Hook
  | .literal _ | .point _ | .any | .range _ _ => []
  | .noneOf es | .ahead es | .oneOf es | .seq es | .optional es | .untilAny es _ => hooksIn es
  | .between _ _ e | .atLeast _ e | .exactly _ e => e.hooks
  | .hook h => [h]

def hooksIn : List Expr → List Hook
  | [] => []
  | e :: es => e.hooks ++ hooksIn es

end

@[simp] theorem hooksIn_singleton (e : Expr) : hooksIn [e] = e.hooks := List.append_nil _

theorem hooks_subset_hooksIn {e : Expr} {es : List Expr} (member : e ∈ es) :
    e.hooks ⊆ hooksIn es := by
  induction es with
  | nil => cases member
  | cons d es ih =>
    rw [hooksIn]
    rcases List.mem_cons.mp member with rfl | later
    · exact List.subset_append_left _ _
    · exact List.Subset.trans (ih later) (List.subset_append_right _ _)

theorem hooks_eq_nil_of_mem {e : Expr} {es : List Expr} (free : hooksIn es = [])
    (member : e ∈ es) : e.hooks = [] :=
  List.subset_nil.mp (free ▸ hooks_subset_hooksIn member)

end TextMatch.Expr
