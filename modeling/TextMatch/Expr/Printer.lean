import TextMatch.Expr.Basic
import TextMatch.Text.Quoted

/-!
# Expressions as text

The one-line form of an expression, as messages show it: a quoted literal or point, or the name
of the form with its parts in parentheses.
-/
namespace TextMatch

/-- `name(part, part)`. -/
def form (name : String) (parts : List String) : String :=
  name ++ "(" ++ ", ".intercalate parts ++ ")"

mutual

def Expr.render : Expr → String
  | .literal text => Text.quote text
  | .point c => Text.quoteChar c
  | .any => "any"
  | .noneOf es => form "not" (Expr.renderAll es)
  | .ahead es => form "ahead" (Expr.renderAll es)
  | .oneOf es => form "one_of" (Expr.renderAll es)
  | .seq es => form "seq" (Expr.renderAll es)
  | .optional es => form "opt" (Expr.renderAll es)
  | .between low high e => form "min_max" [toString low, toString high, e.render]
  | .atLeast low e => form "min" [toString low, e.render]
  | .exactly times e => form "count" [toString times, e.render]
  | .range first last => form "range" [Text.quoteChar first, Text.quoteChar last]
  | .untilAny es false => form "until" (Expr.renderAll es)
  | .untilAny es true => form "until_incl" (Expr.renderAll es)
  | .hook h => form "hook" [h.name]

def Expr.renderAll : List Expr → List String
  | [] => []
  | e :: es => e.render :: Expr.renderAll es

end

/-- The members of a form, as a list without its brackets. -/
def Expr.renderMembers (es : List Expr) : String := ", ".intercalate (Expr.renderAll es)

instance : ToString Expr := ⟨Expr.render⟩

/-- A hook by itself, as opposed to the expression that runs it. -/
def Hook.render (h : Hook) : String := form "Hook" [Text.quote h.name]

theorem Expr.renderAll_eq_map (es : List Expr) : Expr.renderAll es = es.map Expr.render := by
  induction es with
  | nil => rfl
  | cons e es ih => rw [Expr.renderAll, ih, List.map_cons]

end TextMatch
