/-!
# Kinds of expressions

Which of the fourteen forms an expression has, for messages and events.
-/
namespace TextMatch

inductive Kind where
  | literal | point | any | noneOf | ahead | oneOf | seq | optional
  | between | atLeast | exactly | range | untilAny | hook
  deriving DecidableEq, Repr

def Kind.name : Kind → String
  | .literal => "literal"
  | .point => "point"
  | .any => "any"
  | .noneOf => "not"
  | .ahead => "lookahead"
  | .oneOf => "one_of"
  | .seq => "seq"
  | .optional => "optional"
  | .between => "min_max"
  | .atLeast => "min"
  | .exactly => "count"
  | .range => "range"
  | .untilAny => "until"
  | .hook => "hook"

instance : ToString Kind := ⟨Kind.name⟩

end TextMatch
