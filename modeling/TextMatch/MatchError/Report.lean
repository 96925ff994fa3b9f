import TextMatch.MatchError.Basic
import TextMatch.Source.Line

/-!
# Reports of match errors

The message of an error in one line, and the report that shows the line of the source below it,
with a caret under the place of the failure.
-/
namespace TextMatch

/-- Where a failure happened. Past the last point, its number says how much there was. -/
def Cursor.whereabouts (c : Cursor) : String :=
  if c.isEnd then
    let points := c.position.point
    ", exceeded data length (" ++ toString points ++ (if points = 1 then " rune)" else " runes)")
  else " at " ++ c.render

/-- What `e` asks for. -/
def Expr.demand : Expr → String
  | .literal text => "expected " ++ Text.quote text
  | .point c => "expected rune " ++ Text.quoteChar c
  | .any => "expected any rune"
  | .noneOf es => "expected none of [" ++ renderMembers es ++ "]"
  | .ahead es => "expected one of [" ++ renderMembers es ++ "] ahead"
  | .oneOf es => "expected one of [" ++ renderMembers es ++ "]"
  | .seq es => "expected sequence [" ++ renderMembers es ++ "]"
  | .optional es => "expected optional [" ++ renderMembers es ++ "]"
  | .between low high e =>
    "expected min " ++ toString low ++ ", max " ++ toString high ++ " of " ++ e.render
  | .atLeast low e => "expected min " ++ toString low ++ " of " ++ e.render
  | .exactly times e => "expected exactly " ++ toString times ++ " of " ++ e.render
  | .range first last =>
    "expected range [" ++ String.singleton first ++ "-" ++ String.singleton last ++ "]"
  | .untilAny es _ => "expected to reach one of [" ++ renderMembers es ++ "]"
  | .hook h => "expected hook " ++ h.name

/-- The message for `e` having failed at `c`. -/
def Expr.failureMessage (e : Expr) (c : Cursor) : String := e.demand ++ c.whereabouts

namespace MatchError

def message : MatchError → String
  | .unmet expr cursor => expr.failureMessage cursor
  | .refused name cursor => "hook " ++ Text.quote name ++ " failed" ++ cursor.whereabouts
  | .defective kind defect => "unsupported " ++ kind.name ++ " expression: " ++ defect.reason
  | .unreadable error => error.message

instance : ToString MatchError := ⟨message⟩

def spaces (n : Nat) : String := String.ofList (List.replicate n ' ')

/-- The line of `c`, with its number in front, and a caret under `c`. The end of data is shown on
the line of the last point. -/
def excerpt (source : Source) (c : Cursor) : String :=
  let line := source.lineAt (if c.isEnd then c.offset - 1 else c.offset)
  let text := source.text line.start line.stop
  let column := (source.text line.start (min c.offset line.stop)).length
  let number := toString c.position.line
  "\n " ++ number ++ " | " ++ text ++ "\n " ++ spaces number.length ++ " | " ++ spaces column ++ "^"

/-- The message and, for a mismatch, the excerpt of `source`. -/
def render (e : MatchError) (source : Source) : String :=
  match e.cursor? with
  | none => e.message
  | some c => e.message ++ excerpt source c

end MatchError
end TextMatch
