/-!
# Scan errors

Why input cannot be read as points. The bytes of a source never change, so none of these can
be mended by trying again.
-/
namespace TextMatch

inductive ScanError where
  /-- The input holds no bytes. -/
  | emptyInput
  /-- No character is encoded at `offset`. -/
  | malformed (offset : Nat)
  /-- The input could not be read to its end. -/
  | readFailed (reason : String)
  deriving DecidableEq, Repr

def ScanError.message : ScanError → String
  | .emptyInput => "empty input"
  | .malformed offset => "invalid UTF-8 sequence at byte " ++ toString offset
  | .readFailed reason => "failed to read input: " ++ reason

instance : ToString ScanError := ⟨ScanError.message⟩

end TextMatch
