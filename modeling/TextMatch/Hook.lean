import TextMatch.Event
import TextMatch.Scanner.Basic

/-!
# Hooks

Rules of matching that no expression describes. A hook is given the scanner, leaves it where it
likes, and says whether it accepts. It is a function of the scanner alone: a hook that remembers
earlier calls, and so may answer differently when it is called again on the same scanner, is left
out. What a hook reads on the way it reports as events, so that the account of a match has no gaps.
-/
namespace TextMatch

/-- What a hook comes back with. -/
structure Visit where
  accepted : Bool
  scanner : Scanner
  /-- Earliest first. -/
  events : List Event

structure Hook where
  name : String
  /-- There is no visit if the hook never comes back. -/
  run : Scanner → Option Visit

end TextMatch
