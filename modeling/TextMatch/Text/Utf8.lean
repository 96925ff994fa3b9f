/-!
# UTF-8

What the standard library's strict decoder leaves open: the length a lead byte announces, what
stands first in a few bytes, and how bytes that are no UTF-8 are shown as text. Each longest
ill-formed part that could still have begun a character (its "maximal subpart") is shown as one
replacement character, so a well-formed stretch of bytes is shown as exactly the characters it
encodes.
-/
namespace TextMatch.Utf8

def byte? (bytes : ByteArray) (i : Nat) : Option UInt8 :=
  if h : i < bytes.size then some bytes[i] else none

/-- Length of the sequence that `lead` announces; a byte that announces none counts as one. -/
def leadWidth (lead : UInt8) : Nat :=
  if lead < 0xC0 then 1
  else if lead ≤ 0xDF then 2
  else if lead ≤ 0xEF then 3
  else if lead ≤ 0xF7 then 4
  else 1

/-- The first of the characters that `window` encodes, if it is UTF-8 as a whole. -/
def firstOf (window : ByteArray) : Option Char :=
  (String.fromUTF8? window).bind fun text => text.toList.head?

def isContinuation (b : UInt8) : Bool := 0x80 ≤ b && b ≤ 0xBF

/-- Whether some character's encoding begins with `lead` and `second`. The four leads with a
range of their own keep out overlong forms, surrogates and values above `U+10FFFF`. -/
def canFollow (lead second : UInt8) : Bool :=
  if lead < 0xC2 || 0xF4 < lead then false
  else if lead = 0xE0 then 0xA0 ≤ second && second ≤ 0xBF
  else if lead = 0xED then 0x80 ≤ second && second ≤ 0x9F
  else if lead = 0xF0 then 0x90 ≤ second && second ≤ 0xBF
  else if lead = 0xF4 then 0x80 ≤ second && second ≤ 0x8F
  else isContinuation second

/-- Length of the maximal subpart at `i`, where no whole character is encoded. -/
def brokenLength (bytes : ByteArray) (i : Nat) : Nat :=
  match byte? bytes i, byte? bytes (i + 1), byte? bytes (i + 2) with
  | some lead, some second, some third =>
    if canFollow lead second then
      if 0xF0 ≤ lead && isContinuation third then 3 else 2
    else 1
  | some lead, some second, none => if canFollow lead second then 2 else 1
  | _, _, _ => 1

theorem brokenLength_pos (bytes : ByteArray) (i : Nat) : 0 < brokenLength bytes i := by
  unfold brokenLength
  repeat' split
  all_goals omega

/-- The text of `bytes` from `i` on, put behind `shown`. -/
def showFrom (bytes : ByteArray) (i : Nat) (shown : String) : String :=
  if i < bytes.size then
    match bytes.utf8DecodeChar? i with
    | some c => showFrom bytes (i + c.utf8Size) (shown.push c)
    | none => showFrom bytes (i + brokenLength bytes i) (shown.push '\uFFFD')
  else shown
termination_by bytes.size - i
decreasing_by
  · have := c.utf8Size_pos
    omega
  · have := brokenLength_pos bytes i
    omega

/-- The text of `bytes`, with a replacement character for each maximal subpart. -/
def toText (bytes : ByteArray) : String := showFrom bytes 0 ""

end TextMatch.Utf8
