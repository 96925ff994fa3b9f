import TextMatch.Text.Printable

/-!
# Quoted text

Characters and strings as messages quote them: between marks, with a short escape for the
mark itself, the backslash and the four commonest controls, and a code point in braces for
any other character that would not show.
-/
namespace TextMatch.Text

/-- Digits of `n` in base sixteen, lower case and without padding. -/
def hexDigits (n : Nat) : List Char := Nat.toDigits 16 n

/-- How `c` is written between two `mark`s. -/
def escape (mark c : Char) : List Char :=
  if c = '\x00' then ['\\', '0']
  else if c = '\t' then ['\\', 't']
  else if c = '\r' then ['\\', 'r']
  else if c = '\n' then ['\\', 'n']
  else if c = '\\' || c = mark then ['\\', c]
  else if isPrintable c then [c]
  else '\\' :: 'u' :: '\x7b' :: (hexDigits c.toNat ++ ['\x7d'])

def apostrophe : Char := '\x27'

def quotationMark : Char := '\x22'

/-- A character between apostrophes. -/
def quoteChar (c : Char) : String :=
  String.ofList (apostrophe :: (escape apostrophe c ++ [apostrophe]))

/-- A string between quotation marks. -/
def quote (s : String) : String :=
  String.ofList (quotationMark :: (s.toList.flatMap (escape quotationMark) ++ [quotationMark]))

/-- The code point of `c` as in `U+0061`: upper case, at least four digits. -/
def codePoint (c : Char) : String :=
  let digits := (hexDigits c.toNat).map Char.toUpper
  "U+" ++ String.ofList (List.replicate (4 - digits.length) '0' ++ digits)

end TextMatch.Text
