/-
ASCII classes, case and word splitting.

Commands, capability names and mechanism names are ASCII words: they compare
without regard to ASCII case, while every character outside ASCII stands only
for itself.  The classes and case maps of `Char` are the ASCII ones and serve as
they are.  Three characters can never stand inside a line, because they end it
or are refused by servers: CR, LF and NUL.
-/

namespace Irc.Text

/-! ### Character classes -/

/-- CR, LF or NUL, the characters that may not stand inside a line. -/
def isLineBreaker (c : Char) : Bool := c = '\r' || c = '\n' || c = '\x00'

/-- CR or LF. -/
def isLineEnd (c : Char) : Bool := c = '\r' || c = '\n'

/-- The blanks that separate words in a capability list. -/
def isAsciiBlank (c : Char) : Bool :=
  c = ' ' || c = '\t' || c = '\n' || c = '\x0c' || c = '\r'

/-- The first character of a text that may not stand inside a line. -/
def lineBreaker? (s : String) : Option Char := s.toList.find? isLineBreaker

/-! ### Case -/

/-- ASCII upper case; other characters stay. -/
def upper (s : String) : String := String.ofList (s.toList.map Char.toUpper)

/-- ASCII lower case; other characters stay. -/
def lower (s : String) : String := String.ofList (s.toList.map Char.toLower)

/-- Equality up to ASCII case. -/
def sameIgnoringCase (a b : String) : Bool := lower a = lower b

/-! ### Splitting -/

/-- The parts before and after the first `sep`. -/
def splitOnce (sep : Char) : List Char → Option (List Char × List Char)
  | [] => none
  | c :: cs =>
    if c = sep then
      some ([], cs)
    else
      (splitOnce sep cs).map fun (front, back) => (c :: front, back)

/-- The non-empty runs between separators. -/
def words (isSep : Char → Bool) (cs : List Char) : List (List Char) :=
  (cs.splitOnP isSep).filter (· ≠ [])

/-- A text without its trailing run of characters in the class. -/
def trimEnd (p : Char → Bool) (cs : List Char) : List Char := (cs.reverse.dropWhile p).reverse

end Irc.Text
