/-
White space.

A received line of white space alone counts as empty, and mechanism names may
be surrounded by white space.  The class is the Unicode property White_Space,
given as a table: it is wider than ASCII, and every ASCII blank is in it.
-/
import Irc.Text.Ascii
import Irc.Text.Ranges

namespace Irc.Text

/-- The ranges of the Unicode property White_Space. -/
def blankRanges : Ranges :=
  [(0x09, 0x0D), (0x20, 0x20), (0x85, 0x85), (0xA0, 0xA0), (0x1680, 0x1680), (0x2000, 0x200A),
    (0x2028, 0x2029), (0x202F, 0x202F), (0x205F, 0x205F), (0x3000, 0x3000)]

/-- Whether a character has the property White_Space. -/
def isBlank (c : Char) : Bool := blankRanges.contains c

/-- A text without the white space at both ends. -/
def trim (cs : List Char) : List Char := trimEnd isBlank (cs.dropWhile isBlank)

example : blankRanges.ascendFrom 0 = true := by decide

example : blankRanges.size = 25 := by decide

end Irc.Text
