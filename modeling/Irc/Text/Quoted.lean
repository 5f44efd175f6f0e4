/-
Quoted text in diagnostics.

Diagnostics show arguments in quotes, so that a reader can see where they end
and which characters they hold.  Characters that would not show by themselves
are written by name (`\n`) or by code point (`\u{200b}`).
-/
import Irc.Text.GraphemeExtend
import Irc.Text.Unprintable

namespace Irc.Text

/-- Whether a character would not show by itself between quotes. -/
def isUnseen (c : Char) : Bool := isDrawnOver c || isUnprintable c

/-- One character between two marks of quotation. -/
def quotedChar (mark c : Char) : List Char :=
  if c = '\x00' then ['\\', '0']
  else if c = '\t' then ['\\', 't']
  else if c = '\r' then ['\\', 'r']
  else if c = '\n' then ['\\', 'n']
  else if c = '\\' || c = mark then ['\\', c]
  else if isUnseen c then ['\\', 'u', '\x7b'] ++ Nat.toDigits 16 c.toNat ++ ['\x7d']
  else [c]

/-- Characters between two marks of quotation. -/
def quotedBy (mark : Char) (cs : List Char) : String :=
  String.ofList ([mark] ++ cs.flatMap (quotedChar mark) ++ [mark])

/-- A text in double quotes. -/
def quoted (s : String) : String := quotedBy '"' s.toList

/-- A character in single quotes. -/
def quotedAlone (c : Char) : String := quotedBy '\x27' [c]

end Irc.Text
