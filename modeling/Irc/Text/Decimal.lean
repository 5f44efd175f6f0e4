/-
Decimal numbers on the wire.

Numbers come in as 64-bit words: an optional plus sign and at least one ASCII
digit, nothing else.  Numeric replies go out with three places.
-/

namespace Irc.Text

/-- One more than the largest 64-bit word. -/
def wordBound : Nat := UInt64.size

/-- Reads a 64-bit word; `none` when the text is no number or too large. -/
def word? (s : String) : Option Nat :=
  let digits := match s.toList with
    | '+' :: rest => rest
    | cs => cs
  if digits ≠ [] && digits.all Char.isDigit && Nat.ofDigitChars 10 digits 0 < wordBound then
    some (Nat.ofDigitChars 10 digits 0)
  else
    none

/-- Decimal digits with zeros in front up to the given width. -/
def padded (width n : Nat) : String :=
  let digits := Nat.toDigits 10 n
  String.ofList (List.replicate (width - digits.length) '0' ++ digits)

end Irc.Text
