/-
Calendar timestamps.

Servers stamp messages with calendar times in the format of RFC 3339, such as
`2024-03-01T12:30:00.000Z`.  `Timestamp.parse?` reads one into seconds and
nanoseconds since the start of 1970, and accepts only dates that exist.

A leap second, written as second 60, has no number of its own: it is second 59
with a billion nanoseconds more.  Digits of a fraction past the ninth are
dropped.
-/

namespace Irc

/-- A point in calendar time: seconds since the start of 1970 and nanoseconds. -/
structure Timestamp where
  seconds : Int
  nanos : Nat
deriving DecidableEq

namespace Timestamp

/-! ### The calendar -/

/-- Whether a year has a leap day. -/
def isLeap (year : Nat) : Bool := year % 4 = 0 && (year % 100 ≠ 0 || year % 400 = 0)

/-- Days of the twelve months. -/
def monthLengths (year : Nat) : List Nat :=
  [31, if isLeap year then 29 else 28, 31, 30, 31, 30, 31, 31, 30, 31, 30, 31]

/-- Days from the start of year 0 to the start of `year`. -/
def daysBeforeYear (year : Nat) : Nat :=
  365 * year + (year + 3) / 4 - (year + 99) / 100 + (year + 399) / 400

/-- Days from the start of 1970 to a date; `none` when there is no such date. -/
def dayNumber? (year month day : Nat) : Option Int :=
  if month = 0 || day = 0 then none
  else
    match (monthLengths year)[month - 1]? with
    | none => none
    | some length =>
      if day ≤ length then
        some ((daysBeforeYear year + ((monthLengths year).take (month - 1)).foldr (· + ·) 0 + (day - 1) : Nat) -
          (daysBeforeYear 1970 : Nat))
      else
        none

/-! ### Reading the format -/

/-- Exactly `width` digits. -/
def number? (width : Nat) (cs : List Char) : Option (Nat × List Char) :=
  let digits := cs.take width
  if digits.length = width && digits.all Char.isDigit then
    some (Nat.ofDigitChars 10 digits 0, cs.drop width)
  else
    none

/-- One character of a given set. -/
def mark? (marks : List Char) : List Char → Option (List Char)
  | [] => none
  | c :: cs => if marks.contains c then some cs else none

/-- The nanoseconds of an optional fraction. -/
def fraction? : List Char → Option (Nat × List Char)
  | '.' :: cs =>
    let digits := cs.takeWhile Char.isDigit
    let kept := digits.take 9
    if digits = [] then none
    else some (Nat.ofDigitChars 10 kept 0 * Nat.pow 10 (9 - kept.length), cs.dropWhile Char.isDigit)
  | cs => some (0, cs)

/-- Whether a sign means east of universal time.  West is also written with a proper minus. -/
def isEast? (sign : Char) : Option Bool :=
  if sign = '+' then some true
  else if sign = '-' || sign = '−' then some false
  else none

/-- The distance of a zone from universal time in seconds, to the end of the text. -/
def offset? : List Char → Option Int
  | ['Z'] | ['z'] => some 0
  | sign :: cs => do
    let east ← isEast? sign
    let (hours, cs) ← number? 2 cs
    let cs ← mark? [':'] cs
    let (minutes, cs) ← number? 2 cs
    if cs = [] && hours < 24 && minutes < 60 then
      let distance : Int := hours * 3600 + minutes * 60
      some (if east then distance else -distance)
    else
      none
  | [] => none

/-- Reads a timestamp: date, time, optional fraction and zone. -/
def parse? (text : String) : Option Timestamp := do
  let cs := text.toList
  let (year, cs) ← number? 4 cs
  let cs ← mark? ['-'] cs
  let (month, cs) ← number? 2 cs
  let cs ← mark? ['-'] cs
  let (day, cs) ← number? 2 cs
  let cs ← mark? ['T', 't', ' '] cs
  let (hour, cs) ← number? 2 cs
  let cs ← mark? [':'] cs
  let (minute, cs) ← number? 2 cs
  let cs ← mark? [':'] cs
  let (second, cs) ← number? 2 cs
  let (nanos, cs) ← fraction? cs
  let offset ← offset? cs
  let days ← dayNumber? year month day
  if hour < 24 && minute < 60 && second ≤ 60 then
    let clock : Int := hour * 3600 + minute * 60 + min second 59
    some ⟨days * 86400 + clock - offset, if second = 60 then nanos + 1000000000 else nanos⟩
  else
    none

end Timestamp

end Irc
