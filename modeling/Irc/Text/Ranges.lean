/-
Classes of characters as ranges.

A class beyond ASCII is a table of closed ranges of code points.  The ranges of
a table ascend and do not touch, so that there is one table for each class, and
`size` counts its members.
-/

namespace Irc.Text

/-- Closed ranges of code points. -/
abbrev Ranges := List (Nat × Nat)

namespace Ranges

/-- Whether a character is in one of the ranges. -/
def contains (rs : Ranges) (c : Char) : Bool := rs.any fun (lo, hi) => lo ≤ c.toNat && c.toNat ≤ hi

/-- Whether the ranges ascend from `least` on, with gaps between them. -/
def ascendFrom (least : Nat) : Ranges → Bool
  | [] => true
  | (lo, hi) :: rest => least ≤ lo && lo ≤ hi && ascendFrom (hi + 2) rest

/-- The number of code points in ascending ranges. -/
def size : Ranges → Nat
  | [] => 0
  | (lo, hi) :: rest => hi - lo + 1 + size rest

end Ranges

end Irc.Text
