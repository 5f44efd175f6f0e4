/-
Durations and instants.

A `Duration` counts nanoseconds up to a fixed largest value, and sums stop
there.  An `Instant` counts nanoseconds from the start of a monotonic clock; a
clock runs for less than `2 ^ 63` seconds, so adding a duration to an instant
can fail, which `Instant.after?` reports.
-/

namespace Irc

/-- Nanoseconds in a second. -/
def nanosPerSecond : Nat := 1000000000

/-- Nanoseconds in a millisecond. -/
def nanosPerMilli : Nat := 1000000

/-- A span of time in nanoseconds, at most `Duration.maxNanos`. -/
structure Duration where
  nanos : Nat
  le_max : nanos ≤ UInt64.size * nanosPerSecond - 1 := by decide
deriving DecidableEq

namespace Duration

/-- The longest span: the seconds are a 64-bit word. -/
def maxNanos : Nat := UInt64.size * nanosPerSecond - 1

/-- The span of `n` nanoseconds, or the longest one if that is shorter. -/
def ofNanos (n : Nat) : Duration := ⟨min n maxNanos, Nat.min_le_right n maxNanos⟩

/-- A span in whole seconds and nanoseconds. -/
def ofParts (seconds nanos : Nat) : Duration := ofNanos (seconds * nanosPerSecond + nanos)

/-- A span in milliseconds. -/
def ofMillis (n : Nat) : Duration := ofNanos (n * nanosPerMilli)

/-- The whole seconds of a span. -/
def seconds (d : Duration) : Nat := d.nanos / nanosPerSecond

/-- The nanoseconds beyond the whole seconds. -/
def subsecond (d : Duration) : Nat := d.nanos % nanosPerSecond

/-- The sum of two spans, stopping at the longest one. -/
def add (a b : Duration) : Duration := ofNanos (a.nanos + b.nanos)

/-- The empty span. -/
def zero : Duration := ofNanos 0

theorem nanos_le_maxNanos (d : Duration) : d.nanos ≤ maxNanos := d.le_max

@[ext] theorem ext {a b : Duration} (h : a.nanos = b.nanos) : a = b := by
  cases a; cases b; cases h; rfl

@[simp] theorem nanos_ofNanos (n : Nat) : (ofNanos n).nanos = min n maxNanos := rfl

@[simp] theorem nanos_add (a b : Duration) : (a.add b).nanos = min (a.nanos + b.nanos) maxNanos :=
  rfl

end Duration

/-- A point of a monotonic clock, in nanoseconds from its start. -/
structure Instant where
  nanos : Nat
deriving DecidableEq

namespace Instant

/-- Clocks show whole seconds below this bound. -/
def secondsBound : Nat := UInt64.size / 2

/-- The instant `d` after `t`, if a clock can show it. -/
def after? (t : Instant) (d : Duration) : Option Instant :=
  if (t.nanos + d.nanos) / nanosPerSecond < secondsBound then some ⟨t.nanos + d.nanos⟩ else none

/-- The span from `earlier` to `t`, empty when `t` comes first. -/
def since (t earlier : Instant) : Duration := Duration.ofNanos (t.nanos - earlier.nanos)

/-- Whole milliseconds from `earlier` to `t`, as a 64-bit word. -/
def millisSince (t earlier : Instant) : Nat :=
  min ((t.since earlier).nanos / nanosPerMilli) (UInt64.size - 1)

end Instant

end Irc
