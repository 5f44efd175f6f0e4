/-
Waiting between connection attempts.

The wait grows by a fixed step with every failed attempt, and a success sets it
back to the base.
-/
import Irc.Time.Basic

namespace Irc

/-- A wait with its base and step. -/
structure Backoff where
  base : Duration
  step : Duration
  current : Duration
deriving DecidableEq

namespace Backoff

/-- A wait that starts at its base. -/
def start (base step : Duration) : Backoff := ⟨base, step, base⟩

/-- The usual wait: five seconds, and five more with every failure. -/
def usual : Backoff := start (Duration.ofParts 5 0) (Duration.ofParts 5 0)

/-- The wait after a failed attempt. -/
def fail (b : Backoff) : Backoff := { b with current := b.current.add b.step }

/-- The wait after a success. -/
def succeed (b : Backoff) : Backoff := { b with current := b.base }

end Backoff

end Irc
