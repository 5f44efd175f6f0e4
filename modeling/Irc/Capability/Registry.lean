/-
The state of a capability negotiation.

A `Registry` notes for each capability what the server offers, what the client
has asked for and what is enabled, and queues the capabilities that the next
request should name.  It sends nothing itself.  Every operation takes the name
as the server wrote it and refuses a name that is not known, in which case
nothing changes.
-/
import Irc.Capability.Basic

namespace Irc

namespace Capability

/-- What is noted about one capability. -/
structure Status where
  value : Option String := none
  offered : Bool := false
  requested : Bool := false
  enabled : Bool := false
deriving DecidableEq

end Capability

open Capability in
/-- The state of a negotiation.  A capability has no status until it has been
named or requested. -/
structure Registry where
  sasl : Option Status := none
  capNotify : Option Status := none
  serverTime : Option Status := none
  /-- Capabilities for the next request, in order. -/
  pending : List Capability := []
deriving DecidableEq

namespace Registry

open Capability

/-- The status of a capability, if there is one. -/
def status? (r : Registry) : Capability → Option Status
  | .sasl => r.sasl
  | .capNotify => r.capNotify
  | .serverTime => r.serverTime

/-- The status of a capability; nothing is noted about one that has none. -/
def status (r : Registry) (cap : Capability) : Status := (r.status? cap).getD {}

/-- Notes a status. -/
def put (r : Registry) (cap : Capability) (s : Status) : Registry :=
  match cap with
  | .sasl => { r with sasl := some s }
  | .capNotify => { r with capNotify := some s }
  | .serverTime => { r with serverTime := some s }

@[simp] theorem status?_put (r : Registry) (cap other : Capability) (s : Status) :
    (r.put cap s).status? other = if other = cap then some s else r.status? other := by
  cases cap <;> cases other <;> rfl

@[simp] theorem status_put (r : Registry) (cap other : Capability) (s : Status) :
    (r.put cap s).status other = if other = cap then s else r.status other := by
  simp only [status, status?_put]
  split <;> rfl

@[simp] theorem pending_put (r : Registry) (cap : Capability) (s : Status) :
    (r.put cap s).pending = r.pending := by
  cases cap <;> rfl

/-- The queue has no part in what is noted about a capability. -/
@[simp] theorem status_setPending (r : Registry) (pending : List Capability) (cap : Capability) :
    ({ r with pending := pending } : Registry).status cap = r.status cap := by
  cases cap <;> rfl

/-! ### Looking -/

/-- Whether a capability is enabled. -/
def isEnabled (r : Registry) (cap : Capability) : Bool := (r.status cap).enabled

/-- Whether every requested capability is enabled. -/
def allRequestedEnabled (r : Registry) : Bool :=
  Capability.all.all fun cap => !(r.status cap).requested || (r.status cap).enabled

/-- The enabled capabilities in the order of requests. -/
def enabled (r : Registry) : List Capability := Capability.all.filter r.isEnabled

/-- The names of the enabled capabilities between spaces. -/
def render (r : Registry) : String := String.intercalate " " (r.enabled.map Capability.name)

/-! ### Operations -/

/-- Finds a capability by name. -/
def lookup (name : String) : Except UnknownCapability Capability :=
  match ofName? name with
  | some cap => .ok cap
  | none => .error ⟨name⟩

/-- Whether an offer puts a capability into the queue of the next request. -/
def wants (r : Registry) (cap : Capability) (value : Option String) : Bool :=
  cap.accepts value && !(r.status cap).enabled && !(r.status cap).requested &&
    !r.pending.contains cap

/-- The server offers a capability; the answer says whether it was queued. -/
def offer (r : Registry) (name : String) (value : Option String) :
    Except UnknownCapability (Bool × Registry) :=
  match lookup name with
  | .error e => .error e
  | .ok cap =>
    let noted := r.put cap { r.status cap with offered := true, value := value }
    if r.wants cap value then
      .ok (true, { noted with pending := r.pending ++ [cap] })
    else
      .ok (false, noted)

/-- Marks a capability as requested. -/
def markRequested (r : Registry) (cap : Capability) : Registry :=
  r.put cap { r.status cap with requested := true }

/-- Empties the queue into the argument of a request. -/
def takeRequest (r : Registry) : Option (String × Registry) :=
  if r.pending = [] then
    none
  else
    some (String.intercalate " " (r.pending.map Capability.name),
      r.pending.foldl markRequested { r with pending := [] })

/-- The marks that may stand in front of an acknowledged name. -/
def isModifier (c : Char) : Bool := c = '-' || c = '~' || c = '='

/-- The server acknowledges one name of a request.  A `-` among the marks in
front says that the capability is now disabled; the answer says what it is. -/
def acknowledge (r : Registry) (entry : String) :
    Except UnknownCapability ((Capability × Bool) × Registry) :=
  let marks := entry.toList.takeWhile isModifier
  let name := String.ofList (entry.toList.dropWhile isModifier)
  match lookup name with
  | .error e => .error e
  | .ok cap =>
    let s := r.status cap
    if marks.contains '-' then
      .ok ((cap, false), r.put cap { s with enabled := false, requested := false })
    else
      .ok ((cap, true), r.put cap { s with enabled := true })

/-- The server refuses one name of a request. -/
def deny (r : Registry) (name : String) : Except UnknownCapability (Capability × Registry) :=
  match lookup name with
  | .error e => .error e
  | .ok cap => .ok (cap, r.put cap { r.status cap with requested := false, enabled := false })

/-- The server withdraws a capability. -/
def revoke (r : Registry) (name : String) : Except UnknownCapability (Capability × Registry) :=
  match lookup name with
  | .error e => .error e
  | .ok cap => .ok (cap, { r.put cap {} with pending := r.pending.filter (· ≠ cap) })

end Registry

end Irc
