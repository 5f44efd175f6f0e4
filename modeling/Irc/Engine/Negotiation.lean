/-
Capability negotiation and login.

The client asks for the capabilities that it wants, logs in if it can, and then
ends the negotiation once with `CAP END`.  The end is put off while a login is
under way; if a login is configured and the capability for it is not enabled,
the handler is told that there will be none.
-/
import Irc.Engine.Basic

namespace Irc.Engine

open Outgoing Capability

/-! ### The end of the negotiation -/

/-- Sends `CAP END`, once on each connection. -/
def finishNegotiation (e : Engine) : Turn :=
  if e.link.negotiated then
    e.stay
  else
    (e.stay.learn fun l => { l with negotiated := true }).queue .capEnd

/-- Ends the negotiation unless a login is still under way. -/
def endNegotiation (e : Engine) : Turn :=
  if e.link.negotiated then
    e.stay
  else if !e.config.login.isSasl then
    e.finishNegotiation
  else if !e.link.caps.isEnabled .sasl then
    (e.report (.sasl .unavailable) []).andThen finishNegotiation
  else if e.link.loggedIn || e.link.sasl = .finished then
    e.finishNegotiation
  else
    e.stay

/-! ### Capabilities -/

/-- Notes all offers of a capability list; unknown capabilities are ignored. -/
def noteOffers (list : String) (l : Link) : Link :=
  { l with
    caps := (parseList list).foldl
      (fun caps offer =>
        match caps.offer offer.1 offer.2 with
        | .ok (_, caps) => caps
        | .error _ => caps)
      l.caps }

/-- Requests the capabilities that are queued for it. -/
def requestPending (e : Engine) : Turn :=
  match e.link.caps.takeRequest with
  | none => e.stay
  | some (names, caps) => (e.stay.learn fun l => { l with caps := caps }).queue (.capReq names)

/-- Begins the login, if one is configured and not yet begun. -/
def startSasl (e : Engine) : Turn :=
  if !e.config.login.isSasl || e.link.loggedIn || e.link.sasl ≠ .idle then
    e.stay
  else
    (e.stay.learn fun l => { l with sasl := .mechanismSent }).queue (.authenticate "PLAIN")

/-- Tells the handler of a capability that is not known. -/
def reportUnknown (e : Engine) (u : UnknownCapability) : Turn :=
  e.report (.anomaly (.unknownCapability u)) []

/-- One name of an acknowledgement.  The login begins with its capability. -/
def acknowledge (e : Engine) (entry : String) : Turn :=
  match e.link.caps.acknowledge entry with
  | .error u => e.reportUnknown u
  | .ok ((cap, enabled), caps) =>
    let noted := e.stay.learn fun l => { l with caps := caps }
    if cap = .sasl && enabled then noted.andThen startSasl else noted

/-- One name of a refusal. -/
def deny (e : Engine) (name : String) : Turn :=
  match e.link.caps.deny name with
  | .error u => e.reportUnknown u
  | .ok (_, caps) => e.stay.learn fun l => { l with caps := caps }

/-- One name of a withdrawal. -/
def revoke (e : Engine) (name : String) : Turn :=
  match e.link.caps.revoke name with
  | .error u => e.reportUnknown u
  | .ok (_, caps) => e.stay.learn fun l => { l with caps := caps }

/-- A turn for every name of a list, in order. -/
def forNames (e : Engine) (list : String) (turn : Engine → String → Turn) : Turn :=
  (parseNames list).foldl (fun t name => t.andThen (turn · name)) e.stay

/-- What a subcommand does to the negotiation, and whether it is a reason to
end it.  A list that goes on in the next line is only noted. -/
def negotiate (e : Engine) (sub : Subcommand) (list : String) (continued : Bool) : Turn × Bool :=
  match sub with
  | .ls =>
    let noted := e.stay.learn (noteOffers list)
    if continued then
      (noted, false)
    else
      (noted.andThen requestPending, noted.engine.link.caps.pending = [])
  | .new => ((e.stay.learn (noteOffers list)).andThen requestPending, false)
  | .ack =>
    let noted := e.forNames list acknowledge
    (noted, noted.engine.link.caps.allRequestedEnabled)
  | .nak => (e.forNames list deny, true)
  | .del => (e.forNames list revoke, false)
  | .list | .req | .fin => (e.stay, false)

/-- Whether a list goes on in the next line. -/
def isContinued (sub : Subcommand) (m : Message) : Bool :=
  (sub = .ls || sub = .list) && 4 ≤ m.argCount && m.arg? 2 = some "*"

/-- A capability message. -/
def capability (e : Engine) (m : Message) : Turn :=
  match Subcommand.parse? (m.arg 1) with
  | none => e.report (.unknown (Actor.ofMessage m) m.command m.args) m.tags
  | some sub =>
    let continued := isContinued sub m
    let list := if continued then m.arg 3 else m.arg 2
    let (turn, isReason) := e.negotiate sub list continued
    let told := turn.report (.capability sub list continued) m.tags
    if isReason then told.andThen endNegotiation else told

/-! ### Login -/

/-- The server asks for the credentials. -/
def authenticate (e : Engine) (m : Message) : Turn :=
  if m.arg 0 ≠ "+" || e.link.sasl ≠ .mechanismSent then
    e.stay
  else
    match e.config.saslAccount? with
    | none => e.stay
    | some (account, password) =>
      ((Sasl.credentials account password).foldl (fun t payload => t.queue (.authenticate payload))
        e.stay).learn fun l => { l with sasl := .credentialsSent }

end Irc.Engine
