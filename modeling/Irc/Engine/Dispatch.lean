/-
Handling what the server sends.

Every received line is reported to the handler: as the event that its command
stands for, or as an anomaly when it is no message or lacks parameters.  The
engine answers pings, keeps track of its own nickname and measures round trips
on the way.
-/
import Irc.Engine.Numerics
import Irc.Engine.Route

namespace Irc.Engine

open Outgoing

/-! ### Messages with a part for the engine -/

/-- Someone changes nickname, maybe the client itself. -/
def nick (e : Engine) (m : Message) : Turn :=
  let actor := Actor.ofMessage m
  (e.stay.update fun e =>
      if CaseMapping.same actor.name e.nickname then { e with nickname := m.arg 0 } else e).report
    (.nick actor (m.arg 0)) m.tags

/-- The server wants a sign of life. -/
def ping (e : Engine) (m : Message) : Turn :=
  (e.queue (.pong m.lastArg)).report (.ping (Actor.ofMessage m) m.lastArg) m.tags

/-- The round trip that a token measures: the time since its milliseconds, if
it is a number and not from the future. -/
def roundTrip? (e : Engine) (token : String) (now : Instant) : Option Duration := do
  let sent ← Text.word? token
  if sent ≤ now.millisSince e.epoch then
    some (Duration.ofMillis (now.millisSince e.epoch - sent))
  else
    none

/-- What a sign of life tells of the connection. -/
def noteAnswer (now : Instant) (trip : Option Duration) (l : Link) : Link :=
  { l with
    keepalive := l.keepalive.map fun _ => now
    latency := trip.orElse fun _ => l.latency }

/-- The server gives a sign of life. -/
def pong (e : Engine) (m : Message) (now : Instant) : Turn :=
  let trip := e.roundTrip? m.lastArg now
  (e.stay.learn (noteAnswer now trip)).report (.pong (Actor.ofMessage m) m.lastArg trip) m.tags

/-! ### Routing -/

/-- The event of a text for a target. -/
def textEvent (e : Engine) (m : Message) (ctcp : Actor → String → Ctcp → Event)
    (channel direct : Actor → String → String → Event) : Event :=
  match Ctcp.parse? m.lastArg with
  | some inner => ctcp (Actor.ofMessage m) (m.arg 0) inner
  | none =>
    if e.isChannel (m.arg 0) then
      channel (Actor.ofMessage m) (m.arg 0) m.lastArg
    else
      direct (Actor.ofMessage m) (m.arg 0) m.lastArg

/-- The event of a mode change. -/
def modeEvent (e : Engine) (m : Message) : Event :=
  if e.isChannel (m.arg 0) then
    .channelMode (Actor.ofMessage m) (m.arg 0) (m.argsFrom 1)
  else
    .userMode (Actor.ofMessage m) (m.arg 0) (m.argsFrom 1)

/-- Handles a message that has the parameters its route needs. -/
def route (e : Engine) (m : Message) (now : Instant) : Route → Turn
  | .numeric code => e.numeric m code now
  | .privmsg =>
    e.report (e.textEvent m .ctcpRequest .channelMessage .privateMessage) m.tags
  | .notice =>
    e.report (e.textEvent m .ctcpResponse .channelNotice .privateNotice) m.tags
  | .join => e.report (.join (Actor.ofMessage m) (m.arg 0)) m.tags
  | .part => e.report (.part (Actor.ofMessage m) (m.arg 0) (m.arg? 1)) m.tags
  | .quit => e.report (.quit (Actor.ofMessage m) (m.arg? 0)) m.tags
  | .nick => e.nick m
  | .mode => e.report (e.modeEvent m) m.tags
  | .topic => e.report (.topic (Actor.ofMessage m) (m.arg 0) (m.arg 1)) m.tags
  | .kick => e.report (.kick (Actor.ofMessage m) (m.arg 0) (m.arg 1) (m.arg? 2)) m.tags
  | .invite => e.report (.invite (Actor.ofMessage m) (m.arg 0) (m.arg 1)) m.tags
  | .cap => e.capability m
  | .authenticate => e.authenticate m
  | .ping => e.ping m
  | .pong => e.pong m now
  | .error => e.report (.error m.lastArg) m.tags
  | .tagmsg => e.report (.tagMessage (Actor.ofMessage m) (m.arg 0)) m.tags
  | .unknown => e.report (.unknown (Actor.ofMessage m) m.command m.args) m.tags

/-- Handles a message, or reports that it lacks parameters. -/
def handleMessage (e : Engine) (m : Message) (now : Instant) : Turn :=
  match m.require ((Route.ofMessage m).arity e.link.registered) with
  | .error missing => e.report (.anomaly (.violation missing)) []
  | .ok () => e.route m now (Route.ofMessage m)

/-- Handles a received line, or reports that it is no message. -/
def handleLine (e : Engine) (line : String) (now : Instant) : Turn :=
  match Message.parse line with
  | .error cause => e.report (.anomaly (.unparsable line cause)) []
  | .ok m => e.handleMessage m now

/-- Reports bytes that are no line. -/
def reportUndecodable (e : Engine) (cause : FramingError) : Turn :=
  e.report (.anomaly (.undecodable cause)) []

end Irc.Engine
