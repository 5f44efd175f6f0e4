/-
Events.

What a session tells its handler: milestones of the connection, each message of
the server in typed form, and anomalies, which are inputs that had to be
dropped or could not be understood.
-/
import Irc.Capability.Basic
import Irc.Ctcp
import Irc.Framing
import Irc.Message.Parser
import Irc.Reply
import Irc.Time.Basic

namespace Irc

/-- Who sent a message.  The name is empty for a message without a source. -/
structure Actor where
  name : String
  user : Option String
  host : Option String
deriving DecidableEq

/-- The sender of a message. -/
def Actor.ofMessage (m : Message) : Actor := ⟨m.sourceName?.getD "", m.user?, m.host?⟩

/-- Something received that could not be used. -/
inductive Anomaly where
  /-- A line that is no message. -/
  | unparsable (line : String) (cause : ParseError)
  /-- A message that lacks parameters. -/
  | violation (cause : MissingParameters)
  /-- A capability that the client has no definition for. -/
  | unknownCapability (cause : UnknownCapability)
  /-- Bytes that are no line. -/
  | undecodable (cause : FramingError)
deriving DecidableEq

/-- The wording of an anomaly. -/
def Anomaly.message : Anomaly → String
  | .unparsable line _ => "invalid message: " ++ line
  | .violation cause => cause.message
  | .unknownCapability cause => cause.message
  | .undecodable cause => cause.message

/-- What a session tells its handler. -/
inductive Event where
  | connected
  | connectFailed (reason : String) (retryIn : Option Duration)
  | disconnected (reason : String) (retryIn : Option Duration)
  | welcome (actor : Actor) (nickname : String) (text : Option String)
  | nick (actor : Actor) (nickname : String)
  | quit (actor : Actor) (reason : Option String)
  | join (actor : Actor) (channel : String)
  | part (actor : Actor) (channel : String) (reason : Option String)
  | channelMode (actor : Actor) (channel : String) (modes : List String)
  | userMode (actor : Actor) (target : String) (modes : List String)
  | topic (actor : Actor) (channel topic : String)
  | kick (actor : Actor) (channel nickname : String) (reason : Option String)
  | channelMessage (actor : Actor) (channel text : String)
  | privateMessage (actor : Actor) (target text : String)
  | channelNotice (actor : Actor) (channel text : String)
  | privateNotice (actor : Actor) (target text : String)
  | invite (actor : Actor) (nickname channel : String)
  | ctcpRequest (actor : Actor) (target : String) (ctcp : Ctcp)
  | ctcpResponse (actor : Actor) (target : String) (ctcp : Ctcp)
  | numeric (actor : Actor) (code : Nat) (params : List String)
  | capability (subcommand : Capability.Subcommand) (list : String) (continued : Bool)
  | sasl (outcome : Sasl.Outcome)
  | ping (actor : Actor) (token : String)
  | pong (actor : Actor) (token : String) (latency : Option Duration)
  | error (text : String)
  | tagMessage (actor : Actor) (target : String)
  | unknown (actor : Actor) (command : String) (params : List String)
  | anomaly (anomaly : Anomaly)
deriving DecidableEq

/-- The sender behind an event, if it has one. -/
def Event.actor? : Event → Option Actor
  | .welcome actor .. | .nick actor .. | .quit actor .. | .join actor .. | .part actor ..
  | .channelMode actor .. | .userMode actor .. | .topic actor .. | .kick actor ..
  | .channelMessage actor .. | .privateMessage actor .. | .channelNotice actor ..
  | .privateNotice actor .. | .invite actor .. | .ctcpRequest actor .. | .ctcpResponse actor ..
  | .numeric actor .. | .ping actor .. | .pong actor .. | .tagMessage actor ..
  | .unknown actor .. => some actor
  | _ => none

end Irc
