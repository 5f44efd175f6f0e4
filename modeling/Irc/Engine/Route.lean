/-
Routes of messages.

A message is handled by its command: a numeric reply by its code, every other
command by its word.  `Route.arity` says how many parameters a route needs;
a message with fewer is not handled at all.
-/
import Irc.Message.Basic
import Irc.Reply

namespace Irc

/-- The way a message is handled. -/
inductive Route where
  | numeric (code : Nat)
  | privmsg
  | notice
  | join
  | part
  | quit
  | nick
  | mode
  | topic
  | kick
  | invite
  | cap
  | authenticate
  | ping
  | pong
  | error
  | tagmsg
  | unknown
deriving DecidableEq

namespace Route

/-- The route of a command word. -/
def ofWord (word : String) : Route :=
  match word with
  | "PRIVMSG" => .privmsg
  | "NOTICE" => .notice
  | "JOIN" => .join
  | "PART" => .part
  | "QUIT" => .quit
  | "NICK" => .nick
  | "MODE" => .mode
  | "TOPIC" => .topic
  | "KICK" => .kick
  | "INVITE" => .invite
  | "CAP" => .cap
  | "AUTHENTICATE" => .authenticate
  | "PING" => .ping
  | "PONG" => .pong
  | "ERROR" => .error
  | "TAGMSG" => .tagmsg
  | _ => .unknown

/-- The route of a message. -/
def ofMessage (m : Message) : Route :=
  match m.numeric? with
  | some code => .numeric code
  | none => ofWord m.command

/-- How many parameters a route needs.  A nickname that is refused matters only
until the client is registered. -/
def arity (registered : Bool) : Route → Nat
  | .numeric code =>
    match Reply.ofCode? code with
    | some .welcome => 1
    | some .userModeIs => 2
    | some .nicknameInUse => if registered then 0 else 2
    | _ => 0
  | .privmsg | .notice | .topic | .kick | .invite | .cap => 2
  | .join | .part | .nick | .mode | .authenticate | .ping | .pong | .tagmsg => 1
  | .quit | .error | .unknown => 0

end Route

end Irc
