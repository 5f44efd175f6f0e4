/-
Numeric replies that the engine reacts to.

The handler is told of every numeric reply, after the engine has taken its part
from it: the welcome, the features of the server, a nickname that is taken, and
the progress of a login.
-/
import Irc.Engine.Negotiation
import Irc.Isupport

namespace Irc.Engine

open Outgoing

/-- The engine of a client that is registered under a nickname since `now`. -/
def registeredAs (nickname : String) (now : Instant) (e : Engine) : Engine :=
  { e with
    nickname := nickname
    link := { e.link with registered := true, negotiated := true, keepalive := some now } }

/-- The server welcomes the client under a nickname, and keepalive begins. -/
def welcome (e : Engine) (m : Message) (now : Instant) : Turn :=
  ((e.stay.update (registeredAs (m.arg 0) now)).order
    (.startKeepalive e.config.timing.pingInterval)).report
      (.welcome (Actor.ofMessage m) (m.arg 0) (m.arg? 1)) m.tags

/-- The features that matter to the engine. -/
def noteFeatures (m : Message) (l : Link) : Link :=
  match Isupport.ofReply? m.args with
  | none => l
  | some s =>
    { l with
      chantypes := s.chantypes?.getD l.chantypes
      network := s.network?.orElse fun _ => l.network }

/-- The nickname to try next: the alternates in order, and when there are none
left the last one tried with an underscore more. -/
def nextNickname (e : Engine) : String :=
  match e.config.alternates[e.nickAttempt]? with
  | some alternate => alternate
  | none => e.nickname ++ "_"

/-- The nickname is taken. -/
def retryNickname (e : Engine) : Turn :=
  (e.stay.update fun e =>
      { e with nickname := e.nextNickname, nickAttempt := e.nickAttempt + 1 }).queue
    (.nick e.nextNickname)

/-- The server has answered for good on a login. -/
def finishSasl (e : Engine) (loggedIn : Bool) (outcome : Sasl.Outcome) (tags : List Tag) : Turn :=
  ((e.stay.learn fun l => { l with loggedIn := loggedIn, sasl := .finished }).report
    (.sasl outcome) tags).andThen endNegotiation

/-- What the engine takes from a reply. -/
def react (e : Engine) (m : Message) (now : Instant) (reply : Reply) : Turn :=
  match reply with
  | .welcome => e.welcome m now
  | .isupport => e.stay.learn (noteFeatures m)
  | .nicknameInUse => if e.link.registered then e.stay else e.retryNickname
  | .loggedIn => e.finishSasl true (.loggedIn (m.arg 2)) m.tags
  | .loggedOut =>
    (e.stay.learn fun l => { l with loggedIn := false }).report (.sasl .loggedOut) m.tags
  | .saslSuccess => e.finishSasl e.link.loggedIn .succeeded m.tags
  | .nickLocked | .saslFail | .saslTooLong | .saslAborted | .saslMechanisms =>
    e.finishSasl e.link.loggedIn (.failed reply.code m.lastArg) m.tags
  | .saslAlready => e.report (.sasl (.failed reply.code m.lastArg)) m.tags
  | _ => e.stay

/-- A numeric reply.  The client's own modes are reported as a mode change and
not as a number. -/
def numeric (e : Engine) (m : Message) (code : Nat) (now : Instant) : Turn :=
  match Reply.ofCode? code with
  | some .userModeIs => e.report (.userMode (Actor.ofMessage m) (m.arg 0) (m.argsFrom 1)) m.tags
  | some reply => (e.react m now reply).report (.numeric (Actor.ofMessage m) code m.args) m.tags
  | none => e.report (.numeric (Actor.ofMessage m) code m.args) m.tags

end Irc.Engine
