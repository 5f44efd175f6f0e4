/-
The session engine.

An `Engine` is all that a session knows: its configuration, where the
connection is in its life, and in `Link` what was learnt on the current
connection.  Handling an input is a pure step from an engine to a `Turn`: the
engine afterwards and what it put out on the way, in order.  Lines and effects
go to queues of the session, reports go to its event handler; the handler has
no way into the engine.

Turns are put together with `Turn.andThen`, which keeps the outputs of both
parts in order.
-/
import Irc.Capability.Registry
import Irc.CaseMapping
import Irc.Config
import Irc.Event
import Irc.Lifecycle.Backoff
import Irc.Lifecycle.Effect
import Irc.Lifecycle.Table
import Irc.Outgoing.Request

namespace Irc

open Outgoing

/-- What was learnt on the current connection. -/
structure Link where
  /-- The server has welcomed the client. -/
  registered : Bool := false
  /-- The client is logged in to an account. -/
  loggedIn : Bool := false
  /-- The capability negotiation is over. -/
  negotiated : Bool := false
  /-- How far the login exchange is. -/
  sasl : Sasl.Progress := .idle
  /-- The capabilities of the connection. -/
  caps : Registry := {}
  /-- The characters that channel names start with. -/
  chantypes : String := "#&"
  /-- The name of the network. -/
  network : Option String := none
  /-- The last measured round trip. -/
  latency : Option Duration := none
  /-- While keepalive runs, when the server last answered. -/
  keepalive : Option Instant := none
deriving DecidableEq

/-- All that a session knows. -/
structure Engine where
  config : Config
  state : ConnectionState
  lastAction : Option Action
  backoff : Backoff
  /-- The current nickname. -/
  nickname : String
  /-- How many nicknames the server has turned down on this connection. -/
  nickAttempt : Nat
  /-- When the connection was made. -/
  epoch : Instant
  link : Link
  /-- The session is over for good. -/
  freed : Bool
deriving DecidableEq

/-- Why a request is not sent. -/
inductive SendError where
  | request (e : RequestError)
  | notConnected (state : ConnectionState)
  | sessionFreed
deriving DecidableEq

/-- The wording of a send error. -/
def SendError.message : SendError → String
  | .request e => e.message
  | .notConnected state => "not connected (state " ++ state.word ++ ")"
  | .sessionFreed => "session has been freed"

/-- What an engine puts out. -/
inductive Output where
  /-- A line for the server. -/
  | line (text : String)
  /-- Lines that were not yet sent are dropped. -/
  | dropLines
  /-- An order to the caller. -/
  | effect (effect : Effect)
  /-- An event for the handler, with the tags of the message behind it and the
  engine as the handler sees it. -/
  | report (event : Event) (tags : List Tag) (seen : Engine)
deriving DecidableEq

/-- An engine after an input, and what it put out. -/
structure Turn where
  engine : Engine
  outputs : List Output
deriving DecidableEq

namespace Engine

/-- The engine of a new session. -/
def start (config : Config) (now : Instant) : Engine where
  config := config
  state := .disconnected
  lastAction := none
  backoff := Backoff.start config.timing.reconnectBase config.timing.reconnectStep
  nickname := config.nickname
  nickAttempt := 0
  epoch := now
  link := {}
  freed := false

/-- The lines that a request comes to, if it may be sent now. -/
def linesFor (e : Engine) (r : Request) : Except SendError (List String) :=
  match r.command with
  | .error err => .error (.request err)
  | .ok command =>
    if e.freed then
      .error .sessionFreed
    else if e.state ≠ .connected then
      .error (.notConnected e.state)
    else
      match command.lines with
      | .error err => .error (.request (.build err))
      | .ok lines => .ok lines

/-- Whether a target is a channel by its first character. -/
def isChannel (e : Engine) (target : String) : Bool :=
  match target.toList with
  | [] => false
  | c :: _ => e.link.chantypes.toList.contains c

/-! ### Elementary turns -/

/-- Nothing happens. -/
def stay (e : Engine) : Turn := ⟨e, []⟩

/-- A request of the engine itself; one that cannot be sent is dropped. -/
def queue (e : Engine) (r : Request) : Turn :=
  match e.linesFor r with
  | .ok lines => ⟨e, lines.map .line⟩
  | .error _ => ⟨e, []⟩

/-- An order to the caller. -/
def order (e : Engine) (effect : Effect) : Turn := ⟨e, [.effect effect]⟩

/-- An event for the handler. -/
def report (e : Engine) (event : Event) (tags : List Tag) : Turn := ⟨e, [.report event tags e]⟩

/-- What was learnt on the current connection is forgotten. -/
def resetLink (e : Engine) : Turn :=
  ⟨{ e with link := {} },
    .dropLines :: if e.link.keepalive.isSome then [.effect .stopKeepalive] else []⟩

end Engine

namespace Turn

/-- A turn and then another that starts where it ends. -/
def andThen (t : Turn) (next : Engine → Turn) : Turn :=
  ⟨(next t.engine).engine, t.outputs ++ (next t.engine).outputs⟩

/-- A change of the engine. -/
def update (t : Turn) (change : Engine → Engine) : Turn := ⟨change t.engine, t.outputs⟩

/-- A change of what was learnt on the connection. -/
def learn (t : Turn) (change : Link → Link) : Turn :=
  t.update fun e => { e with link := change e.link }

/-- A request of the engine itself. -/
def queue (t : Turn) (r : Request) : Turn := t.andThen (·.queue r)

/-- An order to the caller. -/
def order (t : Turn) (effect : Effect) : Turn := t.andThen (·.order effect)

/-- An event for the handler. -/
def report (t : Turn) (event : Event) (tags : List Tag) : Turn := t.andThen (·.report event tags)

end Turn

end Irc
