/-
Clients.

A `Client` is a session together with what its event loop holds: the reader of
lines and its buffer, the two timers, and whether a socket is open or an attempt
to open one is under way.  The transport is known only by what becomes of each
write, which is settled beforehand in `Client.writes`.

The log notes in order, latest first, every use of the transport and every entry
of the session's journal.
-/
import Irc.Framing
import Irc.Session.Basic
import Irc.Transport

namespace Irc

/-- What callers ask of a running client. -/
inductive ClientCommand where
  | connect
  | disconnect
  | quit (reason : Option String)
  | send (request : Outgoing.Request)
deriving DecidableEq

/-- Why an event loop breaks down: a timer cannot be set. -/
inductive Breakdown where
  /-- The deadline lies beyond what a clock can show. -/
  | deadlineTooLate
  /-- A ticker cannot tick without pause. -/
  | periodEmpty
deriving DecidableEq

/-- A ticker: when it ticks next, and how often.

It behaves as an interval of the tokio runtime that is given a start and delays missed ticks.
The first tick is due at the start, and each later one a period after the one before was due;
after a tick that is taken too late, the next is due a whole period from then, and none is made
up for.  Timers are not exact, so a tick counts as taken in time up to a tolerance.  An empty
period is not allowed, and neither is a start beyond what a clock can show. -/
structure Ticker where
  deadline : Instant
  period : Duration
deriving DecidableEq

namespace Ticker

/-- The lateness, in milliseconds, up to which a tick counts as taken in time. -/
def tolerance : Nat := 5

/-- A ticker that starts one period from now. -/
def start (now : Instant) (period : Duration) : Except Breakdown Ticker :=
  match now.after? period with
  | none => .error .deadlineTooLate
  | some deadline =>
    if period = Duration.zero then .error .periodEmpty else .ok ⟨deadline, period⟩

/-- Whether it is time for a tick. -/
def isDue (t : Ticker) (now : Instant) : Bool := t.deadline.nanos ≤ now.nanos

/-- The ticker after a tick that is taken now. -/
def next (t : Ticker) (now : Instant) : Ticker :=
  let isLate := t.deadline.nanos + tolerance * nanosPerMilli < now.nanos
  { t with deadline := ⟨(if isLate then now.nanos else t.deadline.nanos) + t.period.nanos⟩ }

end Ticker

/-- A note in the log of a client. -/
inductive Note where
  /-- Something happened in the session. -/
  | session (entry : Entry)
  /-- An attempt to connect began. -/
  | dialed (host : String) (port : Nat) (tls : TlsOptions)
  /-- The attempt succeeded. -/
  | opened
  /-- A line was handed to the transport, and may have met a failure. -/
  | wrote (line : String) (failure : Option TransportError)
  /-- The transport was closed. -/
  | closed

/-- A session with the state of its event loop. -/
structure Client (σ : Type) where
  session : Session σ
  framer : Framer
  /-- Bytes that were received and not yet framed. -/
  buffer : List UInt8
  /-- The keepalive timer, while it runs. -/
  keepalive : Option Ticker
  /-- When the reconnect timer runs out, while it is set. -/
  reconnectAt : Option Instant
  socketOpen : Bool
  /-- Whether an attempt to connect is under way. -/
  dialing : Bool
  /-- What becomes of the coming writes; those beyond the list succeed. -/
  writes : List (Option TransportError)
  /-- Why the event loop broke down, if it did. -/
  breakdown : Option Breakdown
  /-- What happened, latest first. -/
  log : List Note

namespace Client

variable {σ : Type}

/-- A client of a session, with nothing begun. -/
def start (session : Session σ) (writes : List (Option TransportError)) : Client σ where
  session := session
  framer := {}
  buffer := []
  keepalive := none
  reconnectAt := none
  socketOpen := false
  dialing := false
  writes := writes
  breakdown := none
  log := []

/-- Where the connection is in its life. -/
def state (c : Client σ) : ConnectionState := c.session.engine.state

/-- Whether the event loop has ended. -/
def stopped (c : Client σ) : Bool := c.session.engine.freed || c.breakdown.isSome

/-- A short description of a client. -/
def describe (c : Client σ) : String :=
  "Client \x7b session: " ++ c.session.describe ++ ", socket_open: " ++
    (if c.socketOpen then "true" else "false") ++ ", .. \x7d"

/-- Whether a command of a caller is taken: it has to be well formed, and the event loop has to be
running. -/
def accept (c : Client σ) (command : ClientCommand) : Except SendError Unit :=
  let fault : Option Outgoing.RequestError :=
    match command with
    | .send request =>
      match request.command with
      | .error err => some err
      | .ok _ => none
    | _ => none
  match fault with
  | some err => .error (.request err)
  | none => if c.stopped then .error .sessionFreed else .ok ()

/-! ### Elementary steps -/

/-- Adds a note to the log. -/
def note (c : Client σ) (n : Note) : Client σ := { c with log := n :: c.log }

/-- Operates on the session, and takes its journal into the log. -/
def act (c : Client σ) (operation : Session σ → Session σ) : Client σ :=
  let s := operation c.session
  { c with
    session := { s with journal := [] }
    log := s.journal.map .session ++ c.log }

/-- Makes a lifecycle call; a refused one changes nothing. -/
def attempt (c : Client σ) (call : LifecycleCall) : Client σ := c.act (·.attempt call)

/-- Begins an attempt to connect. -/
def dial (c : Client σ) : Client σ :=
  let config := c.session.engine.config
  { c with dialing := true }.note (.dialed config.host config.port config.tls)

/-- Closes the transport and forgets what belongs to the connection. -/
def shutdown (c : Client σ) : Client σ :=
  { c with socketOpen := false, buffer := [], keepalive := none }.note .closed

/-- Closes the transport and tells the session that the connection is gone. -/
def lose (c : Client σ) (reason : String) : Client σ := c.shutdown.attempt (.disconnected reason)

/-- Hands lines to the transport until one fails. -/
def writeLines (c : Client σ) : List String → Client σ × Option TransportError
  | [] => (c, none)
  | line :: rest =>
    let failure := c.writes.head?.join
    let written :=
      { c with
        session := { c.session with outbox := rest }
        writes := c.writes.tail }.note (.wrote line failure)
    match failure with
    | some err => (written, some err)
    | none => writeLines written rest

/-- Hands the queued lines to the transport.  A line that fails is gone, those behind it stay. -/
def flush (c : Client σ) : Client σ × Option TransportError := c.writeLines c.session.outbox

end Client

end Irc
