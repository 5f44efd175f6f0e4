/-
The event loop of a client.

Between its waits the loop carries out the orders of the session and does what
the state of the connection asks for; `Client.settle` takes it to the next wait.
At a wait the loop takes up whatever comes first: `Client.wake` is one turn of
the loop, and `Client.run` any number of them.  Nothing in it depends on the
order in which things come, so a run is a list of wakes.

A wake has one time, and it serves for the whole turn: what the loop does
between two waits takes no time of its own.

* `Client.runEffects` goes twice over the queue of orders, because closing the
  socket adds orders to the timers and those add no more.
* `Client.settle` is two rounds, because a lost connection needs one more and a
  round at a wait changes nothing.
-/
import Irc.Client.Basic

namespace Irc

/-- What wakes a waiting event loop. -/
inductive Wake where
  /-- The attempt to connect has ended. -/
  | dialed (outcome : Except TransportError Unit)
  /-- Bytes have come in; none of them means the end of the stream. -/
  | read (outcome : Except TransportError (List UInt8))
  | command (command : ClientCommand)
  /-- Nobody is left who could give a command. -/
  | abandoned
  /-- The keepalive timer has run out. -/
  | keepalive
  /-- The reconnect timer has run out. -/
  | timer

namespace Client

variable {σ : Type}

/-! ### Orders of the session -/

/-- Carries an order out.  Connecting and calling an attempt off follow from the state. -/
def carryOut (now : Instant) (c : Client σ) (effect : Effect) : Client σ :=
  if c.breakdown.isSome then
    c
  else
    match effect with
    | .closeSocket => c.flush.1.lose "Connection closed"
    | .forceClose => c.lose "Connection reset"
    | .armBackoff delay =>
      match now.after? delay with
      | some deadline => { c with reconnectAt := some deadline }
      | none => { c with breakdown := some .deadlineTooLate }
    | .cancelBackoff => { c with reconnectAt := none }
    | .startKeepalive period =>
      match Ticker.start now period with
      | .ok ticker => { c with keepalive := some ticker }
      | .error cause => { c with breakdown := some cause }
    | .stopKeepalive => { c with keepalive := none }
    | .startConnect | .cancelConnect | .forceCancel | .resetBackoff => c

/-- Carries the queued orders out; new ones may be queued by that. -/
def takeEffects (c : Client σ) (now : Instant) : Client σ :=
  c.session.effects.foldl (carryOut now) { c with session := { c.session with effects := [] } }

/-- Carries all orders out. -/
def runEffects (c : Client σ) (now : Instant) : Client σ := (c.takeEffects now).takeEffects now

/-! ### From one wait to the next -/

/-- Carries all orders out, and does what the state asks for. -/
def round (c : Client σ) (now : Instant) : Client σ :=
  if c.stopped then
    c
  else
    let c := c.runEffects now
    if c.stopped then
      c
    else
      match c.state with
      | .disconnected | .reconnecting => c
      | .connecting => if c.dialing then c else c.dial
      | .connected =>
        match c.flush with
        | (c, none) => c
        | (c, some err) => c.lose err.message
      | .disconnecting | .quitting => c.lose "Connection closed"

/-- Goes on to the next wait. -/
def settle (c : Client σ) (now : Instant) : Client σ := (c.round now).round now

/-! ### Waking up -/

/-- Whether a deadline is set and has come. -/
def isDue (deadline : Option Instant) (now : Instant) : Bool :=
  match deadline with
  | some t => t.nanos ≤ now.nanos
  | none => false

/-- Whether the loop waits for something, at a given time. -/
def awaits (c : Client σ) (now : Instant) : Wake → Bool
  | .dialed _ => c.dialing
  | .read _ => c.state = .connected
  | .command _ | .abandoned => true
  | .keepalive => c.state = .connected && (c.keepalive.any (·.isDue now))
  | .timer => c.state = .reconnecting && isDue c.reconnectAt now

/-- Calls the attempt to connect off when the session has turned away from it. -/
def reconsider (c : Client σ) : Client σ :=
  if c.dialing && c.state ≠ .connecting then
    { c with dialing := false }.shutdown.attempt (.connectFailed "Connection cancelled")
  else
    c

/-- Follows a command; what the session refuses changes nothing. -/
def obey (c : Client σ) (command : ClientCommand) : Client σ :=
  (match command with
    | .connect => c.attempt .connect
    | .disconnect => c.attempt .disconnect
    | .quit reason => c.attempt (.quit reason)
    | .send request => c.act (·.operate (.send request))).reconsider

/-- Takes received bytes in and handles the lines they complete.  None of them ends the connection,
so it makes no difference that all are taken off the buffer before the first is handled. -/
def takeBytes (c : Client σ) (now : Instant) (bytes : List UInt8) : Client σ :=
  let (frames, framer, left) := c.framer.feed c.buffer bytes
  frames.foldl (fun c frame => c.act (·.handleFrame now frame))
    { c with framer := framer, buffer := left }

/-- Lets the keepalive timer run on after a tick. -/
def tick (c : Client σ) (now : Instant) : Client σ :=
  { c with keepalive := c.keepalive.map (·.next now) }

/-- Answers what has woken the loop. -/
def answer (c : Client σ) (now : Instant) : Wake → Client σ
  | .dialed (.ok ()) =>
    ({ c with
      dialing := false
      socketOpen := true
      buffer := []
      framer := c.framer.reset }.note .opened).attempt (.connectFinished now)
  | .dialed (.error err) =>
    { c with dialing := false }.shutdown.attempt (.connectFailed err.message)
  | .read (.ok []) => c.lose "Connection closed by peer"
  | .read (.ok bytes) => c.takeBytes now bytes
  | .read (.error err) => c.lose err.message
  | .command command => c.obey command
  | .abandoned => c.obey (.quit none)
  | .keepalive => (c.tick now).attempt (.keepaliveTick now)
  | .timer => { c with reconnectAt := none }.attempt .timerFired

/-- One turn of the loop: something the loop waits for is answered, and the loop goes on to its
next wait.  What it does not wait for is left alone. -/
def wake (c : Client σ) (now : Instant) (w : Wake) : Client σ :=
  if c.stopped || !c.awaits now w then c else (c.answer now w).settle now

/-- Turns of the loop, one after the other. -/
def run (c : Client σ) (wakes : List (Instant × Wake)) : Client σ :=
  wakes.foldl (fun c w => c.wake w.1 w.2) c

end Client

end Irc
