/-
Rehearsals.

A `Rehearsal` is a client on a stage: the outcomes of its attempts to connect are
laid down beforehand, received chunks wait in a queue, and the clock stands still
unless it is moved.  After each `Cue` the client is woken for as long as there is
something for it to do.
-/
import Irc.Client.Loop

namespace Irc

/-- What becomes of an attempt to connect. -/
inductive DialOutcome where
  | succeeds
  | fails (cause : TransportError)
  | hangs
deriving DecidableEq

/-- A client on a stage. -/
structure Rehearsal (σ : Type) where
  client : Client σ
  /-- What the clock shows. -/
  now : Instant
  /-- What becomes of the coming attempts to connect; those beyond the list succeed. -/
  dials : List DialOutcome
  /-- What there is to read, oldest first. -/
  inbound : List (Except TransportError (List UInt8))
  /-- Whether callers still hold the client. -/
  held : Bool

/-- A step of the script. -/
inductive Cue where
  /-- A caller gives a command. -/
  | command (command : ClientCommand)
  /-- The transport gets something to read. -/
  | receive (outcome : Except TransportError (List UInt8))
  /-- The next write will fail. -/
  | breakWrite (cause : TransportError)
  /-- The next closing will fail, which nobody heeds. -/
  | breakClose (cause : TransportError)
  /-- The clock moves on. -/
  | advance (millis : Nat)
  /-- The callers let go of the client. -/
  | letGo

namespace Rehearsal

variable {σ : Type}

/-- The stage before the first cue. -/
def start (session : Session σ) (dials : List DialOutcome) : Rehearsal σ where
  client := Client.start session []
  now := ⟨0⟩
  dials := dials
  inbound := []
  held := true

/-- Wakes the client.  An outcome is used up when its attempt ends. -/
def wake (r : Rehearsal σ) (w : Wake) : Rehearsal σ :=
  let client := r.client.wake r.now w
  let attemptEnded := r.client.dialing && !client.dialing
  { r with
    client := client
    dials := if attemptEnded then r.dials.tail else r.dials }

/-- What the client has to do next, if anything, and the stage with that taken from it. -/
def ready? (r : Rehearsal σ) : Option (Wake × Rehearsal σ) :=
  match r.client.state with
  | .connecting =>
    match r.dials with
    | [] | .succeeds :: _ => some (.dialed (.ok ()), r)
    | .fails cause :: _ => some (.dialed (.error cause), r)
    | .hangs :: _ => none
  | .connected =>
    match r.inbound with
    | outcome :: rest => some (.read outcome, { r with inbound := rest })
    | [] => some (.keepalive, r)
  | .reconnecting => some (.timer, r)
  | _ => none

/-- Lets the client do what there is to do, `fuel` things at most. -/
def settleWithin : Nat → Rehearsal σ → Rehearsal σ
  | 0, r => r
  | fuel + 1, r =>
    match r.ready? with
    | none => r
    | some (w, next) =>
      if !r.client.stopped && r.client.awaits r.now w then settleWithin fuel (next.wake w) else r

/-- Enough for all there can be to do: each thing ends an attempt, reads a chunk, ticks the
keepalive or follows a loss of the connection. -/
def workload (r : Rehearsal σ) : Nat :=
  let ticks :=
    match r.client.keepalive with
    | some t => (r.now.nanos - t.deadline.nanos) / t.period.nanos + 1
    | none => 0
  4 * (r.dials.length + r.inbound.length + r.client.writes.length + ticks + 1)

/-- Lets the client do all there is to do. -/
def settle (r : Rehearsal σ) : Rehearsal σ := settleWithin r.workload r

/-- What a caller is told who gives a command; nothing when there is no caller. -/
def told (r : Rehearsal σ) (command : ClientCommand) : Option (Except SendError Unit) :=
  if r.held then some (r.client.accept command) else none

/-- Plays a cue. -/
def play (r : Rehearsal σ) (cue : Cue) : Rehearsal σ :=
  match cue with
  | .command command =>
    match r.told command with
    | some (.ok ()) => (r.wake (.command command)).settle
    | _ => r
  | .receive outcome => { r with inbound := r.inbound ++ [outcome] }.settle
  | .breakWrite cause => { r with client := { r.client with writes := [some cause] } }
  | .breakClose _ => r
  | .advance millis => { r with now := ⟨r.now.nanos + millis * nanosPerMilli⟩ }.settle
  | .letGo => ({ r with held := false }.wake .abandoned).settle

end Rehearsal

end Irc
