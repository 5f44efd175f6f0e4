/-
Lifecycle calls.

The caller tells the engine what happens to the connection and what it wants of
it.  A call that the lifecycle table does not allow is refused with an error
and changes nothing; an accepted one says whether the session goes on.
-/
import Irc.Engine.Basic

namespace Irc

open Outgoing Lifecycle

/-- Whether a session goes on. -/
inductive Progress where
  | ongoing
  | freed
deriving DecidableEq

/-- The answer to an accepted lifecycle call. -/
structure Answer where
  progress : Progress
  /-- The wait before the next attempt, if the call arranged one. -/
  retryIn : Option Duration
  turn : Turn
deriving DecidableEq

/-- The answer with more to the turn. -/
def Answer.andThen (a : Answer) (next : Engine → Turn) : Answer :=
  { a with turn := a.turn.andThen next }

namespace Engine

/-! ### The table -/

/-- The wait between attempts after an action. -/
def backoffAfter (e : Engine) (action : Action) : Option Duty → Backoff
  | some .resetBackoff => e.backoff.succeed
  | some .armBackoff => if action = .connectFail then e.backoff.fail else e.backoff
  | _ => e.backoff

/-- The order that a duty comes to. -/
def effectOf (wait : Duration) : Duty → Effect
  | .startConnect => .startConnect
  | .cancelConnect => .cancelConnect
  | .forceCancel => .forceCancel
  | .closeSocket => .closeSocket
  | .forceClose => .forceClose
  | .armBackoff => .armBackoff wait
  | .cancelBackoff => .cancelBackoff
  | .resetBackoff => .resetBackoff

/-- Takes an action by the lifecycle table. -/
def apply (e : Engine) (action : Action) : Except IllegalTransition Answer :=
  if e.freed then
    .error ⟨e.state, action⟩
  else
    match transition e.state action with
    | .error refusal => .error refusal
    | .ok t =>
      let backoff := e.backoffAfter action t.duty
      let moved :=
        { e with state := t.next, lastAction := some action, backoff := backoff, freed := t.freed }
      let effects := (t.duty.map (effectOf backoff.current)).toList.map Output.effect
      .ok {
        progress := if t.freed then .freed else .ongoing
        retryIn := if t.duty = some .armBackoff then some backoff.current else none
        turn := ⟨moved, effects ++ if t.freed then [.dropLines] else []⟩ }

/-! ### Calls -/

/-- The caller wants a connection. -/
def connect (e : Engine) : Except IllegalTransition Answer := e.apply .connect

/-- The caller wants the connection closed and no new one. -/
def disconnect (e : Engine) : Except IllegalTransition Answer := e.apply .disconnect

/-- The reconnect timer has run out. -/
def timerFired (e : Engine) : Except IllegalTransition Answer := e.apply .connect

/-- The caller wants the session to end; the server is told first. -/
def quit (e : Engine) (reason : Option String) : Except IllegalTransition Answer :=
  let farewell := if e.state = .connected then e.queue (.quit reason) else e.stay
  match farewell.engine.apply .quit with
  | .error refusal => .error refusal
  | .ok a => .ok { a with turn := farewell.andThen fun _ => a.turn }

/-- The lines that open a connection: capabilities, password, nickname, user. -/
def register (e : Engine) : Turn :=
  let opened := e.queue (.capLs (some "302"))
  let admitted := match e.config.password with
    | some password => opened.queue (.pass password)
    | none => opened
  (admitted.queue (.nick e.nickname)).queue (.user e.config.username e.config.realname)

/-- A new connection begins: nothing of the last one counts, and the client
registers with its preferred nickname. -/
def beginConnection (e : Engine) (now : Instant) : Turn :=
  (((e.resetLink).update fun e =>
      { e with nickname := e.config.nickname, nickAttempt := 0, epoch := now }).andThen
    register).report .connected []

/-- The connection attempt has succeeded. -/
def connectFinished (e : Engine) (now : Instant) : Except IllegalTransition Answer :=
  match e.apply .connectFinish with
  | .error refusal => .error refusal
  | .ok a => .ok (a.andThen (·.beginConnection now))

/-- The connection attempt has failed or was called off. -/
def connectFailed (e : Engine) (reason : String) : Except IllegalTransition Answer :=
  match e.apply .connectFail with
  | .error refusal => .error refusal
  | .ok a =>
    match a.progress with
    | .freed => .ok a
    | .ongoing => .ok (a.andThen (·.report (.connectFailed reason a.retryIn) []))

/-- The reason that is reported for a lost connection.  After the keepalive
gave up, that is the reason. -/
def lossReason (e : Engine) (reason : String) : String :=
  if e.lastAction = some .reconnect then "Ping timed out" else reason

/-- The connection is gone. -/
def disconnected (e : Engine) (reason : String) : Except IllegalTransition Answer :=
  match e.apply .disconnectFinish with
  | .error refusal => .error refusal
  | .ok a =>
    let ended := a.andThen resetLink
    match a.progress with
    | .freed => .ok ended
    | .ongoing =>
      .ok (ended.andThen (·.report (.disconnected (e.lossReason reason) a.retryIn) []))

/-- An answer that changes nothing but the turn. -/
def ongoing (t : Turn) : Answer := ⟨.ongoing, none, t⟩

/-- The keepalive timer has run out: the server is asked for a sign of life, or
given up when it was silent for longer than the timeout. -/
def keepaliveTick (e : Engine) (now : Instant) : Except IllegalTransition Answer :=
  if e.state ≠ .connected then
    .ok (ongoing e.stay)
  else
    match e.link.keepalive with
    | none => .ok (ongoing e.stay)
    | some lastAnswer =>
      if e.config.timing.pingTimeout.nanos < (now.since lastAnswer).nanos then
        e.apply .reconnect
      else
        .ok (ongoing (e.queue (.ping (toString (now.millisSince e.epoch)))))

end Engine

/-- The lifecycle calls. -/
inductive LifecycleCall where
  | apply (action : Action)
  | connect
  | connectFinished (now : Instant)
  | connectFailed (reason : String)
  | disconnect
  | disconnected (reason : String)
  | quit (reason : Option String)
  | timerFired
  | keepaliveTick (now : Instant)
deriving DecidableEq

/-- Makes a lifecycle call. -/
def Engine.call (e : Engine) : LifecycleCall → Except IllegalTransition Answer
  | .apply action => e.apply action
  | .connect => e.connect
  | .connectFinished now => e.connectFinished now
  | .connectFailed reason => e.connectFailed reason
  | .disconnect => e.disconnect
  | .disconnected reason => e.disconnected reason
  | .quit reason => e.quit reason
  | .timerFired => e.timerFired
  | .keepaliveTick now => e.keepaliveTick now

end Irc
