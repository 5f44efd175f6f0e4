/-
Sessions.

A `Session` is an engine with its event handler and two queues, of lines for
the server and of effects for the caller.  Every operation is a turn of the
engine whose outputs are then taken in one by one: lines and effects go to the
queues, and at each report the handler is called and may queue lines of its own.

The journal notes in order, latest first, every line and every effect that was
queued and every call of the handler.  Taking lines and effects out of the queues
leaves no note, so the journal of a run tells all that was ever queued.
-/
import Irc.Session.Handler

namespace Irc

open Outgoing

/-- A note in the journal of a session. -/
inductive Entry where
  /-- A line was queued. -/
  | queued (line : String)
  /-- An effect was queued. -/
  | ordered (effect : Effect)
  /-- The handler was called, and tried to send some requests. -/
  | reported (event : Event) (context : Context) (results : List (Except SendError Unit))

/-- An engine with its handler and its queues. -/
structure Session (σ : Type) where
  id : SessionId
  engine : Engine
  handler : Handler σ
  memory : σ
  /-- Lines for the server, oldest first. -/
  outbox : List String
  /-- Orders to the caller, oldest first. -/
  effects : List Effect
  /-- What happened, latest first. -/
  journal : List Entry

namespace Session

variable {σ : Type}

/-- A new session. -/
def start (id : SessionId) (config : Config) (now : Instant) (handler : Handler σ) (memory : σ) :
    Session σ :=
  ⟨id, Engine.start config now, handler, memory, [], [], []⟩

/-! ### Taking outputs in -/

/-- Queues a line. -/
def queueLine (s : Session σ) (line : String) : Session σ :=
  { s with outbox := s.outbox ++ [line], journal := .queued line :: s.journal }

/-- Queues an effect. -/
def queueEffect (s : Session σ) (effect : Effect) : Session σ :=
  { s with effects := s.effects ++ [effect], journal := .ordered effect :: s.journal }

/-- Calls the handler and queues the lines it puts out. -/
def callHandler (s : Session σ) (event : Event) (tags : List Tag) (seen : Engine) : Session σ :=
  let context : Context := ⟨s.id, seen, tags⟩
  let settled := (s.handler.react event context s.memory).settle seen
  settled.lines.foldl queueLine
    { s with
      memory := settled.memory
      journal := .reported event context settled.results :: s.journal }

/-- Takes one output in. -/
def absorb (s : Session σ) : Output → Session σ
  | .line text => s.queueLine text
  | .dropLines => { s with outbox := [] }
  | .effect effect => s.queueEffect effect
  | .report event tags seen => s.callHandler event tags seen

/-- Takes a turn of the engine in. -/
def perform (s : Session σ) (turn : Turn) : Session σ :=
  turn.outputs.foldl absorb { s with engine := turn.engine }

/-! ### Operations -/

/-- Makes a lifecycle call. -/
def call (s : Session σ) (c : LifecycleCall) : Except IllegalTransition (Progress × Session σ) :=
  match s.engine.call c with
  | .error refusal => .error refusal
  | .ok answer => .ok (answer.progress, s.perform answer.turn)

/-- Makes a lifecycle call; a refused one changes nothing. -/
def attempt (s : Session σ) (c : LifecycleCall) : Session σ :=
  match s.call c with
  | .error _ => s
  | .ok (_, after) => after

/-- Handles a received line. -/
def handleLine (s : Session σ) (line : String) (now : Instant) : Session σ :=
  s.perform (s.engine.handleLine line now)

/-- Handles a message. -/
def handleMessage (s : Session σ) (m : Message) (now : Instant) : Session σ :=
  s.perform (s.engine.handleMessage m now)

/-- Reports bytes that are no line. -/
def reportUndecodable (s : Session σ) (cause : FramingError) : Session σ :=
  s.perform (s.engine.reportUndecodable cause)

/-- Handles a frame of the byte stream. -/
def handleFrame (s : Session σ) (now : Instant) : Frame → Session σ
  | .ok line => s.handleLine line now
  | .error cause => s.reportUndecodable cause

/-- Sends a request of the caller. -/
def send (s : Session σ) (r : Request) : Except SendError (Session σ) :=
  match s.engine.linesFor r with
  | .error err => .error err
  | .ok lines => .ok (lines.foldl queueLine s)

/-- Takes the oldest line out of its queue. -/
def pollOutgoing (s : Session σ) : Option (String × Session σ) :=
  match s.outbox with
  | [] => none
  | line :: rest => some (line, { s with outbox := rest })

/-- Takes the oldest effect out of its queue. -/
def pollEffect (s : Session σ) : Option (Effect × Session σ) :=
  match s.effects with
  | [] => none
  | effect :: rest => some (effect, { s with effects := rest })

/-- A short description of the session. -/
def describe (s : Session σ) : String :=
  "Session \x7b id: SessionId(" ++ toString s.id.number ++ "), server: " ++
    Text.quoted s.engine.config.name ++ ", state: " ++ s.engine.state.word ++ ", nickname: " ++
    Text.quoted s.engine.nickname ++ ", .. \x7d"

end Session

/-- The operations on a session. -/
inductive Operation where
  | call (c : LifecycleCall)
  | line (line : String) (now : Instant)
  | message (m : Message) (now : Instant)
  | undecodable (cause : FramingError)
  | send (r : Request)
  | pollOutgoing
  | pollEffect
deriving DecidableEq

namespace Session

variable {σ : Type}

/-- Carries an operation out; what is refused changes nothing. -/
def operate (s : Session σ) : Operation → Session σ
  | .call c => s.attempt c
  | .line line now => s.handleLine line now
  | .message m now => s.handleMessage m now
  | .undecodable cause => s.reportUndecodable cause
  | .send r =>
    match s.send r with
    | .error _ => s
    | .ok after => after
  | .pollOutgoing =>
    match s.pollOutgoing with
    | none => s
    | some (_, after) => after
  | .pollEffect =>
    match s.pollEffect with
    | none => s
    | some (_, after) => after

/-- Carries operations out in order. -/
def run (s : Session σ) (ops : List Operation) : Session σ := ops.foldl operate s

end Session

end Irc
