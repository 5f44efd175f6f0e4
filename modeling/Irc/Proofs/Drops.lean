/-
Messages that are dropped.

A line that is no message and a message that lacks parameters are dropped: the handler is told,
and nothing else is done.  A numeric reply is not checked before it is handled but in the midst
of it, reply by reply, so `Session.Guarded` handles messages in steps that a missing parameter
ends without taking anything back.  It comes to what `Session.handleMessage` says, which checks
first.

* **`Session.handleMessage_eq_dispatch`** — handling in steps is handling;
* **`Engine.turn_of_input_cases`** — input is dropped, or it is handled;
* **`Session.dropped_untouched`** — what is dropped leaves the session as it was.
-/
import Irc.Proofs.Backoff
import Irc.Proofs.Influence
import Irc.Proofs.Refusals
import Irc.Proofs.Reports

namespace Irc

open Outgoing

/-! ### Handling in steps -/

namespace Session

variable {σ α : Type}

/-- Steps of handling a message, which end where a parameter is missing.  What was done before
that is not taken back. -/
abbrev Guarded (σ α : Type) := ExceptT MissingParameters (StateM (Session σ)) α

namespace Guarded

/-- Goes on only with `n` parameters at least. -/
def demand (m : Message) (n : Nat) : Guarded σ Unit :=
  match m.require n with
  | .error missing => throw missing
  | .ok () => return ()

/-- Takes a turn of the engine in. -/
def perform (turn : Engine → Turn) : Guarded σ Unit := modify fun s => s.perform (turn s.engine)

/-- A numeric reply.  Each kind demands its own parameters, and the handler is told at the end. -/
def numeric (m : Message) (code : Nat) (now : Instant) : Guarded σ Unit :=
  let tell : Guarded σ Unit :=
    perform (·.report (.numeric (Actor.ofMessage m) code m.args) m.tags)
  match Reply.ofCode? code with
  | some .welcome => do
    demand m 1
    perform (·.welcome m now)
    tell
  | some .userModeIs => do
    demand m 2
    perform (·.report (.userMode (Actor.ofMessage m) (m.arg 0) (m.argsFrom 1)) m.tags)
  | some .nicknameInUse => do
    if (← get).engine.link.registered then
      tell
    else
      demand m 2
      perform Engine.retryNickname
      tell
  | some reply => do
    perform (·.react m now reply)
    tell
  | none => tell

/-- A message. -/
def dispatch (m : Message) (now : Instant) : Guarded σ Unit :=
  match Route.ofMessage m with
  | .numeric code => numeric m code now
  | route => do
    demand m (route.arity (← get).engine.link.registered)
    perform (·.route m now route)

/-- Carries steps out.  If a parameter was missing, the handler is told at the end. -/
def finish (steps : Guarded σ Unit) (s : Session σ) : Session σ :=
  match (ExceptT.run steps).run s with
  | (.ok (), after) => after
  | (.error missing, after) =>
    after.perform (after.engine.report (.anomaly (.violation missing)) [])

variable (s : Session σ) (turn : Engine → Turn) (rest : Guarded σ Unit)

theorem finish_perform : (perform turn).finish s = s.perform (turn s.engine) := rfl

theorem finish_perform_bind :
    (perform turn >>= fun _ => rest).finish s = rest.finish (s.perform (turn s.engine)) := rfl

theorem finish_get_bind (next : Session σ → Guarded σ Unit) :
    (get >>= next).finish s = (next s).finish s := rfl

theorem finish_demand_bind (m : Message) (n : Nat) :
    (demand m n >>= fun _ => rest).finish s =
      if m.argCount < n then
        s.perform (s.engine.report (.anomaly (.violation ⟨m.command, n, m.argCount⟩)) [])
      else rest.finish s := by
  rw [demand, Message.require]
  split_ifs <;> rfl

theorem finish_tell (event : Event) (tags : List Tag) :
    (perform turn >>= fun _ => perform (·.report event tags)).finish s =
      s.perform ((turn s.engine).report event tags) := by
  rw [finish_perform_bind, finish_perform, engine_perform, Turn.report, perform_andThen]

end Guarded

/-- A numeric reply that is handled in steps is checked and then handled. -/
theorem Guarded.finish_numeric (s : Session σ) (m : Message) (code : Nat) (now : Instant) :
    (Guarded.numeric m code now).finish s =
      if m.argCount < (Route.numeric code).arity s.engine.link.registered then
        s.perform (s.engine.report (.anomaly (.violation
          ⟨m.command, (Route.numeric code).arity s.engine.link.registered, m.argCount⟩)) [])
      else s.perform (s.engine.numeric m code now) := by
  rw [Guarded.numeric, Engine.numeric]
  cases hreply : Reply.ofCode? code with
  | none =>
    have harity : (Route.numeric code).arity s.engine.link.registered = 0 := by
      simp only [Route.arity, hreply]
    rw [harity, if_neg (Nat.not_lt_zero _)]
    rfl
  | some reply =>
    cases reply with
    | welcome =>
      have harity : (Route.numeric code).arity s.engine.link.registered = 1 := by
        simp only [Route.arity, hreply]
      rw [harity]
      simp only [finish_demand_bind, finish_tell]
      rfl
    | userModeIs =>
      have harity : (Route.numeric code).arity s.engine.link.registered = 2 := by
        simp only [Route.arity, hreply]
      rw [harity]
      simp only [finish_demand_bind, finish_perform]
    | nicknameInUse =>
      have harity : (Route.numeric code).arity s.engine.link.registered =
          if s.engine.link.registered then 0 else 2 := by
        simp only [Route.arity, hreply]
      rw [harity]
      -- a client that is registered has nothing to demand
      cases hregistered : s.engine.link.registered with
      | true =>
        simp only [finish_get_bind, finish_perform, Engine.react, hregistered, if_true,
          Nat.not_lt_zero, if_false]
        rfl
      | false =>
        simp only [finish_get_bind, finish_demand_bind, finish_tell, Engine.react, hregistered,
          Bool.false_eq_true, if_false]
    | _ =>
      have harity : (Route.numeric code).arity s.engine.link.registered = 0 := by
        simp only [Route.arity, hreply]
      rw [harity, if_neg (Nat.not_lt_zero _)]
      exact finish_tell _ _ _ _

/-- **Handling in steps is handling.** -/
theorem handleMessage_eq_dispatch (s : Session σ) (m : Message) (now : Instant) :
    s.handleMessage m now = (Guarded.dispatch m now).finish s := by
  have hchecked : s.handleMessage m now =
      if m.argCount < (Route.ofMessage m).arity s.engine.link.registered then
        s.perform (s.engine.report (.anomaly (.violation
          ⟨m.command, (Route.ofMessage m).arity s.engine.link.registered, m.argCount⟩)) [])
      else s.perform (s.engine.route m now (Route.ofMessage m)) := by
    rw [handleMessage, Engine.handleMessage, Message.require]
    split_ifs <;> rfl
  rw [hchecked, Guarded.dispatch]
  cases hroute : Route.ofMessage m with
  | numeric code => exact (Guarded.finish_numeric s m code now).symm
  | _ => simp only [Guarded.finish_get_bind, Guarded.finish_demand_bind, Guarded.finish_perform]

end Session

/-! ### What is dropped -/

/-- The handler is told that what was received cannot be used. -/
def Event.IsDrop : Event → Prop
  | .anomaly (.unparsable ..) | .anomaly (.violation _) => True
  | _ => False

theorem Event.isDrop_unparsable (text : String) (cause : ParseError) :
    (Event.anomaly (.unparsable text cause)).IsDrop := trivial

theorem Event.isDrop_violation (missing : MissingParameters) :
    (Event.anomaly (.violation missing)).IsDrop := trivial

/-- No route drops what it handles. -/
theorem Route.Reports.not_isDrop {route : Route} {event : Event} (h : route.Reports event) :
    ¬ event.IsDrop := by
  cases event with
  | anomaly anomaly =>
    cases anomaly with
    | unknownCapability cause => exact id
    | undecodable cause => exact id
    | unparsable line cause => exact h.elim
    | violation cause => exact h.elim
  | _ => exact id

/-- What a message is dropped with, if it is. -/
def Message.drop? (registered : Bool) (m : Message) : Option Event :=
  if m.argCount < m.required registered then
    some (.anomaly (.violation ⟨m.command, m.required registered, m.argCount⟩))
  else none

/-- What input is dropped with, if it is. -/
def Input.drop? (registered : Bool) : Input → Option Event
  | .line text _ =>
    match Message.parse text with
    | .error cause => some (.anomaly (.unparsable text cause))
    | .ok m => m.drop? registered
  | .message m _ => m.drop? registered
  | .undecodable _ => none

theorem Message.drop?_eq_some_iff {registered : Bool} {m : Message} {event : Event} :
    m.drop? registered = some event ↔ m.argCount < m.required registered ∧
      event = .anomaly (.violation ⟨m.command, m.required registered, m.argCount⟩) := by
  rw [drop?]
  split_ifs with hfew
  · rw [Option.some_inj, eq_comm, and_iff_right hfew]
  · simp [hfew]

/-- A line is dropped as no message just when it cannot be parsed. -/
theorem Input.drop?_eq_unparsable_iff {registered : Bool} {i : Input} {text : String}
    {cause : ParseError} :
    i.drop? registered = some (.anomaly (.unparsable text cause)) ↔
      ∃ now, i = .line text now ∧ Message.parse text = .error cause := by
  cases i with
  | line line now =>
    rw [drop?]
    cases hparse : Message.parse line with
    | error cause' =>
      rw [Option.some_inj, Event.anomaly.injEq, Anomaly.unparsable.injEq]
      constructor
      · rintro ⟨rfl, rfl⟩
        exact ⟨now, rfl, hparse⟩
      · rintro ⟨now', hline, hparse'⟩
        obtain ⟨rfl, -⟩ := Input.line.inj hline
        exact ⟨rfl, Except.error.inj (hparse.symm.trans hparse')⟩
    | ok m =>
      refine ⟨fun hdrop => absurd (Message.drop?_eq_some_iff.mp hdrop).2 (by simp), ?_⟩
      rintro ⟨now', hline, hparse'⟩
      obtain ⟨rfl, -⟩ := Input.line.inj hline
      exact absurd (hparse.symm.trans hparse') (by simp)
  | message m now =>
    refine ⟨fun hdrop => absurd (Message.drop?_eq_some_iff.mp hdrop).2 (by simp), ?_⟩
    rintro ⟨now', hline, -⟩
    exact absurd hline (by simp)
  | undecodable cause => simp [drop?]

/-- A message is dropped as one that lacks parameters just when it does. -/
theorem Input.drop?_eq_violation_iff {registered : Bool} {i : Input} {missing : MissingParameters} :
    i.drop? registered = some (.anomaly (.violation missing)) ↔
      ∃ m, i.operation.message? = some m ∧ m.argCount < m.required registered ∧
        missing = ⟨m.command, m.required registered, m.argCount⟩ := by
  have hmessage : ∀ m : Message, m.drop? registered = some (.anomaly (.violation missing)) ↔
      ∃ m', some m = some m' ∧ m'.argCount < m'.required registered ∧
        missing = ⟨m'.command, m'.required registered, m'.argCount⟩ := by
    intro m
    rw [Message.drop?_eq_some_iff, Event.anomaly.injEq, Anomaly.violation.injEq]
    simp only [Option.some_inj, exists_eq_left']
  cases i with
  | line text now =>
    rw [drop?, operation, Operation.message?_line]
    cases Message.parse text with
    | error cause => simp [Except.toOption]
    | ok m => exact hmessage m
  | message m now => exact hmessage m
  | undecodable cause => simp [drop?, operation, Operation.message?, Operation.received?]

namespace Engine

/-- **What input comes to.**  If it is dropped, the handler is told, and that is all; what is not
dropped is never reported as if it were. -/
theorem turn_of_input_cases (e : Engine) (i : Input) :
    (∃ event, i.drop? e.link.registered = some event ∧ event.IsDrop ∧
        e.turn i.operation = e.report event []) ∨
      i.drop? e.link.registered = none ∧
        ∀ event ∈ (e.turn i.operation).events, ¬ event.IsDrop := by
  have hmessage : ∀ m now, (∃ event, m.drop? e.link.registered = some event ∧ event.IsDrop ∧
      e.handleMessage m now = e.report event []) ∨
        m.drop? e.link.registered = none ∧
          ∀ event ∈ (e.handleMessage m now).events, ¬ event.IsDrop := by
    intro m now
    rw [Message.drop?]
    rcases e.handleMessage_cases m now with ⟨hfew, hturn⟩ | ⟨henough, hturn⟩
    · exact .inl ⟨_, if_pos hfew, trivial, hturn⟩
    · refine .inr ⟨if_neg (Nat.not_lt.mpr henough), ?_⟩
      rw [hturn]
      exact fun event hevent => ((e.follows_route m now _).follows event hevent).not_isDrop
  cases i with
  | line text now =>
    rw [Input.drop?, Input.operation, turn, handleLine]
    cases Message.parse text with
    | error cause => exact .inl ⟨_, rfl, trivial, rfl⟩
    | ok m => exact hmessage m now
  | message m now => exact hmessage m now
  | undecodable cause =>
    refine .inr ⟨rfl, fun event hevent => ?_⟩
    rw [List.mem_singleton.mp hevent]
    exact id

theorem mem_events_of_isDrop {e : Engine} {i : Input} {event : Event} (hdrop : event.IsDrop) :
    event ∈ (e.turn i.operation).events ↔ i.drop? e.link.registered = some event := by
  rcases e.turn_of_input_cases i with ⟨dropped, hdropped, -, hturn⟩ | ⟨hnone, hhandled⟩
  · rw [hturn, events_report, List.mem_singleton, hdropped, Option.some_inj, eq_comm]
  · rw [hnone]
    exact ⟨fun hevent => absurd hdrop (hhandled event hevent), fun h => absurd h (by simp)⟩

/-- A drop is all there is to the turn. -/
theorem turn_of_drop {e : Engine} {i : Input} {event : Event}
    (h : i.drop? e.link.registered = some event) : e.turn i.operation = e.report event [] := by
  rcases e.turn_of_input_cases i with ⟨dropped, hdropped, -, hturn⟩ | ⟨hnone, -⟩
  · rw [hturn, Option.some_inj.mp (hdropped.symm.trans h)]
  · exact absurd (hnone.symm.trans h) (by simp)

end Engine

namespace Session

variable {σ : Type}

/-- A handler that never sends anything leaves its note in the journal, and nothing else. -/
theorem callHandler_of_silent {s : Session σ} (hs : s.handler.Silent) (event : Event)
    (tags : List Tag) (seen : Engine) :
    ∃ memory, s.callHandler event tags seen =
      { s with
        memory := memory
        journal := .reported event ⟨s.id, seen, tags⟩ [] :: s.journal } := by
  obtain ⟨memory, hdone⟩ := hs event ⟨s.id, seen, tags⟩ s.memory
  refine ⟨memory, ?_⟩
  rw [callHandler, hdone]
  rfl

/-- **What is dropped leaves the session as it was.**  If a line or a message is reported as no
message, or as one that lacks parameters, then that is the one call of the handler, on the engine
as it was; and if the handler sends nothing, all that has changed of the session is the memory of
the handler and the note of the call.  A line is reported as no message just when it cannot be
parsed, and a message as one that lacks parameters just when it has fewer than it needs. -/
theorem dropped_untouched (s : Session σ) (i : Input) :
    let after := s.operate i.operation
    ∃ events, after.reported = s.reported ++ events ∧
      (∀ event ∈ events, event.IsDrop →
        events = [event] ∧ after = s.callHandler event [] s.engine ∧
          (s.handler.Silent → ∃ memory, after =
            { s with
              memory := memory
              journal := .reported event ⟨s.id, s.engine, []⟩ [] :: s.journal })) ∧
      (∀ text cause, .anomaly (.unparsable text cause) ∈ events ↔
        ∃ now, i = .line text now ∧ Message.parse text = .error cause) ∧
      ∀ missing, .anomaly (.violation missing) ∈ events ↔
        ∃ m, i.operation.message? = some m ∧
          m.argCount < m.required s.engine.link.registered ∧
          missing = ⟨m.command, m.required s.engine.link.registered, m.argCount⟩ := by
  intro after
  have hafter : after = s.perform (s.engine.turn i.operation) :=
    s.operate_eq_perform i.isTurn_operation
  refine ⟨(s.engine.turn i.operation).events, by rw [hafter, reported_perform], ?_, ?_, ?_⟩
  · intro event hevent hdrop
    have hturn := Engine.turn_of_drop ((Engine.mem_events_of_isDrop hdrop).mp hevent)
    have hcalled : after = s.callHandler event [] s.engine := by
      rw [hafter, hturn]
      rfl
    exact ⟨by rw [hturn, Engine.events_report], hcalled,
      fun hs => hcalled ▸ callHandler_of_silent hs event [] s.engine⟩
  · intro text cause
    rw [Engine.mem_events_of_isDrop (Event.isDrop_unparsable text cause),
      Input.drop?_eq_unparsable_iff]
  · intro missing
    rw [Engine.mem_events_of_isDrop (Event.isDrop_violation missing),
      Input.drop?_eq_violation_iff]

/-- A client that is told that its nickname is taken, but not which one, says and does nothing. -/
theorem dropped_untouched_of_short :
    let s : Session Unit := (start ⟨1⟩ (Config.forServer "host" 6667 "me") ⟨0⟩ .idle ()).run
      [.call .connect, .call (.connectFinished ⟨0⟩)]
    let after := s.operate (.line ":irc.host 433 *" ⟨1⟩)
    after.reported = s.reported ++ [.anomaly (.violation ⟨"433", 2, 1⟩)] ∧
      after.engine = s.engine ∧ after.outbox = s.outbox ∧ after.effects = s.effects := by
  intro s after
  obtain ⟨events, hreported, hdropped, -, hviolation⟩ :=
    dropped_untouched s (.line ":irc.host 433 *" ⟨1⟩)
  have hmessage : (Input.line ":irc.host 433 *" ⟨1⟩).operation.message? =
      some { source := some (.server "irc.host"), command := "433", middles := ["*"] } := by
    decide +kernel
  have hmem := (hviolation ⟨"433", 2, 1⟩).mpr ⟨_, hmessage, by decide +kernel, by decide +kernel⟩
  obtain ⟨hevents, -, hsame⟩ := hdropped _ hmem trivial
  obtain ⟨memory, hafter⟩ := hsame (by
    intro event context memory
    exact ⟨(), rfl⟩)
  refine ⟨hevents ▸ hreported, ?_, ?_, ?_⟩ <;> rw [show after = _ from hafter]

end Session

end Irc
