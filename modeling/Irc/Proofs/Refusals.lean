/-
Refused calls.

A lifecycle call does what it does step by step, and it may be refused on the way: a quit has
the farewell queued before the lifecycle table is asked.  `Session.Steps` are steps on a
session that a refusal does not take back, and `Steps.call` is a lifecycle call in such steps.
It comes to what `Session.call` says, and where that is a refusal nothing has been done.

* **`Engine.farewell_of_refused`** — no farewell is left behind by a quit that is refused;
* **`Session.perform_andThen`** — turns one after the other are taken in as one;
* **`Session.carryOut_act`** — an action in steps is the action that the engine takes;
* **`Session.carryOut_call`** — a call in steps is the call;
* **`Session.refused_unchanged`** — a refused call changes nothing.
-/
import Irc.Proofs.Answers
import Irc.Proofs.Intake

namespace Irc

open Outgoing Lifecycle

/-- The table lets a connection go, so a quit is refused only when the session is over, and then
no farewell is queued. -/
theorem Engine.farewell_of_refused {e : Engine} {refusal : IllegalTransition}
    (hstate : e.state = .connected) (h : e.apply .quit = .error refusal)
    (reason : Option String) : e.queue (.quit reason) = e.stay := by
  obtain ⟨hwhy, -⟩ := apply_eq_error_iff.mp h
  have hallowed : transition? e.state .quit ≠ none := by
    rw [hstate]
    exact Option.some_ne_none _
  have hfreed : e.freed = true := hwhy.resolve_right hallowed
  exact queue_of_not_open (not_open_of_freed hfreed) _

namespace Session

variable {σ α β : Type}

/-! ### Turns one after the other -/

theorem absorb_with_engine (s : Session σ) (e : Engine) (o : Output) :
    { s with engine := e }.absorb o = { s.absorb o with engine := e } := by
  cases o with
  | report event tags seen => simp only [absorb, callHandler, queueLines_eq]
  | line text => rfl
  | dropLines => rfl
  | effect effect => rfl

theorem absorbAll_with_engine (outputs : List Output) (s : Session σ) (e : Engine) :
    outputs.foldl absorb { s with engine := e } = { outputs.foldl absorb s with engine := e } := by
  induction outputs generalizing s with
  | nil => rfl
  | cons o outputs ih => rw [List.foldl_cons, absorb_with_engine, ih, List.foldl_cons]

/-- Turns one after the other are taken in as one. -/
theorem perform_perform (s : Session σ) (t t' : Turn) :
    (s.perform t).perform t' = s.perform ⟨t'.engine, t.outputs ++ t'.outputs⟩ := by
  simp only [perform, List.foldl_append, absorbAll_with_engine]

theorem perform_andThen (s : Session σ) (t : Turn) (next : Engine → Turn) :
    s.perform (t.andThen next) = (s.perform t).perform (next t.engine) :=
  (s.perform_perform t _).symm

@[simp] theorem engine_perform (s : Session σ) (t : Turn) : (s.perform t).engine = t.engine :=
  (s.frame_perform t).1

/-! ### Steps -/

/-- Steps on a session that may end in a refusal, which does not take back what was done. -/
abbrev Steps (σ α : Type) := ExceptT IllegalTransition (StateM (Session σ)) α

namespace Steps

/-- Takes a turn of the engine in. -/
def perform (turn : Engine → Turn) : Steps σ Unit := modify fun s => s.perform (turn s.engine)

/-- Looks an action up in the table. -/
def lookUp (state : ConnectionState) (action : Action) : Steps σ Transition :=
  match transition state action with
  | .ok row => return row
  | .error refusal => throw refusal

/-- Does what the table asks for.  If that is to wait, the answer is how long. -/
def discharge (action : Action) : Option Duty → Steps σ (Option Duration)
  | none => return none
  | some .armBackoff => do
    if action = .connectFail then
      perform fun e => e.stay.update fun e => { e with backoff := e.backoff.fail }
    let wait := (← get).engine.backoff.current
    perform (·.order (.armBackoff wait))
    return some wait
  | some .resetBackoff => do
    perform fun e => e.stay.update fun e => { e with backoff := e.backoff.succeed }
    perform (·.order .resetBackoff)
    return none
  | some .startConnect => do perform (·.order .startConnect); return none
  | some .cancelConnect => do perform (·.order .cancelConnect); return none
  | some .forceCancel => do perform (·.order .forceCancel); return none
  | some .closeSocket => do perform (·.order .closeSocket); return none
  | some .forceClose => do perform (·.order .forceClose); return none
  | some .cancelBackoff => do perform (·.order .cancelBackoff); return none

/-- Takes an action. -/
def act (action : Action) : Steps σ (Progress × Option Duration) := do
  let e := (← get).engine
  if e.freed then
    throw ⟨e.state, action⟩
  let row ← lookUp e.state action
  perform fun e => e.stay.update fun e => { e with state := row.next, lastAction := some action }
  let wait ← discharge action row.duty
  if row.freed then
    perform fun e => ⟨{ e with freed := true }, [.dropLines]⟩
    return (.freed, none)
  return (.ongoing, wait)

/-- Makes a lifecycle call. -/
def call : LifecycleCall → Steps σ Progress
  | .apply action => return (← act action).1
  | .connect => return (← act .connect).1
  | .disconnect => return (← act .disconnect).1
  | .timerFired => return (← act .connect).1
  | .quit reason => do
    if (← get).engine.state = .connected then
      perform (·.queue (.quit reason))
    return (← act .quit).1
  | .connectFinished now => do
    let (progress, _) ← act .connectFinish
    perform (·.beginConnection now)
    return progress
  | .connectFailed reason => do
    let (progress, retryIn) ← act .connectFail
    if progress = .ongoing then
      perform (·.report (.connectFailed reason retryIn) [])
    return progress
  | .disconnected reason => do
    let told := (← get).engine.lossReason reason
    let (progress, retryIn) ← act .disconnectFinish
    perform Engine.resetLink
    if progress = .ongoing then
      perform (·.report (.disconnected told retryIn) [])
    return progress
  | .keepaliveTick now => do
    let e := (← get).engine
    if e.state ≠ .connected then
      return .ongoing
    match e.link.keepalive with
    | none => return .ongoing
    | some lastAnswer =>
      if e.config.timing.pingTimeout.nanos < (now.since lastAnswer).nanos then
        return (← act .reconnect).1
      perform (·.queue (.ping (toString (now.millisSince e.epoch))))
      return .ongoing

/-- Carries steps out: how they end, and the session that they leave. -/
def carryOut (steps : Steps σ α) (s : Session σ) : Except IllegalTransition α × Session σ :=
  (ExceptT.run steps).run s

variable (s : Session σ)

@[simp] theorem carryOut_pure (a : α) : (pure a : Steps σ α).carryOut s = (.ok a, s) := rfl

@[simp] theorem carryOut_throw (refusal : IllegalTransition) :
    (throw refusal : Steps σ α).carryOut s = (.error refusal, s) := rfl

@[simp] theorem carryOut_get : (get : Steps σ (Session σ)).carryOut s = (.ok s, s) := rfl

@[simp] theorem carryOut_perform (turn : Engine → Turn) :
    (perform turn).carryOut s = (.ok (), s.perform (turn s.engine)) := rfl

theorem carryOut_bind (first : Steps σ α) (next : α → Steps σ β) :
    (first >>= next).carryOut s =
      match first.carryOut s with
      | (.ok a, after) => (next a).carryOut after
      | (.error refusal, after) => (.error refusal, after) := by
  rcases h : first.carryOut s with ⟨answer, after⟩
  have hrun : (ExceptT.run first).run s = (answer, after) := h
  rw [carryOut, ExceptT.run_bind, StateT.run_bind, hrun]
  cases answer <;> rfl

end Steps

/-! ### Actions in steps -/

theorem carryOut_discharge (s : Session σ) (action : Action) (duty : Option Duty) :
    (Steps.discharge action duty).carryOut s =
      (.ok (if duty = some .armBackoff then
          some (s.engine.backoffAfter action duty).current else none),
        s.perform
          ⟨{ s.engine with backoff := s.engine.backoffAfter action duty },
            (duty.map (Engine.effectOf (s.engine.backoffAfter action duty).current)).toList.map
              Output.effect⟩) := by
  cases duty with
  | none => rfl
  | some duty =>
    cases duty with
    | armBackoff =>
      by_cases hfail : action = .connectFail
      · subst hfail
        rfl
      · simp only [Steps.discharge, Engine.backoffAfter, if_neg hfail]
        rfl
    | _ => rfl

theorem carryOut_lookUp (s : Session σ) (state : ConnectionState) (action : Action) :
    (Steps.lookUp state action).carryOut s =
      match transition? state action with
      | some row => (.ok row, s)
      | none => (.error ⟨state, action⟩, s) := by
  rw [Steps.lookUp, transition]
  cases transition? state action <;> rfl

/-- An action in steps is the action that the engine takes. -/
theorem carryOut_act (s : Session σ) (action : Action) :
    (Steps.act action).carryOut s =
      match s.engine.apply action with
      | .error refusal => (.error refusal, s)
      | .ok a => (.ok (a.progress, a.retryIn), s.perform a.turn) := by
  cases happly : s.engine.apply action with
  | error refusal =>
    obtain ⟨hwhy, rfl⟩ := Engine.apply_eq_error_iff.mp happly
    cases hfreed : s.engine.freed with
    | true => simp [Steps.act, Steps.carryOut_bind, hfreed]
    | false =>
      have hrow : transition? s.engine.state action = none := hwhy.resolve_left (by simp [hfreed])
      simp [Steps.act, Steps.carryOut_bind, carryOut_lookUp, hfreed, hrow]
  | ok a =>
    obtain ⟨hfreed, row, hrow, rfl⟩ := Engine.apply_eq_ok_iff.mp happly
    simp only [Steps.act, Steps.carryOut_bind, Steps.carryOut_get, carryOut_lookUp, hfreed, hrow,
      Steps.carryOut_perform, carryOut_discharge, engine_perform, perform_perform, Turn.update,
      Engine.stay, Engine.taken, Bool.false_eq_true, if_false]
    -- the end of a session is a step of its own, and leaves no wait behind
    cases hends : row.freed with
    | false => simp [Engine.backoffAfter]
    | true =>
      simp only [Steps.carryOut_bind, Steps.carryOut_perform, Steps.carryOut_pure, perform_perform,
        engine_perform, if_true, if_neg (duty_of_freed hrow hends), Engine.backoffAfter,
        List.nil_append]

/-! ### Calls in steps -/

/-- A call that is its action and nothing else. -/
theorem carryOut_plain (s : Session σ) (action : Action) :
    (do return (← Steps.act action).1 : Steps σ Progress).carryOut s =
      match s.engine.apply action with
      | .error refusal => (.error refusal, s)
      | .ok a => (.ok a.progress, s.perform a.turn) := by
  rw [Steps.carryOut_bind, carryOut_act]
  cases s.engine.apply action <;> rfl

/-- A call in steps is the call, and when it is refused, nothing was done. -/
theorem carryOut_call (s : Session σ) (c : LifecycleCall) :
    (Steps.call c).carryOut s =
      match s.call c with
      | .error refusal => (.error refusal, s)
      | .ok (progress, after) => (.ok progress, after) := by
  rw [Session.call]
  cases c with
  | apply action =>
    rw [Steps.call, carryOut_plain, Engine.call]
    cases s.engine.apply action <;> rfl
  | connect =>
    rw [Steps.call, carryOut_plain, Engine.call, Engine.connect]
    cases s.engine.apply .connect <;> rfl
  | disconnect =>
    rw [Steps.call, carryOut_plain, Engine.call, Engine.disconnect]
    cases s.engine.apply .disconnect <;> rfl
  | timerFired =>
    rw [Steps.call, carryOut_plain, Engine.call, Engine.timerFired]
    cases s.engine.apply .connect <;> rfl
  | connectFinished now =>
    simp only [Steps.call, Steps.carryOut_bind, carryOut_act, Engine.call, Engine.connectFinished]
    cases s.engine.apply .connectFinish with
    | error refusal => rfl
    | ok a =>
      simp only [Steps.carryOut_perform, Steps.carryOut_pure, engine_perform, Answer.andThen,
        perform_andThen]
  | connectFailed reason =>
    simp only [Steps.call, Steps.carryOut_bind, carryOut_act, Engine.call, Engine.connectFailed]
    cases s.engine.apply .connectFail with
    | error refusal => rfl
    | ok a =>
      cases hprogress : a.progress with
      | freed => simp [hprogress]
      | ongoing =>
        simp only [Steps.carryOut_bind, Steps.carryOut_perform, Steps.carryOut_pure, if_true,
          engine_perform, Answer.andThen, perform_andThen, hprogress]
  | disconnected reason =>
    simp only [Steps.call, Steps.carryOut_bind, Steps.carryOut_get, carryOut_act, Engine.call,
      Engine.disconnected]
    cases s.engine.apply .disconnectFinish with
    | error refusal => rfl
    | ok a =>
      cases hprogress : a.progress with
      | freed => simp [Answer.andThen, perform_andThen, hprogress]
      | ongoing =>
        simp only [Steps.carryOut_bind, Steps.carryOut_perform, Steps.carryOut_pure, if_true,
          engine_perform, Answer.andThen, perform_andThen, hprogress]
        rfl
  | quit reason =>
    simp only [Steps.call, Steps.carryOut_bind, Steps.carryOut_get, Engine.call, Engine.quit]
    by_cases hstate : s.engine.state = .connected
    · simp only [if_pos hstate, Steps.carryOut_bind, Steps.carryOut_perform, carryOut_act,
        engine_perform, Engine.engine_queue]
      cases hquit : s.engine.apply .quit with
      | error refusal =>
        rw [Engine.farewell_of_refused hstate hquit]
        rfl
      | ok a => simp only [Steps.carryOut_pure, perform_andThen]
    · simp only [if_neg hstate, Steps.carryOut_bind, carryOut_act, Engine.engine_stay,
        Turn.stay_andThen]
      cases s.engine.apply .quit <;> rfl
  | keepaliveTick now =>
    simp only [Steps.call, Steps.carryOut_bind, Steps.carryOut_get, Engine.call,
      Engine.keepaliveTick]
    split_ifs with hstate
    · rfl
    cases s.engine.link.keepalive with
    | none => rfl
    | some lastAnswer =>
      dsimp only
      split_ifs
      · simp only [Steps.carryOut_bind, carryOut_act]
        cases s.engine.apply .reconnect <;> rfl
      · rfl

/-- **A refused call changes nothing.**  A lifecycle call is refused if the session is over or
the table does not allow its action; then the session is as it was, its queues, its handler and
its journal included, whatever the call does before it is refused. -/
theorem refused_unchanged (s : Session σ) (c : LifecycleCall) {refusal : IllegalTransition}
    {after : Session σ} (h : (Steps.call c).carryOut s = (.error refusal, after)) :
    after = s ∧ s.call c = .error refusal := by
  rw [carryOut_call] at h
  cases hcall : s.call c with
  | error refusal' =>
    rw [hcall, Prod.mk.injEq, Except.error.injEq] at h
    exact ⟨h.2.symm, congrArg Except.error h.1⟩
  | ok answer =>
    rw [hcall] at h
    exact absurd (Prod.mk.inj h).1 (by simp)

/-- A client that is connected and has not yet sent what it says first.  It cannot be told to
connect, and what it has to send stays. -/
theorem refused_unchanged_of_connected :
    let s : Session Unit := (start ⟨1⟩ (Config.forServer "host" 6667 "me") ⟨0⟩ .idle ()).run
      [.call .connect, .call (.connectFinished ⟨0⟩)]
    let tried := (Steps.call .connect).carryOut s
    tried.1 = .error ⟨.connected, .connect⟩ ∧ tried.2 = s ∧ s.outbox.length = 3 := by
  intro s tried
  have hrefused : tried.1 = .error ⟨.connected, .connect⟩ := rfl
  have hunchanged := refused_unchanged s .connect (Prod.ext hrefused rfl : tried = (_, tried.2))
  exact ⟨hrefused, hunchanged.1, by decide +kernel⟩

end Session

end Irc
