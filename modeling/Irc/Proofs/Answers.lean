/-
How lifecycle calls are answered.

All calls but that of the keepalive timer name an action, and are answered as the lifecycle
table answers it.  What a call adds to the action goes before it, as the farewell of a quit
does, or after it, as do the first lines of a connection and the news that one has failed.
So a call is its action with a foreword and an afterword, and neither moves what the table
has decided.

* **`Lifecycle.row_of_freed`**, **`Lifecycle.waits_of_row`** — what the table says of the end
  and of waiting;
* **`Engine.call_eq_map`** — a call of an action is answered as the action is;
* **`Engine.call_eq_ok_iff`**, **`Engine.call_eq_error_iff`** — what it comes to, and when it
  is refused;
* **`Engine.standing_answer`** — what only the action decides;
* **`Engine.call_cases`**, **`Engine.turn_cases`** — what calls and operations come to, in all.
-/
import Irc.Proofs.Phases

namespace Irc

open Outgoing Lifecycle

/-! ### What the table says -/

namespace Lifecycle

variable {state : ConnectionState} {action : Action} {row : Transition}

/-- The actions that end a session. -/
theorem row_of_freed (hrow : transition? state action = some row) (hfreed : row.freed = true) :
    row.next = .disconnected ∧ state ≠ .connected ∧ action ≠ .connectFinish ∧
      action ≠ .reconnect := by
  cases state <;> cases action <;>
    simp only [transition?, Option.some.injEq, reduceCtorEq] at hrow <;> subst hrow <;>
    first
      | exact absurd hfreed Bool.false_ne_true
      | decide

/-- To wait is ordered, and so is the end of it. -/
theorem waits_of_row (hrow : transition? state action = some row) :
    (row.next = .reconnecting ↔ row.duty = some .armBackoff) ∧
      (state = .reconnecting → row.duty = some .startConnect ∨ row.duty = some .cancelBackoff) := by
  cases state <;> cases action <;>
    simp only [transition?, Option.some.injEq, reduceCtorEq] at hrow <;> subst hrow <;> decide

/-- A connection that was not there was opened. -/
theorem row_of_connected (hrow : transition? state action = some row)
    (hnext : row.next = .connected) : state = .connected ∨ action = .connectFinish := by
  cases state <;> cases action <;>
    simp only [transition?, Option.some.injEq, reduceCtorEq] at hrow <;> subst hrow <;>
    first
      | exact absurd hnext (by decide)
      | decide

/-- A session that is over waits for nothing. -/
theorem duty_of_freed (hrow : transition? state action = some row) (hfreed : row.freed = true) :
    row.duty ≠ some .armBackoff := by
  intro hduty
  have hnext : row.next = .disconnected := (row_of_freed hrow hfreed).1
  rw [(waits_of_row hrow).1.mpr hduty] at hnext
  exact absurd hnext (by decide)

end Lifecycle

/-! ### Forewords and afterwords -/

/-- The action that a call is for.  The keepalive timer names none. -/
def LifecycleCall.action? : LifecycleCall → Option Action
  | .apply action => some action
  | .connect | .timerFired => some .connect
  | .connectFinished _ => some .connectFinish
  | .connectFailed _ => some .connectFail
  | .disconnect => some .disconnect
  | .disconnected _ => some .disconnectFinish
  | .quit _ => some .quit
  | .keepaliveTick _ => none

/-- When the connection was made that a call opens, if it opens one. -/
def LifecycleCall.opens? : LifecycleCall → Option Instant
  | .connectFinished now => some now
  | _ => none

namespace Engine

variable {e : Engine} {c : LifecycleCall} {action : Action} {a b : Answer}
  {refusal : IllegalTransition}

@[simp] theorem engine_register (e : Engine) : e.register.engine = e := by
  rw [register]
  cases e.config.password <;> simp

@[simp] theorem effects_register (e : Engine) : e.register.effects = [] := by
  rw [register]
  cases e.config.password <;> simp [Turn.queue]

theorem engine_beginConnection (e : Engine) (now : Instant) :
    (e.beginConnection now).engine =
      { e with nickname := e.config.nickname, nickAttempt := 0, epoch := now, link := {} } := by
  simp [beginConnection, resetLink, Turn.update]

theorem effects_beginConnection (e : Engine) (now : Instant) :
    (e.beginConnection now).effects = e.resetLink.effects := by
  simp only [beginConnection, Turn.report, Turn.effects_andThen, effects_report, effects_register,
    List.append_nil]
  rfl

/-- What a call does before its action. -/
def foreword (e : Engine) : LifecycleCall → Turn
  | .quit reason => if e.state = .connected then e.queue (.quit reason) else e.stay
  | _ => e.stay

/-- What a call that found the engine `e` does after its action was answered with `b`. -/
def afterword (e : Engine) (b : Answer) : LifecycleCall → Engine → Turn
  | .connectFinished now => (·.beginConnection now)
  | .connectFailed reason =>
    match b.progress with
    | .freed => stay
    | .ongoing => (·.report (.connectFailed reason b.retryIn) [])
  | .disconnected reason =>
    match b.progress with
    | .freed => resetLink
    | .ongoing => fun e' =>
      e'.resetLink.report (.disconnected (e.lossReason reason) b.retryIn) []
  | _ => stay

/-- The answer to a call whose action was answered with `b`. -/
def answer (e : Engine) (c : LifecycleCall) (b : Answer) : Answer :=
  { b with turn := (e.foreword c).andThen fun _ => b.turn.andThen (e.afterword b c) }

@[simp] theorem engine_foreword (e : Engine) (c : LifecycleCall) : (e.foreword c).engine = e := by
  cases c with
  | quit reason =>
    rw [foreword]
    split_ifs
    · exact e.engine_queue _
    · rfl
  | _ => rfl

@[simp] theorem effects_foreword (e : Engine) (c : LifecycleCall) :
    (e.foreword c).effects = [] := by
  cases c with
  | quit reason =>
    rw [foreword]
    split_ifs
    · exact e.effects_queue _
    · rfl
  | _ => rfl

/-- What the lifecycle table alone decides of an engine. -/
def standing (e : Engine) : ConnectionState × Option Action × Backoff × Bool :=
  (e.state, e.lastAction, e.backoff, e.freed)

/-- The engine after an afterword, which may begin a connection or end one. -/
theorem engine_afterword (e : Engine) (b : Answer) (c : LifecycleCall) (e' : Engine) :
    (∃ now, c.opens? = some now ∧ (e.afterword b c e').engine =
        { e' with nickname := e'.config.nickname, nickAttempt := 0, epoch := now, link := {} }) ∨
      c.opens? = none ∧ ((e.afterword b c e').engine = e' ∨
        (e.afterword b c e').engine = { e' with link := {} }) := by
  cases c with
  | connectFinished now => exact .inl ⟨now, rfl, e'.engine_beginConnection now⟩
  | connectFailed reason =>
    rw [afterword]
    cases b.progress <;> exact .inr ⟨rfl, .inl rfl⟩
  | disconnected reason =>
    rw [afterword]
    cases b.progress <;> exact .inr ⟨rfl, .inr rfl⟩
  | _ => exact .inr ⟨rfl, .inl rfl⟩

theorem standing_afterword (e : Engine) (b : Answer) (c : LifecycleCall) (e' : Engine) :
    (e.afterword b c e').engine.standing = e'.standing := by
  rcases e.engine_afterword b c e' with ⟨now, -, h⟩ | ⟨-, h | h⟩ <;>
    exact (congrArg standing h).trans rfl

/-- An action ends the session just when the table says so. -/
theorem progress_taken (e : Engine) (action : Action) (row : Transition) :
    (e.taken action row).progress = .freed ↔ row.freed = true := by
  rw [taken]
  cases row.freed <;> simp

/-- An afterword orders nothing but that keepalive stops. -/
theorem effects_afterword (e : Engine) (b : Answer) (c : LifecycleCall) (e' : Engine) :
    ∀ effect ∈ (e.afterword b c e').effects, effect = .stopKeepalive := by
  have hreset : ∀ effect ∈ e'.resetLink.effects, effect = .stopKeepalive := by
    rw [effects_resetLink]
    split_ifs <;> simp
  cases c with
  | connectFinished now =>
    rw [afterword, effects_beginConnection]
    exact hreset
  | connectFailed reason =>
    rw [afterword]
    cases b.progress <;> exact fun _ h => absurd h List.not_mem_nil
  | disconnected reason =>
    rw [afterword]
    cases b.progress with
    | freed => exact hreset
    | ongoing =>
      simp only [Turn.report, Turn.effects_andThen, effects_report, List.append_nil]
      exact hreset
  | _ => exact fun _ h => absurd h List.not_mem_nil

/-- A call leaves the standing of an engine to its action. -/
theorem standing_answer (e : Engine) (c : LifecycleCall) (b : Answer) :
    (e.answer c b).turn.engine.standing = b.turn.engine.standing :=
  e.standing_afterword b c b.turn.engine

/-- A call orders what its action orders, and its afterword. -/
theorem effects_answer (e : Engine) (c : LifecycleCall) (b : Answer) :
    (e.answer c b).turn.effects =
      b.turn.effects ++ (e.afterword b c b.turn.engine).effects := by
  rw [answer, Turn.effects_andThen, Turn.effects_andThen, effects_foreword, List.nil_append]

/-- The answer to a call without a foreword. -/
theorem answer_eq (e : Engine) (c : LifecycleCall) (b : Answer) (hfore : e.foreword c = e.stay) :
    e.answer c b = b.andThen (e.afterword b c) := by
  rw [answer, hfore, Turn.stay_andThen, Answer.andThen]

/-! ### Calls and operations -/

/-- A call for an action is answered as the action is. -/
theorem call_eq_map (hc : c.action? = some action) :
    e.call c = (e.apply action).map (e.answer c) := by
  -- a call that adds nothing is its action
  have hplain : (∀ b, e.answer c b = b) → e.apply action = (e.apply action).map (e.answer c) := by
    intro h
    cases e.apply action with
    | error refusal => rfl
    | ok b => exact congrArg Except.ok (h b).symm
  have hstay : ∀ b : Answer, b.andThen stay = b := fun b => by
    rw [Answer.andThen, Turn.andThen_stay]
  cases c with
  | apply action' =>
    obtain rfl := Option.some_inj.mp hc
    exact hplain fun b => (e.answer_eq _ b rfl).trans (hstay b)
  | connect =>
    obtain rfl := Option.some_inj.mp hc
    exact hplain fun b => (e.answer_eq _ b rfl).trans (hstay b)
  | disconnect =>
    obtain rfl := Option.some_inj.mp hc
    exact hplain fun b => (e.answer_eq _ b rfl).trans (hstay b)
  | timerFired =>
    obtain rfl := Option.some_inj.mp hc
    exact hplain fun b => (e.answer_eq _ b rfl).trans (hstay b)
  | connectFinished now =>
    obtain rfl := Option.some_inj.mp hc
    rw [call, connectFinished]
    cases e.apply .connectFinish with
    | error refusal => rfl
    | ok b => exact congrArg Except.ok (e.answer_eq (.connectFinished now) b rfl).symm
  | connectFailed reason =>
    obtain rfl := Option.some_inj.mp hc
    rw [call, connectFailed]
    cases e.apply .connectFail with
    | error refusal => rfl
    | ok b =>
      obtain ⟨progress, retryIn, turn⟩ := b
      cases progress with
      | freed =>
        exact congrArg Except.ok ((e.answer_eq (.connectFailed reason) _ rfl).trans (hstay _)).symm
      | ongoing => exact congrArg Except.ok (e.answer_eq (.connectFailed reason) _ rfl).symm
  | disconnected reason =>
    obtain rfl := Option.some_inj.mp hc
    rw [call, disconnected]
    cases e.apply .disconnectFinish with
    | error refusal => rfl
    | ok b =>
      obtain ⟨progress, retryIn, turn⟩ := b
      cases progress with
      | freed => exact congrArg Except.ok (e.answer_eq (.disconnected reason) _ rfl).symm
      | ongoing =>
        have hanswer := e.answer_eq (.disconnected reason) ⟨.ongoing, retryIn, turn⟩ rfl
        refine congrArg Except.ok (Eq.trans ?_ hanswer.symm)
        simp only [Answer.andThen, Turn.andThen_assoc]
        rfl
  | quit reason =>
    obtain rfl := Option.some_inj.mp hc
    have hengine := e.engine_foreword (.quit reason)
    rw [foreword] at hengine
    rw [call, quit, hengine]
    cases e.apply .quit with
    | error refusal => rfl
    | ok b =>
      refine congrArg Except.ok ?_
      simp only [answer, afterword, Turn.andThen_stay]
      rfl
  | keepaliveTick now => exact absurd hc (by simp [LifecycleCall.action?])

/-- What a call for an action comes to. -/
theorem call_eq_ok_iff (hc : c.action? = some action) :
    e.call c = .ok a ↔
      e.freed = false ∧ ∃ row, transition? e.state action = some row ∧
        a = e.answer c (e.taken action row) := by
  rw [call_eq_map hc]
  constructor
  · intro h
    cases hb : e.apply action with
    | error refusal =>
      rw [hb] at h
      exact absurd h (by simp [Except.map])
    | ok b =>
      rw [hb] at h
      obtain ⟨hfreed, row, hrow, rfl⟩ := apply_eq_ok_iff.mp hb
      exact ⟨hfreed, row, hrow, (Except.ok.inj h).symm⟩
  · rintro ⟨hfreed, row, hrow, rfl⟩
    rw [apply_eq_ok_iff.mpr ⟨hfreed, row, hrow, rfl⟩]
    rfl

theorem apply_eq_error_iff :
    e.apply action = .error refusal ↔
      (e.freed = true ∨ transition? e.state action = none) ∧ refusal = ⟨e.state, action⟩ := by
  rw [apply, transition]
  cases hfreed : e.freed with
  | true => simp [eq_comm]
  | false =>
    cases transition? e.state action with
    | none => simp [eq_comm]
    | some row => simp

/-- When a call for an action is refused, and with which words. -/
theorem call_eq_error_iff (hc : c.action? = some action) :
    e.call c = .error refusal ↔
      (e.freed = true ∨ transition? e.state action = none) ∧ refusal = ⟨e.state, action⟩ := by
  rw [call_eq_map hc, ← apply_eq_error_iff]
  cases e.apply action with
  | error refusal' => rfl
  | ok b => simp only [Except.map, reduceCtorEq]

/-- What an accepted call has done: it took the action that it is for, or keepalive has given the
server up, or keepalive has asked for a sign of life or had nothing to do. -/
theorem call_cases (ha : e.call c = .ok a) :
    (∃ action row, c.action? = some action ∧ transition? e.state action = some row ∧
        a = e.answer c (e.taken action row)) ∨
      (∃ row, c.action? = none ∧ transition? e.state .reconnect = some row ∧
          a = e.taken .reconnect row) ∨
        c.action? = none ∧ a.progress = .ongoing ∧ Response e a.turn := by
  cases hc : c.action? with
  | some action =>
    obtain ⟨-, row, hrow, rfl⟩ := (call_eq_ok_iff hc).mp ha
    exact .inl ⟨action, row, rfl, hrow, rfl⟩
  | none =>
    cases c with
    | keepaliveTick now =>
      rcases keepaliveTick_eq_ok ha with rfl | ⟨token, rfl⟩ | hgave
      · exact .inr (.inr ⟨rfl, rfl, .stay e⟩)
      · exact .inr (.inr ⟨rfl, rfl, .queue e _⟩)
      · obtain ⟨-, row, hrow, rfl⟩ := apply_eq_ok_iff.mp hgave
        exact .inr (.inl ⟨row, rfl, hrow, rfl⟩)
    | _ => exact absurd hc (by simp [LifecycleCall.action?])

/-- A call that names no action leaves the engine as it is, or gives the server up. -/
theorem call_of_no_action (hc : c.action? = none) (ha : e.call c = .ok a) :
    a.turn.engine = e ∨ ∃ row, e.freed = false ∧ transition? e.state .reconnect = some row ∧
      a = e.taken .reconnect row := by
  cases c with
  | keepaliveTick now =>
    rcases keepaliveTick_eq_ok ha with rfl | ⟨token, rfl⟩ | hgave
    · exact .inl rfl
    · exact .inl (e.engine_queue _)
    · obtain ⟨hfreed, row, hrow, rfl⟩ := apply_eq_ok_iff.mp hgave
      exact .inr ⟨row, hfreed, hrow, rfl⟩
  | _ => exact absurd hc (by simp [LifecycleCall.action?])

/-- An operation is an accepted call, or the engine handles input or does nothing. -/
theorem turn_cases (e : Engine) (op : Operation) :
    (∃ c a, op = .call c ∧ e.call c = .ok a ∧ e.turn op = a.turn) ∨ Response e (e.turn op) := by
  cases op with
  | call c =>
    rw [turn]
    cases ha : e.call c with
    | error refusal => exact .inr (.stay e)
    | ok a => exact .inl ⟨c, a, rfl, ha, rfl⟩
  | line line now => exact .inr (e.response_handleLine line now)
  | message m now => exact .inr (e.response_handleMessage m now)
  | undecodable cause => exact .inr (e.response_reportUndecodable cause)
  | send r => exact .inr (.stay e)
  | pollOutgoing => exact .inr (.stay e)
  | pollEffect => exact .inr (.stay e)

end Engine

/-- A call that the table allows is accepted. -/
theorem Session.call_of_row {σ : Type} {s : Session σ} {c : LifecycleCall} {action : Action}
    {row : Transition} (hc : c.action? = some action) (hfreed : s.engine.freed = false)
    (hrow : transition? s.engine.state action = some row) :
    s.call c = .ok (if row.freed then .freed else .ongoing,
      s.perform (s.engine.answer c (s.engine.taken action row)).turn) := by
  rw [Session.call, (Engine.call_eq_ok_iff hc).mpr ⟨hfreed, row, hrow, rfl⟩]
  rfl

/-- An accepted call is the engine's answer, taken in. -/
theorem Session.answer_of_call {σ : Type} {s after : Session σ} {c : LifecycleCall}
    {progress : Progress} (h : s.call c = .ok (progress, after)) :
    ∃ a, s.engine.call c = .ok a ∧ a.progress = progress ∧ after = s.perform a.turn := by
  rw [Session.call] at h
  split at h
  · exact absurd h (by simp)
  rename_i a ha
  obtain ⟨hprogress, hafter⟩ := Prod.mk.inj (Except.ok.inj h)
  exact ⟨a, ha, hprogress, hafter.symm⟩

end Irc
