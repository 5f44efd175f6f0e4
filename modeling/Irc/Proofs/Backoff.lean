/-
How long the next attempt is put off.

Failed attempts to connect put the next one off by a step each, and a connection that opens
takes all of that back; an attempt that was called off does not count.  So the wait of a session
follows from the acts that made it what it is.  When an attempt has failed or a connection is
gone, the handler is told of the wait that the reconnect timer is set to, and of none if it is
not set.

* **`Backoff.Waits.fail`** — the wait after some failed attempts and one more;
* **`Act.backoff_after`** — what an act does to the wait;
* **`Engine.wait_of_armed`** — the timer is set to the wait as it is then;
* **`Engine.tells_of_news`** — what the handler is told, and what is ordered;
* **`Session.backoff_of_run`** — so it is in every run.
-/
import Irc.Proofs.Orders
import Irc.Proofs.Reconnect

namespace Irc

open Outgoing Lifecycle

/-! ### The wait -/

namespace Backoff

variable {b : Backoff} {failures : Nat}

/-- The wait is what it is after some failed attempts. -/
def Waits (b : Backoff) (failures : Nat) : Prop :=
  b.current.nanos = min Duration.maxNanos (b.base.nanos + failures * b.step.nanos)

theorem Waits.start (base step : Duration) : (start base step).Waits 0 := by
  have hbase := base.nanos_le_maxNanos
  simp only [Waits, Backoff.start]
  omega

theorem Waits.succeed (b : Backoff) : b.succeed.Waits 0 := Waits.start b.base b.step

/-- A failed attempt adds a step, as far as the wait can grow. -/
theorem Waits.fail (h : b.Waits failures) : b.fail.Waits (failures + 1) := by
  have hcurrent : b.fail.current.nanos = min (b.current.nanos + b.step.nanos) Duration.maxNanos :=
    rfl
  rw [Waits] at h
  rw [Waits, hcurrent, h, Nat.succ_mul]
  show _ = min _ (b.base.nanos + (failures * b.step.nanos + b.step.nanos))
  omega

end Backoff

/-- Whether an order sets the reconnect timer. -/
def Effect.arms : Effect → Bool
  | .armBackoff _ => true
  | _ => false

/-! ### Acts that make a wait what it is -/

namespace Act

/-- The action that an act takes, if it is a call for one and is not refused. -/
def action? (a : Act) : Option Action :=
  match a.op with
  | .call c => (a.engine.call c).toOption.bind fun _ => c.action?
  | _ => none

/-- The engine after an accepted call, and the action that it was for. -/
theorem after_of_call {e : Engine} {c : LifecycleCall} {b : Answer} (h : e.call c = .ok b) :
    after ⟨e, .call c⟩ = b.turn.engine ∧ action? ⟨e, .call c⟩ = c.action? := by
  simp only [after, turn, Engine.turn, action?, h, Except.toOption, Option.bind_some, and_self]

/-- A refused call changes nothing, and is for no action. -/
theorem after_of_refused {e : Engine} {c : LifecycleCall} {refusal : IllegalTransition}
    (h : e.call c = .error refusal) :
    after ⟨e, .call c⟩ = e ∧ action? ⟨e, .call c⟩ = none := by
  simp only [after, turn, Engine.turn, action?, h, Except.toOption, Option.bind_none,
    Engine.engine_stay, and_self]

/-- An attempt to connect has failed.  One that was called off has not. -/
def failed (a : Act) : Bool :=
  decide (a.engine.state = .connecting ∧ a.action? = some .connectFail)

/-- An attempt to connect has succeeded. -/
def succeeded (a : Act) : Bool := decide (a.action? = some .connectFinish)

/-- How many attempts have failed since the last one succeeded. -/
def failures (acts : List Act) : Nat :=
  (acts.reverse.takeWhile fun a => !a.succeeded).countP failed

theorem failures_concat (acts : List Act) (a : Act) :
    failures (acts ++ [a]) =
      if a.succeeded then 0 else failures acts + if a.failed then 1 else 0 := by
  rw [failures, List.reverse_concat, List.takeWhile_cons]
  cases a.succeeded with
  | true => rfl
  | false => exact List.countP_cons

end Act

namespace Engine

variable {e : Engine} {c : LifecycleCall} {b : Answer} {action : Action} {row : Transition}

/-- What the table says about the wait. -/
theorem backoffAfter_of_row (hrow : transition? e.state action = some row) :
    e.backoffAfter action row.duty =
      if action = .connectFinish then e.backoff.succeed
      else if e.state = .connecting ∧ action = .connectFail then e.backoff.fail
      else e.backoff := by
  cases hstate : e.state <;> cases action <;> rw [hstate] at hrow <;>
    simp only [transition?, Option.some.injEq, reduceCtorEq] at hrow <;> subst hrow <;>
    simp [backoffAfter]

theorem backoff_answer (e : Engine) (c : LifecycleCall) (b : Answer) :
    (e.answer c b).turn.engine.backoff = b.turn.engine.backoff :=
  congrArg (fun standing => standing.2.2.1) (e.standing_answer c b)

/-- What an accepted call does to the wait. -/
theorem backoff_call (h : e.call c = .ok b) :
    b.turn.engine.backoff =
      if c.action? = some .connectFinish then e.backoff.succeed
      else if e.state = .connecting ∧ c.action? = some .connectFail then e.backoff.fail
      else e.backoff := by
  rcases call_cases h with ⟨action, row, hc, hrow, rfl⟩ | ⟨row, hc, hrow, rfl⟩ | ⟨hc, -, hresponse⟩
  · rw [hc, backoff_answer]
    simp only [Option.some.injEq]
    exact backoffAfter_of_row hrow
  · have hsame := backoffAfter_of_row hrow
    rw [if_neg (by decide), if_neg (by simp)] at hsame
    rw [hc, if_neg (by decide), if_neg (by simp)]
    exact hsame
  · have hsame : b.turn.engine.backoff = e.backoff := congrArg Life.backoff hresponse.life
    rw [hc, if_neg (by decide), if_neg (by simp), hsame]

/-! ### The reconnect timer -/

theorem wait_of_armed_taken {wait : Duration}
    (h : .armBackoff wait ∈ (e.taken action row).turn.effects) :
    wait = (e.taken action row).turn.engine.backoff.current := by
  rw [effects_taken, Option.mem_toList, Option.map_eq_some_iff] at h
  obtain ⟨duty, -, horder⟩ := h
  cases duty with
  | armBackoff => exact (Effect.armBackoff.inj horder).symm
  | _ => exact absurd horder (by simp [effectOf])

/-- The reconnect timer is set to the wait as it is afterwards. -/
theorem wait_of_armed {op : Operation} {wait : Duration}
    (h : .armBackoff wait ∈ (e.turn op).effects) : wait = (e.turn op).engine.backoff.current := by
  -- handling input does not set it
  have hnever : ∀ {t : Turn}, Response e t → .armBackoff wait ∉ t.effects := by
    intro t ht hmem
    obtain ⟨o, ho, horder⟩ := List.mem_filterMap.mp hmem
    cases o with
    | effect order =>
      obtain rfl := Option.some_inj.mp horder
      exact ht.heard _ ho
    | _ => exact absurd horder (by simp [Output.effect?])
  rcases e.turn_cases op with ⟨c, b, -, hb, hturn⟩ | hresponse
  · rw [hturn] at h ⊢
    rcases call_cases hb with ⟨action, row, -, -, rfl⟩ | ⟨row, -, -, rfl⟩ | ⟨-, -, hresponse⟩
    · rw [backoff_answer]
      rw [effects_answer, List.mem_append] at h
      refine h.elim wait_of_armed_taken fun hafter => ?_
      exact absurd (e.effects_afterword _ c _ _ hafter) (by simp)
    · exact wait_of_armed_taken h
    · exact absurd h (hnever hresponse)
  · exact absurd h (hnever hresponse)

/-! ### The news of a failure or a loss -/

/-- What the handler is told, with the wait, when an attempt has failed or a connection is gone. -/
def news? (e : Engine) : LifecycleCall → Option (Option Duration → Event)
  | .connectFailed reason => some (.connectFailed reason)
  | .disconnected reason => some (.disconnected (e.lossReason reason))
  | _ => none

/-- Whether the reconnect timer is set, and to which wait: it is set once where the engine waits
to connect again, and not at all elsewhere. -/
def Awaits (e : Engine) (orders : List Effect) : Option Duration → Prop
  | some wait => e.state = .reconnecting ∧ orders.filter Effect.arms = [.armBackoff wait]
  | none => e.state ≠ .reconnecting ∧ orders.filter Effect.arms = []

theorem Awaits.congr {e' : Engine} {orders orders' : List Effect} {retryIn : Option Duration}
    (h : e.Awaits orders retryIn) (hstate : e'.state = e.state)
    (horders : orders'.filter Effect.arms = orders.filter Effect.arms) :
    e'.Awaits orders' retryIn := by
  cases retryIn <;> (rw [Awaits, hstate, horders]; exact h)

/-- The table sets the timer where it leads to a wait. -/
theorem awaits_taken (hrow : transition? e.state action = some row) :
    (e.taken action row).turn.engine.Awaits (e.taken action row).turn.effects
      (e.taken action row).retryIn := by
  have hwaits := (waits_of_row hrow).1
  rw [effects_taken, taken]
  by_cases hduty : row.duty = some .armBackoff
  · rw [if_pos hduty, hduty]
    exact ⟨hwaits.mpr hduty, rfl⟩
  · -- no other duty sets the timer
    rw [if_neg hduty]
    refine ⟨fun hnext => hduty (hwaits.mp hnext), ?_⟩
    cases h : row.duty with
    | none => rfl
    | some duty =>
      cases duty with
      | armBackoff => exact absurd h hduty
      | _ => rfl

/-- An afterword leaves the reconnect timer alone. -/
theorem arms_afterword (e : Engine) (b : Answer) (c : LifecycleCall) (e' : Engine) :
    (e.afterword b c e').effects.filter Effect.arms = [] := by
  rw [List.filter_eq_nil_iff]
  intro order horder
  rw [e.effects_afterword b c e' order horder]
  decide

/-- What is told after the action. -/
theorem events_afterword {tell : Option Duration → Event} (hnews : e.news? c = some tell)
    (hongoing : b.progress = .ongoing) (e' : Engine) :
    (e.afterword b c e').events = [tell b.retryIn] := by
  cases c with
  | connectFailed reason =>
    obtain rfl := Option.some_inj.mp hnews
    rw [afterword, hongoing]
    rfl
  | disconnected reason =>
    obtain rfl := Option.some_inj.mp hnews
    rw [afterword, hongoing]
    refine (Turn.events_andThen _ _).trans ?_
    rw [events_resetLink, events_report]
    rfl
  | _ => exact absurd hnews (by simp [news?])

/-- When an attempt has failed or a connection is gone, one event is told, and it says what the
reconnect timer is set to. -/
theorem tells_of_news {tell : Option Duration → Event} (hnews : e.news? c = some tell)
    (h : e.call c = .ok b) (hongoing : b.progress = .ongoing) :
    b.turn.events = [tell b.retryIn] ∧ b.turn.engine.Awaits b.turn.effects b.retryIn := by
  have hfore : e.foreword c = e.stay := by
    cases c with
    | quit reason => exact absurd hnews (by simp [news?])
    | _ => rfl
  have haction : c.action? ≠ none := by
    cases c <;> first | exact Option.some_ne_none _ | exact absurd hnews (by simp [news?])
  rcases call_cases h with ⟨action, row, -, hrow, rfl⟩ | ⟨row, hc, -⟩ | ⟨hc, -⟩
  · refine ⟨?_, (awaits_taken hrow).congr ?_ ?_⟩
    · rw [e.answer_eq c _ hfore]
      refine (Turn.events_andThen _ _).trans ?_
      have htold := events_afterword (b := e.taken action row) hnews hongoing
      rw [events_taken, htold]
      rfl
    · exact congrArg Prod.fst (e.standing_answer c _)
    · rw [effects_answer, List.filter_append, arms_afterword, List.append_nil]
  · exact absurd hc haction
  · exact absurd hc haction

end Engine

/-- What an act does to the wait. -/
theorem Act.backoff_after (a : Act) :
    a.after.backoff =
      if a.succeeded then a.engine.backoff.succeed
      else if a.failed then a.engine.backoff.fail
      else a.engine.backoff := by
  have hkept : a.action? = none → a.after.backoff = a.engine.backoff → a.after.backoff =
      if a.succeeded then a.engine.backoff.succeed
      else if a.failed then a.engine.backoff.fail
      else a.engine.backoff := by
    intro hnone hsame
    simp [succeeded, failed, hnone, hsame]
  obtain ⟨e, op⟩ := a
  cases op with
  | call c =>
    cases hcall : e.call c with
    | error refusal =>
      obtain ⟨hafter, haction⟩ := after_of_refused hcall
      exact hkept haction (congrArg Engine.backoff hafter)
    | ok b =>
      obtain ⟨hafter, haction⟩ := after_of_call hcall
      simp only [hafter, Engine.backoff_call hcall, succeeded, failed, haction, decide_eq_true_eq]
  | line line now => exact hkept rfl (congrArg Life.backoff (e.life_handleLine line now))
  | message m now => exact hkept rfl (congrArg Life.backoff (e.life_handleMessage m now))
  | _ => exact hkept rfl rfl

namespace Session

variable {σ : Type}

/-! ### In a run -/

/-- The wait of a session follows from its acts, the earlier ones included. -/
theorem waits_run {s : Session σ} {earlier : List Act}
    (h : s.engine.backoff.Waits (Act.failures earlier)) (ops : List Operation) :
    (s.run ops).engine.backoff.Waits (Act.failures (earlier ++ s.acts ops)) := by
  induction ops generalizing s earlier with
  | nil =>
    rw [acts, List.append_nil]
    exact h
  | cons op ops ih =>
    -- the act of the operation is an earlier one for those that follow
    rw [acts, List.append_cons]
    refine ih ?_
    have hafter : (s.operate op).engine.backoff = _ :=
      (congrArg Engine.backoff (s.engine_operate op)).trans (Act.backoff_after ⟨s.engine, op⟩)
    rw [Act.failures_concat, hafter]
    split_ifs
    · exact .succeed _
    · exact h.fail
    · exact h

/-- The events that the handler was ever called with, in order. -/
def reported (s : Session σ) : List Event := (s.journal.filterMap Entry.event?).reverse

theorem reported_perform (s : Session σ) (t : Turn) :
    (s.perform t).reported = s.reported ++ t.events := by
  rw [reported, events_perform, List.reverse_append, List.reverse_reverse]
  rfl

/-- **The wait follows the history, and the handler is told of it truthfully.**  The wait is the
base and a step for every attempt that has failed since the last one succeeded, up to the longest
wait there is.  The reconnect timer is only ever set to the wait as it is then.  An attempt that
has failed or a connection that is gone is told once, with the wait that the timer was set to. -/
theorem backoff_of_run (id : SessionId) (config : Config) (now : Instant) (handler : Handler σ)
    (memory : σ) (ops : List Operation) :
    let fresh := start id config now handler memory
    let s := fresh.run ops
    s.engine.backoff.current.nanos = min Duration.maxNanos
        (config.timing.reconnectBase.nanos +
          Act.failures (fresh.acts ops) * config.timing.reconnectStep.nanos) ∧
      (∀ op, ∃ queued, (s.operate op).orders = s.orders ++ queued ∧
        ∀ wait, .armBackoff wait ∈ queued → wait = (s.operate op).engine.backoff.current) ∧
      ∀ c tell after, s.engine.news? c = some tell → s.call c = .ok (.ongoing, after) →
        ∃ retryIn queued, after.orders = s.orders ++ queued ∧
          after.reported = s.reported ++ [tell retryIn] ∧ after.engine.Awaits queued retryIn := by
  intro fresh s
  refine ⟨?_, fun op => ⟨_, s.orders_operate op, fun wait harms => ?_⟩, ?_⟩
  · have hsettings : s.engine.settings = fresh.engine.settings := settings_run fresh ops
    have hbase : s.engine.backoff.base = config.timing.reconnectBase :=
      congrArg (fun settings => settings.2.1) hsettings
    have hstep : s.engine.backoff.step = config.timing.reconnectStep :=
      congrArg (fun settings => settings.2.2) hsettings
    have hwaits : s.engine.backoff.Waits (Act.failures ([] ++ fresh.acts ops)) :=
      waits_run (.start _ _) ops
    rw [Backoff.Waits, hbase, hstep, List.nil_append] at hwaits
    exact hwaits
  · rw [engine_operate]
    exact Engine.wait_of_armed harms
  · intro c tell after hnews hcall
    obtain ⟨b, hb, hongoing, rfl⟩ := answer_of_call hcall
    obtain ⟨htold, hawaits⟩ := Engine.tells_of_news hnews hb hongoing
    refine ⟨b.retryIn, b.turn.effects, s.orders_perform b.turn, ?_, ?_⟩
    · rw [reported_perform, htold]
    · rw [(s.frame_perform b.turn).1]
      exact hawaits

/-- A client that has failed to connect twice, and has called an attempt off in between.  It waits
for ten seconds more than at first, and fails again. -/
theorem backoff_of_run_of_failed :
    let ops : List Operation :=
      [.call .connect, .call (.connectFailed "refused"), .call .connect, .call .disconnect,
        .call (.connectFailed "aborted"), .call .connect, .call (.connectFailed "refused"),
        .call .timerFired]
    let fresh : Session Unit := start ⟨1⟩ (Config.forServer "host" 6667 "me") ⟨0⟩ .idle ()
    let s := fresh.run ops
    s.engine.backoff.current.nanos = 15 * nanosPerSecond ∧
      ∃ after, s.call (.connectFailed "refused") = .ok (.ongoing, after) ∧
        ∃ retryIn queued, after.orders = s.orders ++ queued ∧
          after.reported = s.reported ++ [.connectFailed "refused" retryIn] ∧
            after.engine.Awaits queued retryIn := by
  intro ops fresh s
  have hrow : transition? s.engine.state .connectFail =
      some ⟨.reconnecting, some .armBackoff, false⟩ := by decide +kernel
  have hcall := call_of_row (c := .connectFailed "refused") rfl (by decide +kernel) hrow
  have hrun := backoff_of_run ⟨1⟩ (Config.forServer "host" 6667 "me") ⟨0⟩ .idle () ops
  refine ⟨?_, _, hcall, hrun.2.2 (.connectFailed "refused") (.connectFailed "refused") _ rfl hcall⟩
  rw [hrun.1]
  decide +kernel

end Session

end Irc
