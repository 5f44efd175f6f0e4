/-
The delays that are ordered.

Two orders set a timer.  Keepalive is started with the interval of the configuration, and the
reconnect timer is set to the wait, which is the base and a step for some of the attempts to
connect.

* **`Engine.delay_of_turn`** — what the delay of an order is;
* **`Engine.no_delay_of_freed`** — a call that ends the session orders none;
* **`Client.answer_induction`** — what the answer to a wake is made of;
* **`Session.paced_run`**, **`Client.Timed.run`** — how long the delays of a session and of a
  client can be.
-/
import Irc.Proofs.Backoff
import Irc.Proofs.Finality
import Irc.Proofs.Influence

namespace Irc

open Outgoing Lifecycle

/-- The delay of an order that sets a timer. -/
def Effect.delay? : Effect → Option Duration
  | .armBackoff delay | .startKeepalive delay => some delay
  | _ => none

namespace Lifecycle

variable {state : ConnectionState} {action : Action} {row : Transition}

/-- The reconnect timer is set when an attempt has failed or a connection is gone. -/
theorem row_of_arms (hrow : transition? state action = some row)
    (harms : row.duty = some .armBackoff) :
    row.freed = false ∧ (action = .connectFail ∨ action = .disconnectFinish) := by
  cases state <;> cases action <;>
    simp only [transition?, Option.some.injEq, reduceCtorEq] at hrow <;> subst hrow <;>
    first
      | exact absurd harms (by decide)
      | decide

end Lifecycle

namespace Engine

variable {e : Engine} {c : LifecycleCall} {b : Answer} {action : Action} {row : Transition}
  {order : Effect} {delay : Duration}

/-! ### The delay of an order -/

theorem delay_of_taken (horder : order ∈ (e.taken action row).turn.effects)
    (hdelay : order.delay? = some delay) :
    order = .armBackoff delay ∧ row.duty = some .armBackoff := by
  rw [effects_taken, Option.mem_toList, Option.map_eq_some_iff] at horder
  obtain ⟨duty, hduty, rfl⟩ := horder
  cases duty with
  | armBackoff => exact ⟨congrArg Effect.armBackoff (Option.some_inj.mp hdelay), hduty⟩
  | _ => exact absurd hdelay (by simp [effectOf, Effect.delay?])

/-- A call that orders a delay sets the reconnect timer, and does not end the session. -/
theorem delay_of_call (h : e.call c = .ok b) (horder : order ∈ b.turn.effects)
    (hdelay : order.delay? = some delay) :
    order = .armBackoff delay ∧ b.turn.engine.freed = false ∧
      (c.action? = some .connectFail ∨ c.action? = some .disconnectFinish) := by
  cases hc : c.action? with
  | some action =>
    obtain ⟨-, row, hrow, rfl⟩ := (call_eq_ok_iff hc).mp h
    rw [effects_answer, List.mem_append] at horder
    rcases horder with horder | hafter
    · obtain ⟨harmed, hduty⟩ := delay_of_taken horder hdelay
      obtain ⟨hfreed, haction⟩ := row_of_arms hrow hduty
      have hstanding := e.standing_answer c (e.taken action row)
      exact ⟨harmed, (congrArg (fun s => s.2.2.2) hstanding).trans hfreed,
        haction.imp (congrArg some) (congrArg some)⟩
    · rw [effects_afterword _ _ _ _ _ hafter] at hdelay
      exact absurd hdelay (by simp [Effect.delay?])
  | none =>
    cases c with
    | keepaliveTick now =>
      rcases keepaliveTick_eq_ok h with rfl | ⟨token, rfl⟩ | hgave
      · exact absurd horder List.not_mem_nil
      · have hnone : (e.queue (.ping token)).effects = [] := e.effects_queue _
        rw [ongoing, hnone] at horder
        exact absurd horder List.not_mem_nil
      · obtain ⟨-, row, hrow, rfl⟩ := apply_eq_ok_iff.mp hgave
        obtain ⟨-, hduty⟩ := delay_of_taken horder hdelay
        exact absurd (row_of_arms hrow hduty).2 (by decide)
    | _ => exact absurd hc (by simp [LifecycleCall.action?])

theorem delay_of_turn_call (horder : order ∈ (e.turn (.call c)).effects)
    (hdelay : order.delay? = some delay) :
    order = .armBackoff delay ∧ (e.turn (.call c)).engine.freed = false ∧
      (c.action? = some .connectFail ∨ c.action? = some .disconnectFinish) := by
  rw [turn] at horder ⊢
  split at horder
  · exact absurd horder List.not_mem_nil
  · exact delay_of_call ‹_› horder hdelay

/-- What the delay of an order is. -/
theorem delay_of_turn {op : Operation} (horder : order ∈ (e.turn op).effects)
    (hdelay : order.delay? = some delay) :
    delay = (e.turn op).engine.backoff.current ∨ delay = e.config.timing.pingInterval := by
  have hinput : ∀ i : Input, order ∈ (e.turn i.operation).effects →
      delay = e.config.timing.pingInterval := by
    intro i hi
    rcases e.effects_turn_of_input i with hnone | ⟨m, -, -, hstarts⟩
    · rw [hnone] at hi
      exact absurd hi List.not_mem_nil
    · rw [hstarts, List.mem_singleton] at hi
      subst hi
      exact (Option.some_inj.mp hdelay).symm
  cases op with
  | call c =>
    obtain ⟨rfl, -⟩ := delay_of_turn_call horder hdelay
    exact .inl (wait_of_armed horder)
  | line text now => exact .inr (hinput (.line text now) horder)
  | message m now => exact .inr (hinput (.message m now) horder)
  | undecodable cause => exact .inr (hinput (.undecodable cause) horder)
  | _ => exact absurd horder List.not_mem_nil

/-- A call that leaves the session over orders no delay. -/
theorem no_delay_of_freed (hfreed : (e.turn (.call c)).engine.freed = true) :
    ∀ order ∈ (e.turn (.call c)).effects, order.delay? = none := by
  refine fun order horder => Option.eq_none_iff_forall_ne_some.mpr fun delay hdelay => ?_
  exact absurd ((delay_of_turn_call horder hdelay).2.1.symm.trans hfreed) Bool.false_ne_true

/-- A command orders no delay. -/
theorem no_delay_heed (e : Engine) (command : ClientCommand) :
    ∀ order ∈ (e.heed command).effects, order.delay? = none := by
  refine fun order horder => Option.eq_none_iff_forall_ne_some.mpr fun delay hdelay => ?_
  cases command with
  | connect => exact absurd (delay_of_turn_call horder hdelay).2.2 (by decide)
  | disconnect => exact absurd (delay_of_turn_call horder hdelay).2.2 (by decide)
  | quit reason =>
    exact (delay_of_turn_call horder hdelay).2.2.elim
      (fun h => absurd h (by simp [LifecycleCall.action?]))
      (fun h => absurd h (by simp [LifecycleCall.action?]))
  | send request =>
    rw [heed, effects_queue] at horder
    exact absurd horder List.not_mem_nil

end Engine

/-! ### What the answer to a wake is made of -/

/-- The order that a note tells of. -/
def Note.order? : Note → Option Effect
  | .session entry => entry.effect?
  | _ => none

/-- Whether an operation says that an attempt to connect has failed or was called off. -/
def Operation.isFailure : Operation → Bool
  | .call c => c.action? = some .connectFail
  | _ => false

theorem Act.failed_eq_false {op : Operation} (h : op.isFailure = false) (e : Engine) :
    failed ⟨e, op⟩ = false := by
  rw [failed, decide_eq_false_iff_not]
  rintro ⟨-, haction⟩
  cases op with
  | call c =>
    obtain ⟨_, -, hc⟩ := Option.bind_eq_some_iff.mp haction
    exact of_decide_eq_false h hc
  | _ => exact absurd haction (by simp [action?])

namespace Client

variable {σ : Type} {c : Client σ} {now : Instant}

/-- The orders that the session of a client has given. -/
def ordered (c : Client σ) : List Effect := (c.log.filterMap Note.order?).reverse

theorem ordered_take (hjournal : c.session.journal = []) (t : Turn) :
    (c.take t).ordered = c.ordered ++ t.effects := by
  have hlog : (c.take t).log = (c.session.perform t).journal.map Note.session ++ c.log := rfl
  have horders : (c.session.perform t).orders = t.effects := by
    rw [Session.orders_perform, Session.orders, hjournal]
    rfl
  rw [ordered, hlog, List.filterMap_append, List.reverse_append, List.filterMap_map, ← horders]
  rfl

/-- What each part of an answer keeps is kept when a wake is answered. -/
theorem answer_induction {P : Client σ → Prop} {w : Wake} (hw : c.awaits now w = true)
    (turned : ∀ b op, op.isFailure = false → P b → P (b.take (b.session.engine.turn op)))
    (queued : ∀ b request, P b → P (b.take (b.session.engine.queue request)))
    (failed : ∀ b reason, b.dialing = true → P b →
      P ({ b with dialing := false }.shutdown.take
        (b.session.engine.turn (.call (.connectFailed reason)))))
    (attached : ∀ b, P b → P b.attach) (shut : ∀ b, P b → P b.shutdown)
    (ticked : ∀ b, P b → P (b.tick now)) (expired : ∀ b, P b → P { b with reconnectAt := none })
    (read : ∀ b framer buffer, P b → P { b with framer := framer, buffer := buffer }) (h : P c) :
    P (c.answer now w) := by
  have hlose : ∀ reason, P (c.lose reason) := by
    intro reason
    rw [lose_eq_take]
    exact turned _ _ rfl (shut c h)
  have hobey : ∀ command, P (c.obey command) := by
    intro command
    have hheed : P (c.take (c.session.engine.heed command)) := by
      cases command with
      | send request => exact queued c request h
      | _ => exact turned c _ rfl h
    rw [obey_eq_take, reconsider]
    split_ifs with hturned
    · rw [Bool.and_eq_true] at hturned
      rw [attempt_eq_take]
      exact failed _ _ hturned.1 hheed
    · exact hheed
  cases w with
  | dialed outcome =>
    cases outcome with
    | ok connected =>
      have hanswer : c.answer now (.dialed (.ok connected)) =
          c.attach.attempt (.connectFinished now) := rfl
      rw [hanswer, attempt_eq_take]
      exact turned _ _ rfl (attached c h)
    | error err =>
      rw [answer, attempt_eq_take]
      exact failed c _ hw h
  | read outcome =>
    cases outcome with
    | error err => exact hlose _
    | ok bytes =>
      cases bytes with
      | nil => exact hlose _
      | cons byte bytes =>
        refine takeBytes_induction (read c _ _ h) fun b frame hb => ?_
        cases frame with
        | ok line => exact turned b (.line line now) rfl hb
        | error cause => exact turned b (.undecodable cause) rfl hb
  | command command => exact hobey command
  | abandoned => exact hobey (.quit none)
  | keepalive =>
    -- a tick can give the connection up, but no attempt to connect
    rw [answer, attempt_eq_take]
    exact turned _ _ rfl (ticked c h)
  | timer =>
    rw [answer, attempt_eq_take]
    exact turned _ _ rfl (expired c h)

end Client

/-! ### How long delays can be -/

/-- A delay that a session with this configuration can order after some failed attempts. -/
def Config.Sets (config : Config) (attempts : Nat) (delay : Duration) : Prop :=
  delay = config.timing.pingInterval ∨ ∃ failures ≤ attempts, delay.nanos =
    min Duration.maxNanos
      (config.timing.reconnectBase.nanos + failures * config.timing.reconnectStep.nanos)

theorem Config.Sets.mono {config : Config} {attempts attempts' : Nat} {delay : Duration}
    (h : config.Sets attempts delay) (hle : attempts ≤ attempts') : config.Sets attempts' delay :=
  h.imp_right fun ⟨failures, hfailures, heq⟩ => ⟨failures, Nat.le_trans hfailures hle, heq⟩

/-- The wait of an engine is the one after so many failed attempts, or after fewer. -/
structure Engine.Paced (config : Config) (attempts : Nat) (e : Engine) : Prop where
  settings : e.settings = (config, config.timing.reconnectBase, config.timing.reconnectStep)
  waits : ∃ failures ≤ attempts, e.backoff.Waits failures

namespace Engine.Paced

variable {config : Config} {attempts : Nat} {e : Engine} {op : Operation}

/-- Only a failed attempt adds to the wait. -/
theorem turn (h : e.Paced config attempts) (op : Operation) :
    (e.turn op).engine.Paced config (attempts + (Act.failed ⟨e, op⟩).toNat) := by
  obtain ⟨failures, hle, hwaits⟩ := h.waits
  have hafter : (e.turn op).engine.backoff = _ := Act.backoff_after ⟨e, op⟩
  refine ⟨(e.settings_turn op).trans h.settings, ?_⟩
  rw [hafter]
  split_ifs with hsucceeded hfailed
  · exact ⟨0, Nat.zero_le _, .succeed _⟩
  · rw [hfailed]
    exact ⟨failures + 1, Nat.succ_le_succ hle, hwaits.fail⟩
  · exact ⟨failures, Nat.le_trans hle (Nat.le_add_right _ _), hwaits⟩

/-- The delays that a turn orders. -/
theorem sets (h : (e.turn op).engine.Paced config attempts) :
    ∀ order ∈ (e.turn op).effects, ∀ delay, order.delay? = some delay →
      config.Sets attempts delay := by
  intro order horder delay hdelay
  have hsettings := h.settings
  simp only [Engine.settings, Prod.mk.injEq] at hsettings
  obtain ⟨hconfig, hbase, hstep⟩ := hsettings
  rcases delay_of_turn horder hdelay with rfl | rfl
  · obtain ⟨failures, hle, hwaits⟩ := h.waits
    rw [Backoff.Waits, hbase, hstep] at hwaits
    exact .inr ⟨failures, hle, hwaits⟩
  · rw [config_turn] at hconfig
    exact .inl (congrArg (fun config => config.timing.pingInterval) hconfig)

end Engine.Paced

namespace Session

variable {σ : Type} {s : Session σ} {config : Config} {attempts : Nat}

/-- The orders of a session set delays that its failed attempts account for. -/
theorem paced_run (h : s.engine.Paced config attempts)
    (horders : ∀ order ∈ s.orders, ∀ delay, order.delay? = some delay → config.Sets attempts delay)
    (ops : List Operation) :
    (s.run ops).engine.Paced config (attempts + (s.acts ops).countP Act.failed) ∧
      ∀ order ∈ (s.run ops).orders, ∀ delay, order.delay? = some delay →
        config.Sets (attempts + (s.acts ops).countP Act.failed) delay := by
  induction ops generalizing s attempts with
  | nil => exact ⟨h, horders⟩
  | cons op ops ih =>
    have hturn := h.turn op
    have hafter : (s.operate op).engine.Paced config _ := (s.engine_operate op).symm ▸ hturn
    have hrest := ih hafter fun order horder delay hdelay => by
      rw [orders_operate, List.mem_append] at horder
      exact horder.elim
        (fun h => (horders order h delay hdelay).mono (Nat.le_add_right _ _))
        (fun h => hturn.sets order h delay hdelay)
    have hcount : attempts + (s.acts (op :: ops)).countP Act.failed =
        attempts + (Act.failed ⟨s.engine, op⟩).toNat +
          ((s.operate op).acts ops).countP Act.failed := by
      rw [acts, List.countP_cons]
      cases Act.failed ⟨s.engine, op⟩ with
      | false => simp
      | true =>
        simp only [if_true, Bool.toNat_true]
        omega
    rw [hcount]
    exact hrest

end Session

namespace Client

variable {σ : Type} {c : Client σ} {config : Config} {earlier : Nat} {now : Instant}

/-- After some attempts that failed earlier, the wait of a client has grown with attempts that were
begun and are over, and so have the delays that it has ordered. -/
structure Timed (config : Config) (earlier : Nat) (c : Client σ) : Prop where
  journal : c.session.journal = []
  paced : ∃ attempts, c.session.engine.Paced config attempts ∧
    attempts + c.dialing.toNat ≤ earlier + c.dials
  delays : ∀ order ∈ c.ordered, ∀ delay, order.delay? = some delay →
    config.Sets (earlier + c.dials) delay

namespace Timed

theorem take (h : c.Timed config earlier) {op : Operation}
    (hpaced : ∃ attempts, (c.session.engine.turn op).engine.Paced config attempts ∧
      attempts + c.dialing.toNat ≤ earlier + c.dials) :
    (c.take (c.session.engine.turn op)).Timed config earlier := by
  refine ⟨rfl, ?_, ?_⟩
  · rw [engine_take, dials_take]
    exact hpaced
  · rw [ordered_take h.journal, dials_take, List.forall_mem_append]
    obtain ⟨attempts, hattempts, hle⟩ := hpaced
    refine ⟨h.delays, fun order horder delay hdelay => ?_⟩
    exact (hattempts.sets order horder delay hdelay).mono
      (Nat.le_trans (Nat.le_add_right _ _) hle)

/-- A turn that is not about a failed attempt. -/
theorem turn (h : c.Timed config earlier) {op : Operation} (hop : op.isFailure = false) :
    (c.take (c.session.engine.turn op)).Timed config earlier := by
  obtain ⟨attempts, hattempts, hle⟩ := h.paced
  have hturn := hattempts.turn op
  rw [Act.failed_eq_false hop] at hturn
  exact h.take ⟨attempts, hturn, hle⟩

/-- An attempt that is under way can be given up. -/
theorem idle (h : c.Timed config earlier) : ({ c with dialing := false }).Timed config earlier := by
  obtain ⟨attempts, hattempts, hle⟩ := h.paced
  exact ⟨h.journal, ⟨attempts, hattempts, Nat.le_trans (Nat.le_add_right _ _) hle⟩, h.delays⟩

theorem shutdown (h : c.Timed config earlier) : c.shutdown.Timed config earlier :=
  ⟨h.journal, h.paced, h.delays⟩

/-- An attempt has failed, or is called off. -/
theorem fail (h : c.Timed config earlier) (hdialing : c.dialing = true) (reason : String) :
    ({ c with dialing := false }.shutdown.take
      (c.session.engine.turn (.call (.connectFailed reason)))).Timed config earlier := by
  obtain ⟨attempts, hattempts, hle⟩ := h.paced
  -- the attempt is under way, so that it is not yet one of those that the wait has grown with
  rw [hdialing] at hle
  have hturn := hattempts.turn (.call (.connectFailed reason))
  exact h.idle.shutdown.take
    ⟨_, hturn, Nat.le_trans (Nat.add_le_add_left (Bool.toNat_le _) attempts) hle⟩

theorem dial (h : c.Timed config earlier) : c.dial.Timed config earlier := by
  obtain ⟨attempts, hattempts, hle⟩ := h.paced
  have hdials : c.dial.dials = c.dials + 1 := List.countP_cons_of_pos rfl
  refine ⟨h.journal, ⟨attempts, hattempts, ?_⟩, fun order horder delay hdelay => ?_⟩
  · rw [hdials]
    exact Nat.succ_le_succ (Nat.le_trans (Nat.le_add_right _ _) hle)
  · refine (h.delays order horder delay hdelay).mono ?_
    rw [hdials]
    exact Nat.le_succ _

theorem lose (h : c.Timed config earlier) (reason : String) :
    (c.lose reason).Timed config earlier := by
  rw [lose_eq_take]
  exact h.shutdown.turn rfl

/-- The answer to a wake. -/
theorem answer (h : c.Timed config earlier) {w : Wake} (hw : c.awaits now w = true) :
    (c.answer now w).Timed config earlier := by
  refine answer_induction (P := Timed config earlier) hw (fun b op hop hb => hb.turn hop)
    (fun b request hb => ?_) (fun b reason hdialing hb => hb.fail hdialing reason)
    (fun b hb => ⟨hb.journal, hb.idle.paced, hb.delays⟩) (fun b hb => hb.shutdown)
    (fun b hb => ⟨hb.journal, hb.paced, hb.delays⟩) (fun b hb => ⟨hb.journal, hb.paced, hb.delays⟩)
    (fun b _ _ hb => ⟨hb.journal, hb.paced, hb.delays⟩) h
  refine ⟨rfl, ?_, ?_⟩
  · rw [engine_take, Engine.engine_queue, dials_take]
    exact hb.paced
  · rw [ordered_take hb.journal, Engine.effects_queue, List.append_nil, dials_take]
    exact hb.delays

/-- The way to the next wait. -/
theorem settle (h : c.Timed config earlier) (now : Instant) :
    (c.settle now).Timed config earlier := by
  refine settle_induction (P := Timed config earlier)
    (fun b hb => ⟨hb.journal, hb.paced, hb.delays⟩) (fun b effect hcloses hrunning hb => ?_)
    (fun b _ _ _ hb => ⟨hb.journal, hb.paced, hb.delays⟩) (fun b _ hb => hb.dial)
    (fun b reason hb => hb.lose reason) h
  obtain ⟨_, _, _, heq⟩ := carryOut_eq hcloses hrunning now
  rw [heq]
  exact ⟨hb.journal, hb.paced, hb.delays⟩

theorem wake (h : c.Timed config earlier) (now : Instant) (w : Wake) :
    (c.wake now w).Timed config earlier := by
  cases hstopped : c.stopped with
  | true => rwa [wake_of_stopped hstopped]
  | false =>
    cases hw : c.awaits now w with
    | false => rwa [wake_of_not_awaited hw]
    | true =>
      rw [wake_of_awaited hstopped hw]
      exact (h.answer hw).settle now

theorem run (h : c.Timed config earlier) (wakes : List (Instant × Wake)) :
    (c.run wakes).Timed config earlier := by
  induction wakes generalizing c with
  | nil => exact h
  | cons w wakes ih => exact ih (h.wake w.1 w.2)

end Timed

/-- A client of a session that may have been used before. -/
theorem timed_launch {s : Session σ} (h : s.engine.Paced config earlier)
    (writes : List (Option TransportError)) (now : Instant) :
    (launch s writes now).Timed config earlier := by
  have hstart : (start { s with journal := [] } writes).Timed config earlier :=
    ⟨rfl, ⟨earlier, h, Nat.le_refl _⟩, fun _ horder => absurd horder List.not_mem_nil⟩
  exact hstart.settle now

end Client

end Irc
