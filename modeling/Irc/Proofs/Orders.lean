/-
What the orders tell about the timers.

The caller sees neither the state of a session nor whether keepalive runs; it sees the orders.
They are enough: of the orders that have to do with a timer the last one tells whether the
timer is to be set.  `Engine.Told` says so of an engine and the orders that were given so far,
and every turn of the engine keeps it.

* **`Session.orders_operate`** — the orders of an operation are those of the engine's own turn;
* **`Session.orders_eq_received_append_effects`** — all of them reach the caller;
* **`Engine.Told.response`**, **`Engine.Told.taken`** — what handling and the lifecycle table
  have to do with it;
* **`Engine.Told.turn`** — every operation tells what it changes;
* **`Session.orders_tell`** — so do the orders of a run.
-/
import Irc.Proofs.Answers
import Irc.Proofs.Intake

namespace Irc

open Outgoing Lifecycle

namespace Session

variable {σ : Type}

/-! ### All orders -/

/-- The orders of an operation are those of the engine's own turn. -/
theorem orders_operate (s : Session σ) (op : Operation) :
    (s.operate op).orders = s.orders ++ (s.engine.turn op).effects := by
  cases op with
  | send r =>
    rw [operate_send, orders_perform, Engine.effects_queue]
    rfl
  | pollOutgoing =>
    rw [operate, pollOutgoing]
    cases s.outbox <;> exact (List.append_nil _).symm
  | pollEffect =>
    rw [operate, pollEffect]
    cases s.effects <;> exact (List.append_nil _).symm
  | _ => rw [s.operate_eq_perform rfl, orders_perform]

/-- What the caller takes out of the queue of orders in an operation. -/
def fetched (s : Session σ) : Operation → List Effect
  | .pollEffect => s.effects.head?.toList
  | _ => []

/-- The orders that the caller takes out of the queue in operations, one after the other. -/
def received (s : Session σ) : List Operation → List Effect
  | [] => []
  | op :: ops => s.fetched op ++ (s.operate op).received ops

theorem effects_operate (s : Session σ) (op : Operation) :
    s.effects ++ (s.engine.turn op).effects = s.fetched op ++ (s.operate op).effects := by
  cases op with
  | send r =>
    rw [operate_send, effects_perform, Engine.effects_queue, List.append_nil]
    exact List.append_nil _
  | pollOutgoing =>
    rw [operate, pollOutgoing]
    cases s.outbox <;> exact List.append_nil _
  | pollEffect =>
    rw [operate, pollEffect, fetched]
    cases h : s.effects with
    | nil => exact h.symm
    | cons effect rest => exact List.append_nil _
  | _ =>
    rw [s.operate_eq_perform rfl, effects_perform]
    rfl

/-- All orders reach the caller, in order: it has taken them or they are still queued. -/
theorem orders_eq_received_append_effects (id : SessionId) (config : Config) (now : Instant)
    (handler : Handler σ) (memory : σ) (ops : List Operation) :
    ((start id config now handler memory).run ops).orders =
      (start id config now handler memory).received ops ++
        ((start id config now handler memory).run ops).effects := by
  -- what was taken before an operation is behind the caller, whatever comes next
  have hrun : ∀ (ops : List Operation) (s : Session σ) (earlier : List Effect),
      s.orders = earlier ++ s.effects →
        (s.run ops).orders = earlier ++ s.received ops ++ (s.run ops).effects := by
    intro ops
    induction ops with
    | nil =>
      intro s earlier h
      rw [received, List.append_nil]
      exact h
    | cons op ops ih =>
      intro s earlier h
      have hop : (s.operate op).orders = (earlier ++ s.fetched op) ++ (s.operate op).effects := by
        rw [orders_operate, h, List.append_assoc, effects_operate, List.append_assoc]
      rw [received, ← List.append_assoc]
      exact ih (s.operate op) _ hop
  exact hrun ops _ [] rfl

end Session

/-! ### The last order about a timer -/

namespace Effect

/-- An order that has to do with the reconnect timer. -/
def aboutReconnect : Effect → Bool
  | .armBackoff _ | .cancelBackoff | .startConnect => true
  | _ => false

/-- An order that has to do with the keepalive timer. -/
def aboutKeepalive : Effect → Bool
  | .startKeepalive _ | .stopKeepalive => true
  | _ => false

end Effect

/-- Of the orders that have to do with something, the last one. -/
def lastOrder (about : Effect → Bool) (orders : List Effect) : Option Effect :=
  (orders.filter about).getLast?

section

variable {about : Effect → Bool} {later : List Effect} {order : Effect}

theorem lastOrder_append (about : Effect → Bool) (orders later : List Effect) :
    lastOrder about (orders ++ later) = (lastOrder about later).or (lastOrder about orders) := by
  rw [lastOrder, List.filter_append, List.getLast?_append]
  rfl

/-- Orders about something else change nothing. -/
theorem lastOrder_append_of_none (h : lastOrder about later = none) (orders : List Effect) :
    lastOrder about (orders ++ later) = lastOrder about orders := by
  rw [lastOrder_append, h, Option.none_or]

theorem lastOrder_append_of_some (h : lastOrder about later = some order) (orders : List Effect) :
    lastOrder about (orders ++ later) = some order := by
  rw [lastOrder_append, h, Option.some_or]

end

/-- As far as the orders tell, the reconnect timer is set. -/
def Armed (orders : List Effect) : Prop :=
  ∃ wait, lastOrder Effect.aboutReconnect orders = some (.armBackoff wait)

/-- As far as the orders tell, keepalive runs. -/
def KeptAlive (orders : List Effect) : Prop :=
  ∃ period, lastOrder Effect.aboutKeepalive orders = some (.startKeepalive period)

namespace Engine

variable {e : Engine} {t : Turn} {orders : List Effect}

/-- The orders tell what the engine does about its timers. -/
structure Told (e : Engine) (orders : List Effect) : Prop where
  reconnect : e.state = .reconnecting ↔ Armed orders
  keepalive : e.link.keepalive.isSome = true ↔ KeptAlive orders

/-- What the order of a duty tells about the reconnect timer. -/
theorem armed_append_duty (orders : List Effect) (wait : Duration) (duty : Option Duty) :
    Armed (orders ++ (duty.map (effectOf wait)).toList) ↔
      duty = some .armBackoff ∨
        duty ≠ some .startConnect ∧ duty ≠ some .cancelBackoff ∧ Armed orders := by
  cases duty with
  | none => simp
  | some duty =>
    rw [Option.map_some, Option.toList_some]
    cases duty with
    | armBackoff | startConnect | cancelBackoff =>
      rw [Armed, effectOf, lastOrder_append_of_some rfl]
      simp
    | _ =>
      rw [Armed, effectOf, lastOrder_append_of_none rfl]
      simp [Armed]

/-- No duty has to do with keepalive. -/
theorem keptAlive_append_duty (orders : List Effect) (wait : Duration) (duty : Option Duty) :
    KeptAlive (orders ++ (duty.map (effectOf wait)).toList) ↔ KeptAlive orders := by
  have hnone : lastOrder Effect.aboutKeepalive (duty.map (effectOf wait)).toList = none := by
    cases duty with
    | none => rfl
    | some duty => cases duty <;> rfl
  rw [KeptAlive, lastOrder_append_of_none hnone, KeptAlive]

namespace Told

theorem start (config : Config) (now : Instant) : (Engine.start config now).Told [] where
  reconnect := by simp [Engine.start, Armed, lastOrder]
  keepalive := by simp [Engine.start, KeptAlive, lastOrder]

/-- A turn without orders that moves neither the state nor keepalive. -/
theorem silent (h : e.Told orders) (heffects : t.effects = []) (hstate : t.engine.state = e.state)
    (hkeepalive : t.engine.link.keepalive.isSome = e.link.keepalive.isSome) :
    t.engine.Told (orders ++ t.effects) := by
  rw [heffects, List.append_nil]
  exact ⟨by rw [hstate, h.reconnect], by rw [hkeepalive, h.keepalive]⟩

/-- Handling tells when it starts keepalive, and nothing else is to be told. -/
theorem response (h : e.Told orders) (ht : Response e t) : t.engine.Told (orders ++ t.effects) := by
  induction ht generalizing orders with
  | stay e => exact h.silent rfl rfl rfl
  | queue e r => exact h.silent (e.effects_queue r) (by rw [engine_queue]) (by rw [engine_queue])
  | report e tags hevent => exact h.silent rfl rfl rfl
  | learn e change hchange => exact h.silent rfl rfl hchange
  | rename e nickname attempt => exact h.silent rfl rfl rfl
  | welcome e nickname now period =>
    exact {
      reconnect := by
        rw [Armed, lastOrder_append_of_none rfl]
        exact h.reconnect
      keepalive := iff_of_true rfl ⟨period, lastOrder_append_of_some rfl orders⟩ }
  | andThen first second ih₁ ih₂ =>
    rw [Turn.effects_andThen, ← List.append_assoc]
    exact ih₂ (ih₁ h)

/-- An action tells when a wait begins and when it is over. -/
theorem taken (h : e.Told orders) {action : Action} {row : Transition}
    (hrow : transition? e.state action = some row) :
    (e.taken action row).turn.engine.Told (orders ++ (e.taken action row).turn.effects) := by
  obtain ⟨hbegins, hends⟩ := waits_of_row hrow
  rw [effects_taken]
  refine ⟨?_, h.keepalive.trans (keptAlive_append_duty _ _ _).symm⟩
  rw [armed_append_duty, ← h.reconnect]
  refine Iff.trans hbegins ⟨.inl, ?_⟩
  -- the wait is over with an order that says so
  rintro (hduty | ⟨hconnect, hcancel, hstate⟩)
  · exact hduty
  · exact ((hends hstate).elim hconnect hcancel).elim

/-- When what was learnt is forgotten, it is told if keepalive ran. -/
theorem resetLink (h : e.Told orders) :
    e.resetLink.engine.Told (orders ++ e.resetLink.effects) := by
  have hnone : lastOrder Effect.aboutReconnect e.resetLink.effects = none := by
    rw [effects_resetLink]
    split_ifs <;> rfl
  -- keepalive does not run afterwards, so the last order about it must not be to start it
  refine ⟨?_, iff_of_false Bool.false_ne_true ?_⟩
  · rw [Armed, lastOrder_append_of_none hnone]
    exact h.reconnect
  · rw [effects_resetLink]
    split_ifs with hruns
    · rw [KeptAlive, lastOrder_append_of_some rfl]
      simp
    · rw [List.append_nil, ← h.keepalive]
      exact hruns

/-- What a call does after its action tells what it changes. -/
theorem afterword (h : e.Told orders) (e₀ : Engine) (b : Answer) (c : LifecycleCall) :
    (e₀.afterword b c e).engine.Told (orders ++ (e₀.afterword b c e).effects) := by
  have hstay : e.stay.engine.Told (orders ++ e.stay.effects) := h.silent rfl rfl rfl
  cases c with
  | connectFinished now =>
    have hreset := h.resetLink
    rw [Engine.afterword, effects_beginConnection, engine_beginConnection]
    exact ⟨hreset.reconnect, hreset.keepalive⟩
  | connectFailed reason =>
    rw [Engine.afterword]
    cases b.progress with
    | freed => exact hstay
    | ongoing => exact h.silent rfl rfl rfl
  | disconnected reason =>
    rw [Engine.afterword]
    cases b.progress with
    | freed => exact h.resetLink
    | ongoing =>
      simp only [Turn.report, Turn.effects_andThen, effects_report, List.append_nil]
      exact h.resetLink
  | _ => exact hstay

/-- Every operation tells what it changes. -/
theorem turn (h : e.Told orders) (op : Operation) :
    (e.turn op).engine.Told (orders ++ (e.turn op).effects) := by
  rcases e.turn_cases op with ⟨c, a, -, ha, hturn⟩ | hresponse
  · rw [hturn]
    rcases call_cases ha with ⟨action, row, -, hrow, rfl⟩ | ⟨row, -, hrow, rfl⟩ | ⟨-, -, hresponse⟩
    · rw [effects_answer, ← List.append_assoc]
      exact (h.taken hrow).afterword e (e.taken action row) c
    · exact h.taken hrow
    · exact h.response hresponse
  · exact h.response hresponse

end Told

end Engine

namespace Session

variable {σ : Type} {s : Session σ}

/-- Operations, one after the other, tell what they change. -/
theorem told_run (h : s.engine.Told s.orders) (ops : List Operation) :
    (s.run ops).engine.Told (s.run ops).orders := by
  induction ops generalizing s with
  | nil => exact h
  | cons op ops ih =>
    refine ih ?_
    rw [engine_operate, orders_operate]
    exact h.turn op

/-- **The orders tell about both timers.**  A session waits to connect again just when the last
of its orders about the reconnect timer was to set it, and it keeps a connection alive just when
the last of its orders about keepalive was to start it.  Orders count whether the caller has
taken them out of the queue or not. -/
theorem orders_tell (id : SessionId) (config : Config) (now : Instant) (handler : Handler σ)
    (memory : σ) (ops : List Operation) :
    let fresh := start id config now handler memory
    let s := fresh.run ops
    let orders := fresh.received ops ++ s.effects
    (s.engine.state = .reconnecting ↔
        ∃ wait, (orders.filter Effect.aboutReconnect).getLast? = some (.armBackoff wait)) ∧
      (s.engine.link.keepalive.isSome = true ↔
        ∃ period,
          (orders.filter Effect.aboutKeepalive).getLast? = some (.startKeepalive period)) := by
  intro fresh s orders
  have htold : s.engine.Told s.orders := told_run (.start config now) ops
  have horders : s.orders = orders :=
    orders_eq_received_append_effects id config now handler memory ops
  rw [horders] at htold
  exact ⟨htold.reconnect, htold.keepalive⟩

end Session

end Irc
