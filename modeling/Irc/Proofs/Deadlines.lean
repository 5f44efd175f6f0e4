/-
Deadlines that a clock cannot show.

An order with a delay sets a timer to a later instant, and the loop breaks down when no clock can
show that instant.  A valid configuration does not rule this out: its delays can be of any length
above zero.  But a run breaks down only over an order that it has to carry out, and the delays that
can be ordered follow from the configuration and the attempts to connect.

* **`Client.breakdown_carryOut`** — what carrying an order out can break;
* **`Client.Tallied.settle`** — the way to a wait breaks down over the orders given before and on it;
* **`Client.Waiting.breakdown_wake`** — and so does a turn of the loop;
* **`Client.breakdown_schedule`** — and a run, over the first of all its orders;
* **`Client.deadlines_of_run`** — when the loop of a client breaks down.
-/
import Irc.Proofs.Delays
import Irc.Proofs.Registration

namespace Irc

/-! ### Orders that cannot be carried out -/

/-- Why an order cannot be carried out at a given time, if it cannot. -/
def Effect.fault? (now : Instant) : Effect → Option Breakdown
  | .armBackoff delay => if now.after? delay = none then some .deadlineTooLate else none
  | .startKeepalive period =>
    if now.after? period = none then some .deadlineTooLate
    else if period = Duration.zero then some .periodEmpty
    else none
  | _ => none

theorem Effect.fault?_of_no_delay (order : Effect) (h : order.delay? = none) (now : Instant) :
    order.fault? now = none := by
  cases order with
  | armBackoff delay => exact absurd h (Option.some_ne_none _)
  | startKeepalive period => exact absurd h (Option.some_ne_none _)
  | _ => rfl

theorem findSome?_fault?_of_no_delay {orders : List Effect}
    (h : ∀ order ∈ orders, order.delay? = none) (now : Instant) :
    orders.findSome? (·.fault? now) = none :=
  List.findSome?_eq_none_iff.mpr fun order horder => order.fault?_of_no_delay (h order horder) now

namespace Client

variable {σ : Type} {c : Client σ} {now : Instant} {agenda early given : List Effect}

theorem breakdown_lose (c : Client σ) (reason : String) :
    (c.lose reason).breakdown = c.breakdown := by
  rw [lose_eq_take]
  rfl

/-- The loop breaks down over an order that cannot be carried out, if it has not before. -/
theorem breakdown_carryOut (c : Client σ) (now : Instant) (order : Effect) :
    (c.carryOut now order).breakdown = c.breakdown.or (order.fault? now) := by
  unfold carryOut
  split_ifs with hbroken
  · obtain ⟨cause, hcause⟩ := Option.isSome_iff_exists.mp hbroken
    rw [hcause, Option.some_or]
  rw [Option.not_isSome_iff_eq_none] at hbroken
  have hfault : c.breakdown.or (order.fault? now) = order.fault? now := by
    rw [hbroken, Option.none_or]
  rw [hfault]
  cases order with
  | armBackoff delay =>
    dsimp only [Effect.fault?]
    cases now.after? delay with
    | none => rfl
    | some deadline => exact hbroken
  | startKeepalive period =>
    dsimp only [Effect.fault?]
    rw [Ticker.start]
    cases now.after? period with
    | none => rfl
    | some deadline =>
      by_cases hperiod : period = Duration.zero
      · simp [hperiod]
      · simp [hperiod, hbroken]
  | closeSocket => exact (breakdown_lose _ _).trans (c.breakdown_flush.trans hbroken)
  | forceClose => exact (c.breakdown_lose _).trans hbroken
  | _ => exact hbroken

/-! ### Orders that are given on the way -/

/-- A client goes on, and what its session orders is queued. -/
structure GoesOn (b c : Client σ) : Prop where
  journal : c.session.journal = []
  orders : ∃ new, c.ordered = b.ordered ++ new ∧ c.session.effects = b.session.effects ++ new

namespace GoesOn

variable {b : Client σ}

theorem refl (hjournal : c.session.journal = []) : c.GoesOn c :=
  ⟨hjournal, [], (List.append_nil _).symm, (List.append_nil _).symm⟩

theorem trans {d : Client σ} (h : b.GoesOn c) (h' : c.GoesOn d) : b.GoesOn d := by
  obtain ⟨new, hordered, heffects⟩ := h.orders
  obtain ⟨new', hordered', heffects'⟩ := h'.orders
  refine ⟨h'.journal, new ++ new', ?_, ?_⟩
  · rw [hordered', hordered, List.append_assoc]
  · rw [heffects', heffects, List.append_assoc]

theorem take (h : b.GoesOn c) (t : Turn) : b.GoesOn (c.take t) :=
  h.trans ⟨rfl, t.effects, ordered_take h.journal t, c.effects_take t⟩

theorem lose (h : b.GoesOn c) (reason : String) : b.GoesOn (c.lose reason) := by
  rw [lose_eq_take]
  exact take (c := c.shutdown) ⟨h.journal, h.orders⟩ _

theorem flush (h : b.GoesOn c) : b.GoesOn c.flush.1 :=
  flush_induction (fun _ _ _ _ h => ⟨h.journal, h.orders⟩) h

theorem carryOut (h : b.GoesOn c) (now : Instant) (order : Effect) :
    b.GoesOn (c.carryOut now order) := by
  rcases c.carryOut_cases now order with ⟨-, heq⟩ | ⟨-, -, _, _, _, heq⟩ |
    ⟨-, d, reason, rfl | rfl, heq⟩
  · rwa [heq]
  · rw [heq]
    exact ⟨h.journal, h.orders⟩
  · rw [heq]
    exact h.lose reason
  · rw [heq]
    exact h.flush.lose reason

theorem proceed (h : b.GoesOn c) : b.GoesOn c.proceed ∧ c.proceed.breakdown = c.breakdown := by
  rw [Client.proceed]
  cases hstate : c.state with
  | disconnected => exact ⟨h, rfl⟩
  | reconnecting => exact ⟨h, rfl⟩
  | connecting =>
    dsimp only
    split_ifs
    · exact ⟨h, rfl⟩
    · exact ⟨⟨h.journal, h.orders⟩, rfl⟩
  | connected =>
    have hflush := h.flush
    have hbreakdown := c.breakdown_flush
    cases hf : c.flush with
    | mk after failure =>
      rw [hf] at hflush hbreakdown
      cases failure with
      | none => exact ⟨hflush, hbreakdown⟩
      | some err => exact ⟨hflush.lose _, (breakdown_lose _ _).trans hbreakdown⟩
  | disconnecting => exact ⟨h.lose _, c.breakdown_lose _⟩
  | quitting => exact ⟨h.lose _, c.breakdown_lose _⟩

/-- The answer to a wake breaks nothing down. -/
theorem answer (hjournal : c.session.journal = []) {w : Wake} (hw : c.awaits now w = true) :
    c.GoesOn (c.answer now w) ∧ (c.answer now w).breakdown = c.breakdown :=
  answer_induction (P := fun b => c.GoesOn b ∧ b.breakdown = c.breakdown) hw
    (fun _ _ _ h => ⟨h.1.take _, h.2⟩) (fun _ _ h => ⟨h.1.take _, h.2⟩)
    (fun b _ _ h =>
      ⟨take (c := { b with dialing := false }.shutdown) ⟨h.1.journal, h.1.orders⟩ _, h.2⟩)
    (fun _ h => ⟨⟨h.1.journal, h.1.orders⟩, h.2⟩) (fun _ h => ⟨⟨h.1.journal, h.1.orders⟩, h.2⟩)
    (fun _ h => ⟨⟨h.1.journal, h.1.orders⟩, h.2⟩) (fun _ h => ⟨⟨h.1.journal, h.1.orders⟩, h.2⟩)
    (fun _ _ _ h => ⟨⟨h.1.journal, h.1.orders⟩, h.2⟩) ⟨refl hjournal, rfl⟩

end GoesOn

/-! ### The way to the next wait -/

/-- The session has given some orders, `early` of them before it had a client.  Of those after
`given` the loop has taken up some, and has broken down over the first that could not be carried
out; the others are still to come. -/
structure Tallied (early given : List Effect) (now : Instant) (c : Client σ)
    (agenda : List Effect) : Prop where
  journal : c.session.journal = []
  tally : ∃ taken, early ++ c.ordered = given ++ taken ++ agenda ++ c.session.effects ∧
    c.breakdown = taken.findSome? (·.fault? now)

namespace Tallied

theorem goesOn {b : Client σ} (h : c.Tallied early given now agenda) (hb : c.GoesOn b)
    (hbreakdown : b.breakdown = c.breakdown) : b.Tallied early given now agenda := by
  obtain ⟨taken, hordered, hbroken⟩ := h.tally
  obtain ⟨new, hordered', heffects⟩ := hb.orders
  refine ⟨hb.journal, taken, ?_, hbreakdown.trans hbroken⟩
  rw [hordered', heffects, ← List.append_assoc, hordered, List.append_assoc]

theorem carryOut {order : Effect} (h : c.Tallied early given now (order :: agenda)) :
    (c.carryOut now order).Tallied early given now agenda := by
  obtain ⟨taken, hordered, hbroken⟩ := h.tally
  obtain ⟨hjournal, new, hordered', heffects⟩ := (GoesOn.refl h.journal).carryOut now order
  refine ⟨hjournal, taken ++ [order], ?_, ?_⟩
  · rw [hordered', heffects, ← List.append_assoc, hordered]
    simp only [List.append_assoc, List.cons_append, List.nil_append]
  · rw [breakdown_carryOut, hbroken, List.findSome?_append, List.findSome?_singleton]

theorem takeEffects (h : c.Tallied early given now []) :
    (c.takeEffects now).Tallied early given now [] := by
  have hall : ∀ (orders : List Effect) (c : Client σ), c.Tallied early given now orders →
      (orders.foldl (Client.carryOut now) c).Tallied early given now [] := by
    intro orders
    induction orders with
    | nil => exact fun _ h => h
    | cons order orders ih => exact fun c h => ih _ h.carryOut
  obtain ⟨taken, hordered, hbroken⟩ := h.tally
  refine hall _ c.takeUp ⟨h.journal, taken, ?_, hbroken⟩
  show early ++ c.ordered = _ ++ c.session.effects ++ []
  rw [List.append_nil, hordered, List.append_nil]

theorem round (h : c.Tallied early given now []) : (c.round now).Tallied early given now [] := by
  cases hstopped : c.stopped with
  | true => rwa [round_of_stopped hstopped]
  | false =>
    have hrun : (c.runEffects now).Tallied early given now [] := h.takeEffects.takeEffects
    obtain ⟨hgoesOn, hbreakdown⟩ := (GoesOn.refl hrun.journal).proceed
    rw [round_of_running hstopped]
    split_ifs
    · exact hrun
    · exact hrun.goesOn hgoesOn hbreakdown

end Tallied

/-! ### The end of the loop -/

/-- A session that is over has left no order with a delay behind. -/
def Spent (c : Client σ) : Prop :=
  c.session.engine.freed = true → ∀ order ∈ c.session.effects, order.delay? = none

theorem spent_of_effects (h : c.session.effects = []) : c.Spent := by
  intro _ order horder
  rw [h] at horder
  exact absurd horder List.not_mem_nil

theorem spent_attempt (h : c.session.effects = []) (call : LifecycleCall) :
    (c.attempt call).Spent := by
  rw [attempt_eq_take, Spent, engine_take, effects_take, h, List.nil_append]
  exact Engine.no_delay_of_freed

theorem spent_obey (h : c.session.effects = []) (command : ClientCommand) :
    (c.obey command).Spent := by
  have hheed := c.session.engine.no_delay_heed command
  rw [obey_eq_take, reconsider]
  split_ifs
  · rw [attempt_eq_take, Spent, engine_take, effects_take]
    intro hfreed
    show ∀ order ∈ (c.take _).session.effects ++ _, _
    rw [effects_take, h, List.nil_append]
    exact List.forall_mem_append.mpr ⟨hheed, Engine.no_delay_of_freed hfreed⟩
  · rw [Spent, effects_take, h, List.nil_append]
    exact fun _ => hheed

theorem Waiting.spent_answer (h : c.Waiting) (hrunning : c.stopped = false) {w : Wake} :
    (c.answer now w).Spent := by
  have heffects := h.effects
  cases w with
  | dialed outcome =>
    cases outcome with
    | ok connected => exact spent_attempt (c := c.attach) heffects _
    | error err => exact spent_attempt (c := { c with dialing := false }.shutdown) heffects _
  | read outcome =>
    cases outcome with
    | error err => exact spent_attempt (c := c.shutdown) heffects _
    | ok bytes =>
      cases bytes with
      | nil => exact spent_attempt (c := c.shutdown) heffects _
      | cons byte bytes =>
        -- lines that are read can order keepalive, but they never end the session
        have hfreed : (c.takeBytes now (byte :: bytes)).session.engine.freed = false :=
          takeBytes_induction (P := fun b => b.session.engine.freed = false)
            (freed_of_running hrunning) fun b frame hb => by
              rw [engine_take]
              exact (congrArg Life.freed (b.session.engine.life_hear now frame)).trans hb
        exact fun h => absurd (hfreed.symm.trans h) Bool.false_ne_true
  | command command => exact spent_obey heffects command
  | abandoned => exact spent_obey heffects (.quit none)
  | keepalive => exact spent_attempt (c := c.tick now) heffects _
  | timer => exact spent_attempt (c := { c with reconnectAt := none }) heffects _

theorem spent_proceed (h : c.session.effects = []) : c.proceed.Spent := by
  rw [proceed]
  cases hstate : c.state with
  | disconnected => exact spent_of_effects h
  | reconnecting => exact spent_of_effects h
  | connecting =>
    dsimp only
    split_ifs <;> exact spent_of_effects h
  | connected =>
    have hflush : c.flush.1.session.effects = [] := c.effects_flush.trans h
    cases hf : c.flush with
    | mk after failure =>
      rw [hf] at hflush
      cases failure with
      | none => exact spent_of_effects hflush
      | some err => exact spent_attempt (c := after.shutdown) hflush _
  | disconnecting => exact spent_attempt (c := c.shutdown) h _
  | quitting => exact spent_attempt (c := c.shutdown) h _

theorem Spent.round (h : c.Spent) (now : Instant) : (c.round now).Spent := by
  cases hstopped : c.stopped with
  | true => rwa [round_of_stopped hstopped]
  | false =>
    have heffects := c.effects_runEffects now
    rw [round_of_running hstopped]
    split_ifs
    · exact spent_of_effects heffects
    · exact spent_proceed heffects

/-- On the way to a wait the loop breaks down over the first of the orders that cannot be carried
out. -/
theorem Tallied.settle (h : c.Tallied early given now []) (hspent : c.Spent) (hpoised : c.Poised) :
    ∃ new, early ++ (c.settle now).ordered = given ++ new ∧
      (c.settle now).breakdown = new.findSome? (·.fault? now) := by
  obtain ⟨taken, hordered, hbroken⟩ := h.round.round.tally
  have hspent := (hspent.round now).round now
  have hend := hpoised.settle now
  rw [Client.settle] at hend ⊢
  generalize (c.round now).round now = d at *
  refine ⟨taken ++ d.session.effects, ?_, ?_⟩
  · rw [hordered, List.append_nil, List.append_assoc]
  · rw [List.findSome?_append, ← hbroken]
    cases hcause : d.breakdown with
    | some cause => rfl
    | none =>
      -- no order with a delay is left, be the session over or not
      rw [Option.none_or]
      cases hfreed : d.session.engine.freed with
      | true => exact (findSome?_fault?_of_no_delay (hspent hfreed) now).symm
      | false =>
        have hruns : d.stopped = false := by
          rw [stopped, hfreed, hcause]
          rfl
        rw [(hend.resolve_left (Bool.eq_false_iff.mp hruns)).effects]
        rfl

/-! ### Turns of the loop -/

/-- A turn of the loop breaks down over the first of the orders given in it that cannot be carried
out. -/
theorem Waiting.breakdown_wake (h : c.Waiting) (hrunning : c.stopped = false) (now : Instant)
    (w : Wake) :
    ∃ new, (c.wake now w).ordered = c.ordered ++ new ∧
      (c.wake now w).breakdown = new.findSome? (·.fault? now) := by
  have hbreakdown := breakdown_of_running hrunning
  cases hw : c.awaits now w with
  | false =>
    rw [wake_of_not_awaited hw]
    exact ⟨[], (List.append_nil _).symm, hbreakdown⟩
  | true =>
    obtain ⟨hgoesOn, hsame⟩ := GoesOn.answer h.journal hw
    have hstart : c.Tallied [] c.ordered now [] := by
      refine ⟨h.journal, [], ?_, hbreakdown⟩
      rw [h.effects]
      simp only [List.append_nil, List.nil_append]
    rw [wake_of_awaited hrunning hw]
    exact (hstart.goesOn hgoesOn hsame).settle (h.spent_answer hrunning) (h.answer hw)

/-- So does a client on the way to its first wait, over those that were queued before as well. -/
theorem breakdown_launch {s : Session σ} (hfreed : s.engine.freed = false)
    (writes : List (Option TransportError)) (now : Instant) :
    (launch s writes now).breakdown =
      (s.effects ++ (launch s writes now).ordered).findSome? (·.fault? now) := by
  have hstart : (start { s with journal := [] } writes).Tallied s.effects [] now [] :=
    ⟨rfl, [], (List.append_nil _), rfl⟩
  obtain ⟨new, hordered, hbroken⟩ := hstart.settle
    (fun h => absurd (hfreed.symm.trans h) Bool.false_ne_true) (poised_start _ rfl writes)
  rw [launch, hbroken, hordered, List.nil_append]

/-- The orders that are given in turns of the loop, each with the time of its turn. -/
def dated (c : Client σ) : List (Instant × Wake) → List (Instant × Effect)
  | [] => []
  | w :: wakes =>
    ((c.wake w.1 w.2).ordered.drop c.ordered.length).map (w.1, ·) ++ (c.wake w.1 w.2).dated wakes

theorem dated_of_stopped (h : c.stopped = true) (wakes : List (Instant × Wake)) :
    c.dated wakes = [] := by
  induction wakes with
  | nil => rfl
  | cons w wakes ih =>
    rw [dated, wake_of_stopped h, List.drop_length, ih]
    rfl

theorem time_of_mem_dated {wakes : List (Instant × Wake)} {p : Instant × Effect}
    (hp : p ∈ c.dated wakes) : ∃ w ∈ wakes, w.1 = p.1 := by
  induction wakes generalizing c with
  | nil => exact absurd hp List.not_mem_nil
  | cons w wakes ih =>
    rw [dated, List.mem_append] at hp
    rcases hp with hp | hp
    · obtain ⟨order, -, rfl⟩ := List.mem_map.mp hp
      exact ⟨w, List.mem_cons_self, rfl⟩
    · obtain ⟨w', hw', heq⟩ := ih hp
      exact ⟨w', List.mem_cons_of_mem w hw', heq⟩

/-- Turns of the loop break down over the first of their orders that cannot be carried out. -/
theorem breakdown_run (h : c.stopped = true ∨ c.Waiting) (wakes : List (Instant × Wake)) :
    (c.run wakes).ordered = c.ordered ++ (c.dated wakes).map Prod.snd ∧
      (c.run wakes).breakdown =
        c.breakdown.or ((c.dated wakes).findSome? fun p => p.2.fault? p.1) := by
  induction wakes generalizing c with
  | nil => exact ⟨(List.append_nil _).symm, (Option.or_none).symm⟩
  | cons w wakes ih =>
    -- a loop that has broken down takes no more turns, so its cause is the first one
    cases hstopped : c.stopped with
    | true =>
      rw [run_of_stopped hstopped, dated_of_stopped hstopped]
      exact ⟨(List.append_nil _).symm, (Option.or_none).symm⟩
    | false =>
      have hwaiting := h.resolve_left (Bool.eq_false_iff.mp hstopped)
      obtain ⟨new, hordered, hbroken⟩ := hwaiting.breakdown_wake hstopped w.1 w.2
      obtain ⟨hrun, hbreakdown⟩ := ih (hwaiting.wake w.1 w.2)
      have hnew : (c.wake w.1 w.2).ordered.drop c.ordered.length = new := by
        rw [hordered, List.drop_left]
      have hbefore := breakdown_of_running hstopped
      rw [run, List.foldl_cons, dated, hnew]
      constructor
      · rw [run] at hrun
        rw [hrun, hordered, List.map_append, List.map_map, List.append_assoc]
        exact congrArg _ (congrArg (· ++ _) (List.map_id _).symm)
      · rw [run] at hbreakdown
        rw [hbreakdown, hbroken, hbefore, Option.none_or, List.findSome?_append, List.findSome?_map]
        rfl

/-- The orders that a client is to carry out in a run, each with the time at which that is: first
those that were queued before or are given on the way to its first wait. -/
def schedule (s : Session σ) (writes : List (Option TransportError)) (now : Instant)
    (wakes : List (Instant × Wake)) : List (Instant × Effect) :=
  if s.engine.freed then []
  else
    (s.effects ++ (launch s writes now).ordered).map (now, ·) ++
      (launch s writes now).dated wakes

section Launch

variable (s : Session σ) (writes : List (Option TransportError)) (now : Instant)
  (wakes : List (Instant × Wake))

/-- The orders of a run are those that were queued before and those that are given in it. -/
theorem snd_schedule (hfreed : s.engine.freed = false) :
    (schedule s writes now wakes).map Prod.snd =
      s.effects ++ ((launch s writes now).run wakes).ordered := by
  rw [schedule, if_neg (by rw [hfreed]; exact Bool.false_ne_true), List.map_append, List.map_map,
    (breakdown_run (launch_waiting s writes now) wakes).1, ← List.append_assoc]
  exact congrArg (· ++ _) (List.map_id _)

theorem time_of_mem_schedule {p : Instant × Effect} (hp : p ∈ schedule s writes now wakes) :
    p.1 ∈ now :: wakes.map Prod.fst := by
  rw [schedule] at hp
  split_ifs at hp
  · exact absurd hp List.not_mem_nil
  rcases List.mem_append.mp hp with hp | hp
  · obtain ⟨order, -, rfl⟩ := List.mem_map.mp hp
    exact List.mem_cons_self
  · obtain ⟨w, hw, heq⟩ := time_of_mem_dated hp
    exact List.mem_cons_of_mem _ (heq ▸ List.mem_map_of_mem hw)

/-- A run breaks down over the first order of its schedule that cannot be carried out. -/
theorem breakdown_schedule :
    ((launch s writes now).run wakes).breakdown =
      (schedule s writes now wakes).findSome? fun p => p.2.fault? p.1 := by
  cases hfreed : s.engine.freed with
  | true =>
    -- the loop of a session that is over does not begin
    have hstopped : (start { s with journal := [] } writes).stopped = true := by
      rw [stopped, Bool.or_eq_true]
      exact .inl hfreed
    have hlaunch : launch s writes now = start { s with journal := [] } writes := by
      rw [launch, settle, round_of_stopped hstopped, round_of_stopped hstopped]
    rw [hlaunch, run_of_stopped hstopped, schedule, if_pos hfreed]
    rfl
  | false =>
    have hrunning : ¬s.engine.freed = true := by
      rw [hfreed]
      exact Bool.false_ne_true
    rw [schedule, if_neg hrunning, List.findSome?_append, List.findSome?_map,
      (breakdown_run (launch_waiting s writes now) wakes).2, breakdown_launch hfreed]
    rfl

end Launch

end Client

/-! ### A valid configuration -/

theorem Instant.after?_ne_none {t : Instant} {delay : Duration}
    (h : t.nanos + delay.nanos < secondsBound * nanosPerSecond) : t.after? delay ≠ none := by
  have hlt : (t.nanos + delay.nanos) / nanosPerSecond < secondsBound :=
    Nat.div_lt_of_lt_mul (by rwa [Nat.mul_comm])
  rw [after?, if_pos hlt]
  exact Option.some_ne_none _

namespace Config.Sets

variable {config : Config} {attempts : Nat} {delay : Duration}

theorem ne_zero (h : config.Sets attempts delay) (hvalid : config.Valid) :
    delay ≠ Duration.zero := by
  rcases h with rfl | ⟨failures, -, hdelay⟩
  · exact hvalid.pingInterval
  · rintro rfl
    have hbase : config.timing.reconnectBase.nanos ≠ 0 := fun h =>
      hvalid.reconnectBase (Duration.ext h)
    have hzero : Duration.zero.nanos = 0 := rfl
    have hmax : 0 < Duration.maxNanos := by decide
    omega

/-- A delay is as long as the interval of keepalive, or no longer than a wait after all of the
attempts has to be. -/
theorem nanos_le (h : config.Sets attempts delay) :
    delay.nanos = config.timing.pingInterval.nanos ∨
      delay.nanos ≤
        config.timing.reconnectBase.nanos + attempts * config.timing.reconnectStep.nanos := by
  refine h.imp (congrArg Duration.nanos) fun ⟨failures, hle, hdelay⟩ => ?_
  have hsteps := Nat.mul_le_mul_right config.timing.reconnectStep.nanos hle
  omega

end Config.Sets

theorem Effect.fault?_eq_none_iff {order : Effect} {now : Instant}
    (hzero : ∀ delay, order.delay? = some delay → delay ≠ Duration.zero) :
    (order.fault? now = none ∨ order.fault? now = some .deadlineTooLate) ∧
      (order.fault? now = none ↔
        ∀ delay, order.delay? = some delay → now.after? delay ≠ none) := by
  cases order with
  | armBackoff delay => by_cases hlate : now.after? delay = none <;> simp [fault?, delay?, hlate]
  | startKeepalive period =>
    have hperiod := hzero period rfl
    by_cases hlate : now.after? period = none <;> simp [fault?, delay?, hlate, hperiod]
  | _ => simp [fault?, delay?]

namespace Client

variable {σ : Type}

/-- **When the loop of a client breaks down.**  A valid configuration does not keep it from that:
in a run the loop breaks down just when an order sets a timer to an instant that no clock can show.
The delay of such an order is the interval of keepalive, or the base and a step for some of the
attempts to connect, those of the session before the run included.  So a run is safe as long as
there is room for these on the clock. -/
theorem deadlines_of_run (id : SessionId) {config : Config} (hvalid : config.validate = .ok ())
    (begun : Instant) (handler : Handler σ) (memory : σ) (ops : List Operation)
    (writes : List (Option TransportError)) (now : Instant) (wakes : List (Instant × Wake)) :
    let created := Session.start id config begun handler memory
    let s := created.run ops
    let c := (launch s writes now).run wakes
    let attempts := (created.acts ops).countP Act.failed + c.dials
    (s.engine.freed = false →
      (schedule s writes now wakes).map Prod.snd = s.effects ++ c.ordered) ∧
      (∀ p ∈ schedule s writes now wakes, p.1 ∈ now :: wakes.map Prod.fst ∧
        ∀ delay, p.2.delay? = some delay → config.Sets attempts delay) ∧
      (c.breakdown = none ∨ c.breakdown = some .deadlineTooLate) ∧
      (c.breakdown = none ↔ ∀ p ∈ schedule s writes now wakes,
        ∀ delay, p.2.delay? = some delay → p.1.after? delay ≠ none) ∧
      ((∀ t ∈ now :: wakes.map Prod.fst,
        t.nanos + config.timing.pingInterval.nanos < Instant.secondsBound * nanosPerSecond ∧
          t.nanos + (config.timing.reconnectBase.nanos +
            attempts * config.timing.reconnectStep.nanos) <
              Instant.secondsBound * nanosPerSecond) →
        c.breakdown = none) := by
  intro created s c attempts
  have hcreated : created.engine.Paced config 0 := ⟨rfl, 0, Nat.le_refl 0, .start _ _⟩
  obtain ⟨hpaced, horders⟩ := Session.paced_run hcreated (fun _ h => absurd h List.not_mem_nil) ops
  rw [Nat.zero_add] at hpaced horders
  have htimed := (timed_launch hpaced writes now).run wakes
  have hsets : ∀ p ∈ schedule s writes now wakes, ∀ delay, p.2.delay? = some delay →
      config.Sets attempts delay := by
    intro p hp delay hdelay
    have hmem := List.mem_map_of_mem (f := Prod.snd) hp
    cases hfreed : s.engine.freed with
    | true =>
      rw [schedule, if_pos hfreed] at hp
      exact absurd hp List.not_mem_nil
    | false =>
      rw [snd_schedule s writes now wakes hfreed, List.mem_append] at hmem
      rcases hmem with hmem | hmem
      · refine (horders p.2 ?_ delay hdelay).mono (Nat.le_add_right _ _)
        rw [Session.orders_eq_received_append_effects]
        exact List.mem_append_right _ hmem
      · exact htimed.delays p.2 hmem delay hdelay
  have hfault : ∀ p ∈ schedule s writes now wakes,
      (p.2.fault? p.1 = none ∨ p.2.fault? p.1 = some .deadlineTooLate) ∧
        (p.2.fault? p.1 = none ↔ ∀ delay, p.2.delay? = some delay → p.1.after? delay ≠ none) :=
    fun p hp => Effect.fault?_eq_none_iff fun delay hdelay =>
      (hsets p hp delay hdelay).ne_zero (Config.validate_eq_ok_iff.mp hvalid)
  have hbreakdown : c.breakdown = _ := breakdown_schedule s writes now wakes
  have hsafe : c.breakdown = none ↔ ∀ p ∈ schedule s writes now wakes,
      ∀ delay, p.2.delay? = some delay → p.1.after? delay ≠ none := by
    rw [hbreakdown, List.findSome?_eq_none_iff]
    exact forall₂_congr fun p hp => (hfault p hp).2
  refine ⟨snd_schedule s writes now wakes,
    fun p hp => ⟨time_of_mem_schedule s writes now wakes hp, hsets p hp⟩, ?_, hsafe,
    fun hroom => hsafe.mpr fun p hp delay hdelay => Instant.after?_ne_none ?_⟩
  · cases hcause : c.breakdown with
    | none => exact .inl rfl
    | some cause =>
      rw [hbreakdown] at hcause
      obtain ⟨p, hp, hpcause⟩ := List.exists_of_findSome?_eq_some hcause
      have hlate := (hfault p hp).1.resolve_left (by rw [hpcause]; exact Option.some_ne_none _)
      exact .inr (hpcause.symm.trans hlate)
  · obtain ⟨hping, hwait⟩ := hroom p.1 (time_of_mem_schedule s writes now wakes hp)
    rcases (hsets p hp delay hdelay).nanos_le with h | h <;> omega

/-- A client that is welcomed and loses its connection, with the usual delays. -/
theorem deadlines_of_run_usual :
    let config := Config.forServer "host" 6667 "me"
    let created : Session Unit := Session.start ⟨1⟩ config ⟨0⟩ .idle ()
    let wakes : List (Instant × Wake) :=
      [(⟨0⟩, .command .connect), (⟨0⟩, .dialed (.ok ())),
        (⟨0⟩, .read (.ok (Text.utf8Bytes ":srv 001 me :hi\r\n"))), (⟨10 ^ 9⟩, .read (.ok []))]
    config.validate = .ok () ∧
      ((launch created [] ⟨0⟩).run wakes).ordered.filterMap Effect.delay? =
        [config.timing.pingInterval, config.timing.reconnectBase] ∧
      ((launch created [] ⟨0⟩).run wakes).breakdown = none := by
  intro config created wakes
  have hvalid : config.validate = .ok () := by decide +kernel
  have hdelays : ((launch created [] ⟨0⟩).run wakes).ordered.filterMap Effect.delay? =
      [config.timing.pingInterval, config.timing.reconnectBase] := by
    decide +kernel
  have hattempts : (created.acts []).countP Act.failed +
      ((launch (created.run []) [] ⟨0⟩).run wakes).dials = 1 := by
    decide +kernel
  have hroom : ∀ t ∈ ⟨0⟩ :: wakes.map Prod.fst,
      t.nanos + config.timing.pingInterval.nanos < Instant.secondsBound * nanosPerSecond ∧
        t.nanos + (config.timing.reconnectBase.nanos + 1 * config.timing.reconnectStep.nanos) <
          Instant.secondsBound * nanosPerSecond := by
    simp only [wakes, List.map_cons, List.map_nil, List.forall_mem_cons]
    decide
  rw [← hattempts] at hroom
  obtain ⟨-, -, -, -, hsafe⟩ := deadlines_of_run ⟨1⟩ hvalid ⟨0⟩ Handler.idle () [] [] ⟨0⟩ wakes
  exact ⟨hvalid, hdelays, hsafe hroom⟩

/-- A client that is welcomed, and waits for keepalive longer than any clock runs. -/
theorem breakdown_of_longest_interval :
    let usual := Config.forServer "host" 6667 "me"
    let longest := Duration.ofNanos Duration.maxNanos
    let config :=
      { usual with timing := { usual.timing with pingInterval := longest, pingTimeout := longest } }
    config.validate = .ok () ∧
      ((launch (Session.start ⟨1⟩ config ⟨0⟩ .idle ()) [] ⟨0⟩).run
        [(⟨0⟩, .command .connect), (⟨0⟩, .dialed (.ok ())),
          (⟨0⟩, .read (.ok (Text.utf8Bytes ":srv 001 me :hi\r\n")))]).breakdown =
        some .deadlineTooLate := by
  decide +kernel

end Client

end Irc
