/-
How long a rehearsal goes on.

After a cue the client of a rehearsal is woken until there is nothing left for it to do, but
only so often.  That is often enough.  Every wake uses something up: the outcome of an attempt,
a chunk, the outcome of a write that fails, a tick that is due, or a step on the way back to a
connection.  `Rehearsal.effort` counts what there is to use up.  A connection that is lost takes
two steps to come back, so what can lose it counts for three.

* **`Ticker.missed_next_le`** — a tick that is taken is not due again;
* **`Client.Waiting.wake_dialed`** — a connection that was made is there, or a write has failed;
* **`Rehearsal.effort_wake_lt`** — every wake uses something up;
* **`Rehearsal.atRest_settle`** — so the allowance is enough;
* **`Rehearsal.atRest_script`** — and after every script nothing is left to do.
-/
import Irc.Proofs.Delays
import Irc.Proofs.Rehearsal
import Mathlib.Data.List.Induction

namespace Irc

/-! ### Ticks that are due -/

namespace Ticker

variable {t : Ticker} {now : Instant}

/-- How many ticks are due. -/
def missed (t : Ticker) (now : Instant) : Nat :=
  if t.isDue now then (now.nanos - t.deadline.nanos) / t.period.nanos + 1 else 0

theorem missed_eq_zero (h : now.nanos < t.deadline.nanos) : t.missed now = 0 := by
  rw [missed, isDue, if_neg]
  simpa using h

theorem missed_pos (h : t.isDue now = true) : 0 < t.missed now := by
  rw [missed, if_pos h]
  exact Nat.succ_pos _

theorem missed_le (t : Ticker) (now : Instant) :
    t.missed now ≤ (now.nanos - t.deadline.nanos) / t.period.nanos + 1 := by
  rw [missed]
  split_ifs
  · exact Nat.le_refl _
  · exact Nat.zero_le _

/-- A tick that is taken is not due again. -/
theorem missed_next_le (hperiod : t.period.nanos ≠ 0) :
    (t.next now).missed now ≤ t.missed now - 1 := by
  have hpos : 0 < t.period.nanos := Nat.pos_of_ne_zero hperiod
  by_cases hlater : now.nanos < (t.next now).deadline.nanos
  · rw [missed_eq_zero hlater]
    exact Nat.zero_le _
  -- the next tick is due as well, so this one was in time
  have hnext : (t.next now).deadline.nanos = t.deadline.nanos + t.period.nanos := by
    rw [next] at hlater ⊢
    dsimp only at hlater ⊢
    split_ifs at hlater ⊢ <;> omega
  have hperiod' : (t.next now).period = t.period := rfl
  have hdue : t.isDue now = true := decide_eq_true (by omega)
  have hdue' : (t.next now).isDue now = true := decide_eq_true (by omega)
  have hle : t.period.nanos ≤ now.nanos - t.deadline.nanos := by omega
  have hsplit := Nat.div_eq_sub_div hpos hle
  refine Nat.le_of_eq ?_
  rw [missed, missed, if_pos hdue, if_pos hdue', hperiod', hnext, Nat.add_sub_cancel,
    ← Nat.sub_sub, hsplit]

theorem missed_start {period : Duration} (h : start now period = .ok t) :
    t.period.nanos ≠ 0 ∧ t.missed now = 0 := by
  rw [start] at h
  cases hafter : now.after? period with
  | none =>
    rw [hafter] at h
    exact absurd h (by simp)
  | some deadline =>
    simp only [hafter] at h
    split_ifs at h with hempty
    obtain rfl := Except.ok.inj h
    have hperiod : period.nanos ≠ 0 := fun hzero => hempty (Duration.ext hzero)
    rw [Instant.after?] at hafter
    split_ifs at hafter
    obtain rfl := Option.some_inj.mp hafter
    exact ⟨hperiod, missed_eq_zero (Nat.lt_add_of_pos_right (Nat.pos_of_ne_zero hperiod))⟩

end Ticker

/-- After an attempt that has failed the session waits for the next. -/
theorem Engine.state_connectFailed {e : Engine} (hstate : e.state = .connecting)
    (hfreed : e.freed = false) (reason : String) :
    (e.turn (.call (.connectFailed reason))).engine.state = .reconnecting := by
  have happly : e.apply .connectFail =
      .ok (e.taken .connectFail ⟨.reconnecting, some .armBackoff, false⟩) :=
    apply_eq_ok_iff.mpr ⟨hfreed, _, by rw [hstate]; rfl, rfl⟩
  rw [turn, call, connectFailed, happly]
  rfl

namespace Client

variable {σ : Type} {c : Client σ} {now : Instant} {n k : Nat} {quits : Bool}

/-- How many ticks of the keepalive timer are due. -/
def missed (c : Client σ) (now : Instant) : Nat := (c.keepalive.map (·.missed now)).getD 0

/-- The keepalive timer can tick. -/
def Steady (c : Client σ) : Prop := ∀ t, c.keepalive = some t → t.period.nanos ≠ 0

/-- The keepalive timer can tick, and no more than so many ticks are due. -/
def Ticking (now : Instant) (n : Nat) (c : Client σ) : Prop :=
  ∀ t, c.keepalive = some t → t.period.nanos ≠ 0 ∧ t.missed now ≤ n

/-- A tick that the client takes is due. -/
theorem missed_pos (hw : c.awaits now .keepalive = true) : 0 < c.missed now := by
  rw [awaits, Bool.and_eq_true] at hw
  obtain ⟨t, ht, hdue⟩ := (Option.any_eq_true _ _).mp hw.2
  rw [missed, ht]
  exact Ticker.missed_pos hdue

theorem Steady.ticking (h : c.Steady) (now : Instant) : c.Ticking now (c.missed now) := by
  intro t ht
  rw [missed, ht]
  exact ⟨h t ht, Nat.le_refl _⟩

namespace Ticking

theorem steady (h : c.Ticking now n) : c.Steady := fun t ht => (h t ht).1

theorem missed_le (h : c.Ticking now n) : c.missed now ≤ n := by
  rw [missed]
  cases ht : c.keepalive with
  | none => exact Nat.zero_le n
  | some t => exact (h t ht).2

theorem of_none (h : c.keepalive = none) : c.Ticking now n :=
  fun _ ht => absurd (h.symm.trans ht) (by simp)

theorem mono {m : Nat} (h : c.Ticking now n) (hle : n ≤ m) : c.Ticking now m :=
  fun t ht => ⟨(h t ht).1, Nat.le_trans (h t ht).2 hle⟩

theorem tick (h : c.Ticking now n) : (c.tick now).Ticking now (n - 1) := by
  intro next hnext
  obtain ⟨t, ht, rfl⟩ := Option.map_eq_some_iff.mp hnext
  obtain ⟨hperiod, hmissed⟩ := h t ht
  exact ⟨hperiod, Nat.le_trans (Ticker.missed_next_le hperiod) (Nat.sub_le_sub_right hmissed 1)⟩

/-- A timer that is set anew is not due. -/
theorem carryOut (h : c.Ticking now n) {effect : Effect} (hcloses : effect.closes = false) :
    (c.carryOut now effect).Ticking now n := by
  unfold Client.carryOut
  split_ifs
  · exact h
  cases effect with
  | startKeepalive period =>
    dsimp only
    cases hstart : Ticker.start now period with
    | error cause => exact h
    | ok ticker =>
      intro t ht
      obtain rfl := Option.some_inj.mp ht
      obtain ⟨hperiod, hmissed⟩ := Ticker.missed_start hstart
      exact ⟨hperiod, hmissed ▸ Nat.zero_le n⟩
  | stopKeepalive => exact of_none rfl
  | armBackoff delay =>
    dsimp only
    split <;> exact h
  | closeSocket => exact absurd hcloses (by decide)
  | forceClose => exact absurd hcloses (by decide)
  | _ => exact h

theorem settle (h : c.Ticking now n) : (c.settle now).Ticking now n :=
  settle_induction (P := Ticking now n) (fun _ hb => hb)
    (fun _ _ hcloses _ hb => hb.carryOut hcloses) (fun _ _ _ _ hb => hb) (fun _ _ hb => hb)
    (fun _ _ _ => of_none rfl) h

theorem answer (h : c.Ticking now n) {w : Wake} (hw : c.awaits now w = true) :
    (c.answer now w).Ticking now n :=
  answer_induction (P := Ticking now n) hw (fun _ _ _ hb => hb) (fun _ _ hb => hb)
    (fun _ _ _ _ => of_none rfl) (fun _ hb => hb) (fun _ _ => of_none rfl)
    (fun _ hb => hb.tick.mono (Nat.sub_le n 1)) (fun _ hb => hb) (fun _ _ _ hb => hb) h

theorem wake (h : c.Ticking now n) (w : Wake) : (c.wake now w).Ticking now n := by
  cases hstopped : c.stopped with
  | true => rwa [wake_of_stopped hstopped]
  | false =>
    cases hw : c.awaits now w with
    | false => rwa [wake_of_not_awaited hw]
    | true =>
      rw [wake_of_awaited hstopped hw]
      exact (h.answer hw).settle

/-- A tick that is taken is one less. -/
theorem wake_keepalive (h : c.Ticking now n) (hrunning : c.stopped = false)
    (hw : c.awaits now .keepalive = true) : (c.wake now .keepalive).Ticking now (n - 1) := by
  rw [wake_of_awaited hrunning hw, Client.answer, attempt_eq_take]
  have hticked : ∀ t, ((c.tick now).take t).Ticking now (n - 1) := fun _ => h.tick
  exact (hticked _).settle

end Ticking

theorem Steady.run (h : c.Steady) (wakes : List (Instant × Wake)) : (c.run wakes).Steady := by
  induction wakes generalizing c with
  | nil => exact h
  | cons w wakes ih => exact ih ((h.ticking w.1).wake w.2).steady

/-! ### Outcomes of writes -/

/-- Outcomes of writes are only used up. -/
theorem length_writes_move {x y : Stage σ} (hmove : Move quits x y)
    (h : x.client.writes.length ≤ k) : y.client.writes.length ≤ k := by
  cases hmove with
  | carries c now effect rest hcloses hrunning =>
    obtain ⟨_, _, _, heq⟩ := carryOut_eq hcloses hrunning now
    rw [heq]
    exact h
  | writes c agenda houtbox => exact Nat.le_trans (List.tail_sublist _).length_le h
  | _ => exact h

theorem Waiting.length_writes_wake_le (h : c.Waiting) (now : Instant) (w : Wake) :
    (c.wake now w).writes.length ≤ c.writes.length :=
  (h.leads_wake now w).keeps (I := fun x => x.client.writes.length ≤ c.writes.length)
    length_writes_move (Nat.le_refl _)

theorem Poised.length_writes_round_le (h : c.Poised) (now : Instant) :
    (c.round now).writes.length ≤ c.writes.length := by
  have hleads : Leads false ⟨c, []⟩ ⟨c.round now, []⟩ := h.leads_round now
  exact hleads.keeps (I := fun x => x.client.writes.length ≤ c.writes.length)
    length_writes_move (Nat.le_refl _)

/-- A write that fails uses its outcome up. -/
theorem length_writes_writeLines_lt {lines : List String} {err : TransportError}
    (h : (c.writeLines lines).2 = some err) :
    (c.writeLines lines).1.writes.length < c.writes.length := by
  induction lines generalizing c with
  | nil => exact absurd h (by simp [writeLines])
  | cons line lines ih =>
    have htail : c.writes.tail.length ≤ c.writes.length := (List.tail_sublist _).length_le
    cases hfailure : c.writes.head?.join with
    | some err' =>
      simp only [writeLines, hfailure]
      have hwrites : 0 < c.writes.length :=
        List.length_pos_iff.mpr fun hnil => by simp [hnil] at hfailure
      show c.writes.tail.length < c.writes.length
      rw [List.length_tail]
      exact Nat.sub_lt hwrites Nat.one_pos
    | none =>
      simp only [writeLines, hfailure] at h ⊢
      exact Nat.lt_of_lt_of_le (ih h) htail

theorem length_writes_flush_lt {err : TransportError} (h : c.flush.2 = some err) :
    c.flush.1.writes.length < c.writes.length :=
  length_writes_writeLines_lt h

/-! ### The end of an attempt -/

theorem foldl_carryOut_eq {effects : List Effect}
    (horders : ∀ effect ∈ effects, effect.closes = false) (c : Client σ) (now : Instant) :
    ∃ keepalive reconnectAt breakdown, effects.foldl (carryOut now) c =
      { c with keepalive := keepalive, reconnectAt := reconnectAt, breakdown := breakdown } := by
  induction effects generalizing c with
  | nil => exact ⟨c.keepalive, c.reconnectAt, c.breakdown, rfl⟩
  | cons effect effects ih =>
    rw [List.forall_mem_cons] at horders
    rw [List.foldl_cons]
    rcases c.carryOut_cases now effect with ⟨-, heq⟩ | ⟨-, -, _, _, _, heq⟩ | ⟨hcloses, -⟩
    · rw [heq]
      exact ih horders.2 c
    · obtain ⟨keepalive, reconnectAt, breakdown, hrest⟩ := ih horders.2 (c.carryOut now effect)
      rw [hrest, heq]
      exact ⟨keepalive, reconnectAt, breakdown, rfl⟩
    · exact absurd (horders.1.symm.trans hcloses) Bool.false_ne_true

/-- Orders that do not close the socket leave all but the timers alone. -/
theorem runEffects_eq (horders : ∀ effect ∈ c.session.effects, effect.closes = false)
    (now : Instant) : ∃ keepalive reconnectAt breakdown, c.runEffects now =
      { c.takeUp with
        keepalive := keepalive, reconnectAt := reconnectAt, breakdown := breakdown } := by
  obtain ⟨keepalive, reconnectAt, breakdown, heq⟩ := foldl_carryOut_eq horders c.takeUp now
  rw [runEffects, takeEffects_eq, takeEffects_eq, heq]
  exact ⟨keepalive, reconnectAt, breakdown, rfl⟩

/-- With its orders carried out, a client that is connected stays so, unless a write fails. -/
theorem Poised.proceed_of_connected (h : c.Poised) (heffects : c.session.effects = [])
    (hfreed : c.session.engine.freed = false) (hstate : c.state = .connected) (now : Instant) :
    (c.proceed.round now).state = .connected ∨
      (c.proceed.round now).writes.length < c.writes.length := by
  have hafter : c.flush.1.state = .connected := c.state_flush.trans hstate
  have hlt : ∀ err, c.flush.2 = some err → c.flush.1.writes.length < c.writes.length :=
    fun err hfailure => length_writes_flush_lt hfailure
  have hwait := h.proceed heffects hfreed
  have hpoised := h.flush
  rw [Client.proceed, hstate] at hwait ⊢
  dsimp only at hwait ⊢
  cases hflush : c.flush with
  | mk after failure =>
    rw [hflush] at hafter hlt hwait hpoised
    cases failure with
    | none =>
      -- all is written, so the client is at a wait
      have hwaiting : after.Waiting := hwait.resolve_right fun hapart => by
        rcases hapart.state with hoff | hoff <;>
          exact absurd (hoff.symm.trans hafter) (by decide)
      rw [hwaiting.round]
      exact .inl hafter
    | some err =>
      have hle := (hpoised.lose err.message).length_writes_round_le now
      have hlost : (after.lose err.message).writes = after.writes := rfl
      rw [hlost] at hle
      exact .inr (Nat.lt_of_le_of_lt hle (hlt err rfl))

/-- On the way to a wait a connection is lost only by a write that fails. -/
theorem Poised.settle_of_connected (h : c.Poised) (hstate : c.state = .connected)
    (horders : ∀ effect ∈ c.session.effects, effect.closes = false) (now : Instant) :
    (c.settle now).stopped = true ∨ (c.settle now).state = .connected ∨
      (c.settle now).writes.length < c.writes.length := by
  have hstopped_round : ∀ {b : Client σ}, b.stopped = true → (b.round now).stopped = true :=
    fun hb => by rwa [round_of_stopped hb]
  cases hrunning : c.stopped with
  | true => exact .inl (hstopped_round (hstopped_round hrunning))
  | false =>
    rw [Client.settle, round_of_running hrunning]
    split_ifs with hstopped
    · exact .inl (hstopped_round hstopped)
    · obtain ⟨_, _, _, heffects⟩ := runEffects_eq horders now
      have hwrites : (c.runEffects now).writes = c.writes := by rw [heffects]; rfl
      have hstate' : (c.runEffects now).state = .connected := by rw [heffects]; exact hstate
      rw [← hwrites]
      exact .inr ((h.runEffects now).proceed_of_connected (c.effects_runEffects now)
        (freed_of_running (Bool.eq_false_iff.mpr hstopped)) hstate' now)

/-- A connection that was made is there at the next wait, or a write has failed. -/
theorem Waiting.wake_dialed (h : c.Waiting) (hrunning : c.stopped = false)
    (hdialing : c.dialing = true) (now : Instant) :
    (c.wake now (.dialed (.ok ()))).stopped = true ∨
      (c.wake now (.dialed (.ok ()))).state = .connected ∨
        (c.wake now (.dialed (.ok ()))).writes.length < c.writes.length := by
  have hw : c.awaits now (.dialed (.ok ())) = true := hdialing
  have hpoised := h.answer hw
  rw [wake_of_awaited hrunning hw]
  rw [answer_dialed_eq_take (h.dialing hdialing) (freed_of_running hrunning)] at hpoised ⊢
  refine hpoised.settle_of_connected ?_ ?_ now
  · rw [state_take]
    rfl
  · have hbefore : c.attach.session.effects = [] := h.effects
    rw [effects_take, Engine.effects_openingOutputs, hbefore, List.nil_append]
    split_ifs <;> decide

/-- An attempt that has ended is over. -/
theorem Waiting.dialing_wake_dialed (h : c.Waiting) (hrunning : c.stopped = false)
    (hdialing : c.dialing = true) (now : Instant) (outcome : Except TransportError Unit) :
    (c.wake now (.dialed outcome)).dialing = false := by
  have hstate := h.dialing hdialing
  have hfreed := freed_of_running hrunning
  have hw : c.awaits now (.dialed outcome) = true := hdialing
  rw [wake_of_awaited hrunning hw]
  refine (settle_induction (P := fun b => b.dialing = false ∧ b.state ≠ .connecting)
    (fun _ hb => hb) (fun b effect hcloses hbroken hb => ?_) (fun _ _ _ _ hb => hb)
    (fun b hconnecting hb => absurd hconnecting hb.2) (fun b reason hb => ⟨hb.1, ?_⟩) ?_).1
  · obtain ⟨_, _, _, heq⟩ := carryOut_eq hcloses hbroken now
    rw [heq]
    exact hb
  · rcases b.lose_cases reason with ⟨hengine, -⟩ | ⟨-, -, hoff | hoff, -⟩
    · rw [state, hengine]
      exact hb.2
    · rw [hoff]
      decide
    · rw [hoff]
      decide
  · cases outcome with
    | ok connected =>
      rw [answer_dialed_eq_take hstate hfreed, state_take]
      exact ⟨rfl, by simp [Engine.opened]⟩
    | error err =>
      rw [Client.answer, attempt_eq_take, state_take]
      have hoff := Engine.state_connectFailed hstate hfreed err.message
      exact ⟨rfl, fun hconnecting => absurd (hoff.symm.trans hconnecting) (by decide)⟩

/-- When the reconnect timer has run out, the client dials again. -/
theorem wake_timer (hrunning : c.stopped = false)
    (hw : c.awaits now .timer = true) : (c.wake now .timer).state = .connecting := by
  have hfreed := freed_of_running hrunning
  have hstate : c.state = .reconnecting := by
    rw [awaits, Bool.and_eq_true, decide_eq_true_eq] at hw
    exact hw.1
  rw [wake_of_awaited hrunning hw]
  refine settle_induction (P := fun b => b.state = .connecting) (fun _ hb => hb)
    (fun b effect hcloses hbroken hb => ?_) (fun _ _ _ _ hb => hb) (fun _ _ hb => hb)
    (fun b reason hb => ?_) ?_
  · obtain ⟨_, _, _, heq⟩ := carryOut_eq hcloses hbroken now
    rw [heq]
    exact hb
  · rcases b.lose_cases reason with ⟨hengine, -⟩ | ⟨hheld, -⟩
    · rw [state, hengine]
      exact hb
    · rw [hb] at hheld
      exact absurd hheld (by decide)
  · rw [Client.answer, attempt_eq_take, state_take]
    exact congrArg (fun t => t.engine.state) (Engine.turn_timerFired hstate hfreed)

end Client

/-! ### What there is to use up -/

/-- The steps from a state back to a connection. -/
def ConnectionState.stepsBack : ConnectionState → Nat
  | .reconnecting => 2
  | .connecting => 1
  | _ => 0

theorem ConnectionState.stepsBack_le (state : ConnectionState) : state.stepsBack ≤ 2 := by
  cases state <;> decide

namespace Rehearsal

variable {σ : Type} {r r' next : Rehearsal σ} {w : Wake}

/-- How often the client can be woken before there is nothing left for it to do. -/
def effort (r : Rehearsal σ) : Nat :=
  3 * (r.dials.length + r.inbound.length + r.client.writes.length + r.client.missed r.now) +
    r.client.state.stepsBack

/-- There is nothing left for the client to do. -/
def AtRest (r : Rehearsal σ) : Prop :=
  ∀ w, r.ready?.map Prod.fst = some w →
    r.client.stopped = true ∨ r.client.awaits r.now w = false

/-- The client is at a wait, unless its loop has ended, and its timer can tick. -/
structure InOrder (r : Rehearsal σ) : Prop where
  waiting : r.client.stopped = true ∨ r.client.Waiting
  steady : r.client.Steady

namespace InOrder

theorem runs (h : r.InOrder) (hruns : r.Runs r') : r'.InOrder := by
  obtain ⟨wakes, -, hclient⟩ := hruns.client
  refine ⟨?_, hclient ▸ h.steady.run wakes⟩
  rw [hclient]
  rcases h.waiting with hstopped | hwaiting
  · exact .inl (by rwa [Client.run_of_stopped hstopped])
  · exact hwaiting.run wakes

theorem prepare (h : r.InOrder) (cue : Cue) : (r.prepare cue).InOrder := by
  obtain ⟨writes, hclient⟩ := r.client_prepare cue
  refine ⟨?_, hclient ▸ h.steady⟩
  rw [hclient]
  exact h.waiting.imp id fun hw =>
    ⟨⟨hw.journal, hw.dialing⟩, hw.effects, hw.sent, hw.dialed, hw.rests⟩

end InOrder

/-- Where there is something to do there is something to use up. -/
theorem effort_pos (hready : r.Ready w next) (hw : r.client.awaits r.now w = true) :
    0 < r.effort := by
  rw [effort]
  cases hready with
  | dialed hstate h =>
    rw [hstate]
    exact Nat.succ_pos _
  | read hstate hinbound =>
    rw [hinbound, List.length_cons]
    omega
  | keepalive hstate =>
    have hmissed := Client.missed_pos hw
    omega
  | timer hstate =>
    rw [hstate]
    exact Nat.succ_pos _

theorem length_dials_wake_le (r : Rehearsal σ) (w : Wake) :
    (r.wake w).dials.length ≤ r.dials.length := by
  rw [wake]
  dsimp only
  split_ifs
  · exact (List.tail_sublist _).length_le
  · exact Nat.le_refl _

/-- **Every wake uses something up**, unless the loop ends. -/
theorem effort_wake_lt (h : r.InOrder) (hrunning : r.client.stopped = false)
    (hready : r.Ready w next) (hw : r.client.awaits r.now w = true) :
    (next.wake w).client.stopped = true ∨ (next.wake w).effort < r.effort := by
  have hwaiting : r.client.Waiting := h.waiting.resolve_left (by rw [hrunning]; decide)
  have hticking := h.steady.ticking r.now
  have hbefore : r.effort = 3 * (r.dials.length + r.inbound.length + r.client.writes.length +
      r.client.missed r.now) + r.client.state.stepsBack := rfl
  have hafter : (next.wake w).effort =
      3 * ((next.wake w).dials.length + next.inbound.length +
        (r.client.wake r.now w).writes.length + (r.client.wake r.now w).missed r.now) +
      (r.client.wake r.now w).state.stepsBack := by
    cases hready <;> rfl
  have hdials := next.length_dials_wake_le w
  have hwrites := hwaiting.length_writes_wake_le r.now w
  have hmissed := (hticking.wake w).missed_le
  have hback := (r.client.wake r.now w).state.stepsBack_le
  cases hready with
  | @dialed outcome hstate houtcome =>
    have hdialing := hwaiting.dialed hstate
    have hover := hwaiting.dialing_wake_dialed hrunning hdialing r.now outcome
    have hsteps : r.client.state.stepsBack = 1 := by rw [hstate]; rfl
    have htail : (r.wake (.dialed outcome)).dials.length = r.dials.length - 1 := by
      rw [wake, hdialing, hover]
      exact List.length_tail
    rcases houtcome with rfl | hsome
    · rcases hwaiting.wake_dialed hrunning hdialing r.now with hstopped | hconnected | hlt
      · exact .inl hstopped
      · have hsteps' : (r.client.wake r.now (.dialed (.ok ()))).state.stepsBack = 0 := by
          rw [hconnected]
          rfl
        exact .inr (by omega)
      · exact .inr (by omega)
    · have hpos := List.length_pos_iff.mpr hsome
      exact .inr (by omega)
  | @read outcome rest hstate hinbound =>
    have hlength : r.inbound.length = rest.length + 1 := by rw [hinbound, List.length_cons]
    exact .inr (by dsimp only at *; omega)
  | keepalive hstate =>
    have htaken := (hticking.wake_keepalive hrunning hw).missed_le
    have hpos := Client.missed_pos hw
    exact .inr (by omega)
  | timer hstate =>
    have hsteps : r.client.state.stepsBack = 2 := by rw [hstate]; rfl
    have hsteps' : (r.client.wake r.now .timer).state.stepsBack = 1 := by
      rw [Client.wake_timer hrunning hw]
      rfl
    exact .inr (by omega)

/-! ### When everything is done -/

theorem atRest_of_idle (h : ∀ w next, r.Ready w next →
    r.client.stopped = true ∨ r.client.awaits r.now w = false) : r.AtRest := by
  intro w hw
  obtain ⟨⟨w, next⟩, hready, rfl⟩ := Option.map_eq_some_iff.mp hw
  exact h w next (ready_of_ready? hready)

/-- What there is to use up is all that is needed. -/
theorem atRest_settleWithin {fuel : Nat} (h : r.InOrder)
    (hfuel : r.client.stopped = true ∨ r.effort ≤ fuel) : (settleWithin fuel r).AtRest := by
  induction fuel generalizing r with
  | zero =>
    refine atRest_of_idle fun w next hready => hfuel.imp_right fun hnone => ?_
    refine Bool.eq_false_iff.mpr fun hw => ?_
    exact Nat.not_lt.mpr hnone (effort_pos hready hw)
  | succ fuel ih =>
    rw [settleWithin]
    cases hready : r.ready? with
    | none => exact fun w hw => absurd hw (by simp [hready])
    | some todo =>
      have htodo : r.Ready todo.1 todo.2 := ready_of_ready? hready
      dsimp only
      split_ifs with hgo
      · rw [Bool.and_eq_true, Bool.not_eq_true'] at hgo
        have hwoken := effort_wake_lt h hgo.1 htodo hgo.2
        refine ih (h.runs (htodo.runs.trans (.wake _ _))) ?_
        rcases hfuel with hstopped | hle
        · exact absurd (hgo.1.symm.trans hstopped) (by decide)
        · exact hwoken.imp_right fun hlt => Nat.le_of_lt_succ (Nat.lt_of_lt_of_le hlt hle)
      · intro w hw
        rw [hready, Option.map_some] at hw
        obtain rfl := Option.some_inj.mp hw
        cases hstopped : r.client.stopped with
        | true => exact .inl rfl
        | false =>
          rw [hstopped, Bool.not_false, Bool.true_and, Bool.not_eq_true] at hgo
          exact .inr hgo

theorem effort_le_workload (r : Rehearsal σ) : r.effort ≤ r.workload := by
  have hback := r.client.state.stepsBack_le
  rw [effort, workload, Client.missed]
  cases r.client.keepalive with
  | none =>
    dsimp only [Option.map_none, Option.getD_none]
    omega
  | some t =>
    have hmissed := t.missed_le r.now
    dsimp only [Option.map_some, Option.getD_some]
    omega

/-- **The allowance is enough.**  When the client has settled, nothing is left for it to do. -/
theorem atRest_settle (h : r.InOrder) : r.settle.AtRest :=
  atRest_settleWithin h (.inr r.effort_le_workload)

/-- Whether there is something to do does not depend on what becomes of writes. -/
theorem ready?_breakWrite (r : Rehearsal σ) (cause : TransportError) :
    (r.prepare (.breakWrite cause)).ready?.map Prod.fst = r.ready?.map Prod.fst := by
  have hstate : (r.prepare (.breakWrite cause)).client.state = r.client.state := rfl
  have hdials : (r.prepare (.breakWrite cause)).dials = r.dials := rfl
  have hinbound : (r.prepare (.breakWrite cause)).inbound = r.inbound := rfl
  rw [ready?, ready?, hstate, hdials, hinbound]
  cases r.client.state with
  | connecting =>
    cases r.dials with
    | nil => rfl
    | cons outcome later => cases outcome <;> rfl
  | connected => cases r.inbound <;> rfl
  | _ => rfl

theorem AtRest.play (hrest : r.AtRest) (h : r.InOrder) (cue : Cue) : (r.play cue).AtRest := by
  cases cue with
  | command command =>
    rw [Rehearsal.play]
    split
    · exact atRest_settle (h.runs (.wake r _))
    · exact hrest
  | receive outcome => exact atRest_settle (h.prepare (.receive outcome))
  | breakWrite cause =>
    intro w hw
    have hsame := r.ready?_breakWrite cause
    have hrested := hrest w (hsame.symm.trans hw)
    cases w <;> exact hrested
  | breakClose cause => exact hrest
  | advance millis => exact atRest_settle (h.prepare (.advance millis))
  | letGo => exact atRest_settle ((h.prepare .letGo).runs (.wake _ _))

section Scripts

variable (id : SessionId) (config : Config) (begun : Instant) (handler : Handler σ) (memory : σ)
  (dials : List DialOutcome) (cues : List Cue)

/-- A script is a run, so it leaves the client of a new session in order. -/
theorem inOrder_script :
    (cues.foldl play (start (Session.start id config begun handler memory) dials)).InOrder := by
  obtain ⟨writes, wakes, hrun, -⟩ :=
    exists_run_of_script (Session.start id config begun handler memory) dials cues
  constructor
  · rw [hrun]
    exact (Client.waiting_fresh id config begun handler memory writes).run wakes
  · rw [hrun]
    exact Client.Steady.run (fun t ht => absurd ht (by simp [Client.start])) wakes

/-- **After every script nothing is left to do** for the client of a new session: it waits for
something that the script does not have, or its loop has ended. -/
theorem atRest_script :
    (cues.foldl play (start (Session.start id config begun handler memory) dials)).AtRest := by
  induction cues using List.reverseRecOn with
  | nil => exact fun w hw => absurd hw (Option.some_ne_none w).symm
  | append_singleton cues cue ih =>
    rw [List.foldl_append]
    exact ih.play (inOrder_script id config begun handler memory dials cues) cue

end Scripts

end Rehearsal

end Irc
