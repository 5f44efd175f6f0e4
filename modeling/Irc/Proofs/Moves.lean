/-
The event loop, move by move.

A `Stage` is a client in the middle of its loop, with the orders that it has taken up and not
yet carried out.  `Move` lists what can happen next, whatever the network, the callers, the
timers and the handler do.  So a property of clients that every move keeps holds at every wait
of every run, and between the waits as well.

* **`Client.Poised.leads_settle`** — the way to a wait is made of moves;
* **`Client.Waiting.leads_answer`** — so is the answer to a wake;
* **`Client.Waiting.leads_run`** — and so is every run;
* **`Leads.keeps`** — what every move keeps is kept.
-/
import Irc.Proofs.Waiting
import Mathlib.Logic.Relation

namespace Irc

open Client

/-- A client between two steps of its loop. -/
structure Stage (σ : Type) where
  client : Client σ
  /-- Orders that were taken up and are not yet carried out. -/
  agenda : List Effect

variable {σ : Type} {quits : Bool}

/-- What can happen next.  Only if `quits` somebody may ask for the end of the session. -/
inductive Move (quits : Bool) : Stage σ → Stage σ → Prop where
  /-- The orders that are queued are taken up. -/
  | takesUp (c : Client σ) :
      Move quits ⟨c, []⟩ ⟨c.takeUp, c.session.effects⟩
  /-- A timer is set or stopped by order. -/
  | carries (c : Client σ) (now : Instant) (effect : Effect) (rest : List Effect)
      (hcloses : effect.closes = false) (hrunning : c.breakdown = none) :
      Move quits ⟨c, effect :: rest⟩ ⟨c.carryOut now effect, rest⟩
  /-- An order that closes the socket is taken off; the closing is a move of its own. -/
  | passes (c : Client σ) (effect : Effect) (rest : List Effect)
      (h : effect.closes = true ∨ c.breakdown ≠ none) :
      Move quits ⟨c, effect :: rest⟩ ⟨c, rest⟩
  | dials (c : Client σ) (agenda : List Effect) (hstate : c.state = .connecting) :
      Move quits ⟨c, agenda⟩ ⟨c.dial, agenda⟩
  | writes (c : Client σ) (agenda : List Effect) {line : String} {rest : List String}
      (houtbox : c.session.outbox = line :: rest) :
      Move quits ⟨c, agenda⟩ ⟨c.put line rest, agenda⟩
  /-- The transport is closed, but not while an attempt is being called off. -/
  | loses (c : Client σ) (agenda : List Effect) (reason : String)
      (hdialing : c.dialing = true → c.state = .connecting) :
      Move quits ⟨c, agenda⟩ ⟨c.lose reason, agenda⟩
  /-- The attempt to connect has succeeded. -/
  | opens (c : Client σ) (agenda : List Effect) (now : Instant) (hdialing : c.dialing = true)
      (hstate : c.state = .connecting) (hfreed : c.session.engine.freed = false) :
      Move quits ⟨c, agenda⟩ ⟨c.answer now (.dialed (.ok ())), agenda⟩
  /-- The attempt to connect has failed or is called off. -/
  | fails (c : Client σ) (agenda : List Effect) (reason : String) (hdialing : c.dialing = true) :
      Move quits ⟨c, agenda⟩
        ⟨{ c with dialing := false }.shutdown.attempt (.connectFailed reason), agenda⟩
  /-- The session does something that neither makes nor ends a connection. -/
  | acts (c : Client σ) (agenda : List Effect) {t : Turn}
      (hdialing : c.state = .connecting → c.dialing = true)
      (h : Engine.Interim quits c.session.engine t) :
      Move quits ⟨c, agenda⟩ ⟨c.take t, agenda⟩
  /-- Bytes are taken in. -/
  | reads (c : Client σ) (agenda : List Effect) (bytes : List UInt8)
      (hopen : c.session.engine.Open) :
      Move quits ⟨c, agenda⟩
        ⟨{ c with
            framer := (c.framer.feed c.buffer bytes).2.1
            buffer := (c.framer.feed c.buffer bytes).2.2 }, agenda⟩
  | ticks (c : Client σ) (agenda : List Effect) (now : Instant) :
      Move quits ⟨c, agenda⟩ ⟨c.tick now, agenda⟩
  /-- The reconnect timer has run out. -/
  | expires (c : Client σ) (agenda : List Effect) (hstate : c.state = .reconnecting)
      (hfreed : c.session.engine.freed = false) :
      Move quits ⟨c, agenda⟩ ⟨{ c with reconnectAt := none }.attempt .timerFired, agenda⟩

/-- Moves lead from one stage to another. -/
def Leads (quits : Bool) : Stage σ → Stage σ → Prop := Relation.ReflTransGen (Move quits)

namespace Leads

variable {x y z : Stage σ}

theorem refl (x : Stage σ) : Leads quits x x := Relation.ReflTransGen.refl

theorem trans (h : Leads quits x y) (h' : Leads quits y z) : Leads quits x z :=
  Relation.ReflTransGen.trans h h'

theorem move (h : Move quits x y) : Leads quits x y := .single h

/-- What every move keeps is kept all the way. -/
theorem keeps {I : Stage σ → Prop} (step : ∀ {x y}, Move quits x y → I x → I y)
    (h : Leads quits x y) (hx : I x) : I y := by
  induction h with
  | refl => exact hx
  | tail _ hmove ih => exact step hmove ih

end Leads

/-- With somebody who may ask for the end there are more moves. -/
theorem Move.mono {quits' : Bool} (hquits : quits = true → quits' = true) {x y : Stage σ}
    (h : Move quits x y) : Move quits' x y := by
  cases h with
  | takesUp c => exact .takesUp c
  | carries c now effect rest hcloses hrunning => exact .carries c now effect rest hcloses hrunning
  | passes c effect rest h => exact .passes c effect rest h
  | dials c agenda hstate => exact .dials c agenda hstate
  | writes c agenda houtbox => exact .writes c agenda houtbox
  | loses c agenda reason hdialing => exact .loses c agenda reason hdialing
  | opens c agenda now hdialing hstate hfreed => exact .opens c agenda now hdialing hstate hfreed
  | fails c agenda reason hdialing => exact .fails c agenda reason hdialing
  | acts c agenda hdialing h => exact .acts c agenda hdialing (h.mono hquits)
  | reads c agenda bytes hopen => exact .reads c agenda bytes hopen
  | ticks c agenda now => exact .ticks c agenda now
  | expires c agenda hstate hfreed => exact .expires c agenda hstate hfreed

theorem Leads.mono {quits' : Bool} (hquits : quits = true → quits' = true) {x y : Stage σ}
    (h : Leads quits x y) : Leads quits' x y :=
  Relation.ReflTransGen.mono (fun _ _ => Move.mono hquits) _ _ h

namespace Client

variable {c : Client σ} {now : Instant}

/-! ### From one wait to the next -/

theorem leads_flush (c : Client σ) (agenda : List Effect) :
    Leads quits ⟨c, agenda⟩ ⟨c.flush.1, agenda⟩ :=
  flush_induction (P := fun b => Leads quits ⟨c, agenda⟩ ⟨b, agenda⟩)
    (fun b _ _ houtbox h => h.trans (.move (.writes b agenda houtbox))) (.refl _)

theorem Poised.leads_lose (h : c.Poised) (agenda : List Effect) (reason : String) :
    Leads quits ⟨c, agenda⟩ ⟨c.lose reason, agenda⟩ := .move (.loses c agenda reason h.dialing)

theorem Poised.leads_carryOut (h : c.Poised) (now : Instant) (effect : Effect)
    (rest : List Effect) : Leads quits ⟨c, effect :: rest⟩ ⟨c.carryOut now effect, rest⟩ := by
  rcases c.carryOut_cases now effect with ⟨hbroken, heq⟩ | ⟨hcloses, hrunning, -⟩ |
    ⟨hcloses, b, reason, hb, heq⟩
  · rw [heq]
    exact .move (.passes c effect rest (.inr hbroken))
  · exact .move (.carries c now effect rest hcloses hrunning)
  · rw [heq]
    refine (Leads.move (.passes c effect rest (.inl hcloses))).trans ?_
    rcases hb with rfl | rfl
    · exact h.leads_lose rest reason
    · exact (c.leads_flush rest).trans (h.flush.leads_lose rest reason)

theorem Poised.leads_takeEffects (h : c.Poised) (now : Instant) :
    (c.takeEffects now).Poised ∧ Leads quits ⟨c, []⟩ ⟨c.takeEffects now, []⟩ := by
  have hall : ∀ (effects : List Effect) (c : Client σ), c.Poised →
      (effects.foldl (Client.carryOut now) c).Poised ∧
        Leads quits ⟨c, effects⟩ ⟨effects.foldl (Client.carryOut now) c, []⟩ := by
    intro effects
    induction effects with
    | nil => exact fun c h => ⟨h, .refl _⟩
    | cons effect effects ih =>
      intro c h
      exact (ih _ (h.carryOut now effect)).imp_right (h.leads_carryOut now effect effects).trans
  have htaken : c.takeUp.Poised := ⟨h.journal, h.dialing⟩
  exact (hall c.session.effects _ htaken).imp_right (Leads.move (.takesUp c)).trans

theorem Poised.leads_runEffects (h : c.Poised) (now : Instant) :
    Leads quits ⟨c, []⟩ ⟨c.runEffects now, []⟩ := by
  obtain ⟨hpoised, hleads⟩ := h.leads_takeEffects now
  exact hleads.trans (hpoised.leads_takeEffects now).2

theorem Poised.leads_proceed (h : c.Poised) : Leads quits ⟨c, []⟩ ⟨c.proceed, []⟩ := by
  rw [Client.proceed]
  cases hstate : c.state with
  | disconnected => exact .refl _
  | reconnecting => exact .refl _
  | connecting =>
    dsimp only
    split_ifs
    · exact .refl _
    · exact .move (.dials c [] hstate)
  | connected =>
    have hflush : Leads quits ⟨c, []⟩ ⟨c.flush.1, []⟩ := c.leads_flush []
    have hpoised := h.flush
    cases hf : c.flush with
    | mk after failure =>
      rw [hf] at hflush hpoised
      cases failure with
      | none => exact hflush
      | some err => exact hflush.trans (hpoised.leads_lose [] err.message)
  | disconnecting => exact h.leads_lose [] _
  | quitting => exact h.leads_lose [] _

theorem Poised.leads_round (h : c.Poised) (now : Instant) :
    Leads quits ⟨c, []⟩ ⟨c.round now, []⟩ := by
  cases hstopped : c.stopped with
  | true =>
    rw [round_of_stopped hstopped]
    exact .refl _
  | false =>
    rw [round_of_running hstopped]
    split_ifs
    · exact h.leads_runEffects now
    · exact (h.leads_runEffects now).trans (h.runEffects now).leads_proceed

/-- The way to a wait. -/
theorem Poised.leads_settle (h : c.Poised) (now : Instant) :
    Leads quits ⟨c, []⟩ ⟨c.settle now, []⟩ := by
  rw [Client.settle]
  refine (h.leads_round now).trans ?_
  rcases h.round now with hstopped | hwaiting | hapart
  · rw [round_of_stopped hstopped]
    exact .refl _
  · exact hwaiting.leads_round now
  · exact hapart.leads_round now

/-! ### Waking up -/

theorem leads_takeBytes (hopen : c.session.engine.Open) (now : Instant) (bytes : List UInt8) :
    Leads quits ⟨c, []⟩ ⟨c.takeBytes now bytes, []⟩ := by
  suffices h : Leads quits ⟨c, []⟩ ⟨c.takeBytes now bytes, []⟩ ∧
      (c.takeBytes now bytes).session.engine.Open from h.1
  refine takeBytes_induction
    (P := fun b => Leads quits ⟨c, []⟩ ⟨b, []⟩ ∧ b.session.engine.Open)
    ⟨.move (.reads c [] bytes hopen), hopen⟩ fun b frame ⟨hleads, hb⟩ => ⟨hleads.trans ?_, ?_⟩
  · refine .move (.acts b [] (fun h => absurd (hb.1.symm.trans h) (by decide)) ?_)
    exact Engine.interim_response hb (b.session.engine.response_hear now frame)
      (b.session.engine.life_hear now frame)
  · rw [engine_take]
    exact (Engine.open_of_life (b.session.engine.life_hear now frame)).mpr hb

theorem Waiting.leads_obey (h : c.Waiting) (command : ClientCommand) :
    Leads command.isQuit ⟨c, []⟩ ⟨c.obey command, []⟩ := by
  rw [obey_eq_take, reconsider]
  have hheeded := c.session.engine.interim_heed command
  refine (Leads.move (.acts c [] h.dialed hheeded)).trans ?_
  split_ifs with hturned
  · rw [Bool.and_eq_true] at hturned
    exact .move (.fails _ [] _ hturned.1)
  · exact .refl _

/-- The answer to a wake. -/
theorem Waiting.leads_answer (h : c.Waiting) (hrunning : c.stopped = false) {w : Wake}
    (hw : c.awaits now w = true) : Leads w.isQuit ⟨c, []⟩ ⟨c.answer now w, []⟩ := by
  have hfreed := freed_of_running hrunning
  cases w with
  | dialed outcome =>
    have hstate := h.dialing hw
    cases outcome with
    | ok connected => exact .move (.opens c [] now hw hstate hfreed)
    | error err => exact .move (.fails c [] err.message hw)
  | read outcome =>
    have hopen : c.session.engine.Open := ⟨of_decide_eq_true hw, hfreed⟩
    cases outcome with
    | error err => exact h.leads_lose [] err.message
    | ok bytes =>
      cases bytes with
      | nil => exact h.leads_lose [] _
      | cons byte bytes => exact leads_takeBytes hopen now (byte :: bytes)
  | command command => exact h.leads_obey command
  | abandoned => exact h.leads_obey (.quit none)
  | keepalive =>
    rw [Client.answer, attempt_eq_take]
    refine (Leads.move (.ticks c [] now)).trans ?_
    exact .move (.acts (c.tick now) [] h.dialed (Engine.interim_call trivial))
  | timer =>
    rw [awaits, Bool.and_eq_true, decide_eq_true_eq] at hw
    exact .move (.expires c [] hw.1 hfreed)

/-- A turn of the loop. -/
theorem Waiting.leads_wake (h : c.Waiting) (now : Instant) (w : Wake) :
    Leads w.isQuit ⟨c, []⟩ ⟨c.wake now w, []⟩ := by
  cases hstopped : c.stopped with
  | true =>
    rw [wake_of_stopped hstopped]
    exact .refl _
  | false =>
    cases hw : c.awaits now w with
    | false =>
      rw [wake_of_not_awaited hw]
      exact .refl _
    | true =>
      rw [wake_of_awaited hstopped hw]
      exact (h.leads_answer hstopped hw).trans ((h.answer hw).leads_settle now)

/-- Turns of the loop, one after the other. -/
theorem Waiting.leads_run (h : c.Waiting) {wakes : List (Instant × Wake)}
    (hquits : ∀ w ∈ wakes, w.2.isQuit = true → quits = true) :
    Leads quits ⟨c, []⟩ ⟨c.run wakes, []⟩ := by
  induction wakes generalizing c with
  | nil => exact .refl _
  | cons w wakes ih =>
    rw [List.forall_mem_cons] at hquits
    have hfirst := (h.leads_wake w.1 w.2).mono hquits.1
    rcases h.wake w.1 w.2 with hstopped | hwaiting
    · have hrun := run_of_stopped hstopped wakes
      rw [Client.run] at hrun
      rw [Client.run, List.foldl_cons, hrun]
      exact hfirst
    · exact hfirst.trans (ih hwaiting hquits.2)

/-- A run from the first wait, for a session that may have been used before. -/
theorem leads_launch (s : Session σ) (writes : List (Option TransportError)) (now : Instant)
    (wakes : List (Instant × Wake)) :
    Leads true ⟨start { s with journal := [] } writes, []⟩
      ⟨(launch s writes now).run wakes, []⟩ := by
  refine ((poised_start _ rfl writes).leads_settle now).trans ?_
  rcases launch_waiting s writes now with hstopped | hwaiting
  · rw [run_of_stopped hstopped]
    exact .refl _
  · exact hwaiting.leads_run fun _ _ _ => rfl

/-- A run of a new session. -/
theorem leads_fresh (id : SessionId) (config : Config) (begun : Instant) (handler : Handler σ)
    (memory : σ) (writes : List (Option TransportError)) (wakes : List (Instant × Wake)) :
    Leads true ⟨fresh id config begun handler memory writes, []⟩
      ⟨(fresh id config begun handler memory writes).run wakes, []⟩ :=
  (waiting_fresh id config begun handler memory writes).leads_run fun _ _ _ => rfl

end Client

end Irc
