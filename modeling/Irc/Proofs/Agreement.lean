/-
The client and its session agree.

What the event loop holds follows the session only through the orders that the session gives.
At every wait both sides agree all the same: there is a socket just when the session has a
connection, the timers run just when the session counts on them, and without a connection
nothing of the last one is left, on neither side.

* **`Client.Agreeing.move`** — with the orders that are still to come, every move keeps this;
* **`Client.agreement`** — so it is at every wait of every run of a new session.
-/
import Irc.Proofs.Reading
import Mathlib.Algebra.Group.Nat.Defs

namespace Irc

/-- Which timers of a client run. -/
def Client.timers {σ : Type} (c : Client σ) : Timers := ⟨c.keepalive.isSome, c.reconnectAt.isSome⟩

/-- The timers when all orders are carried out that are still to be. -/
def Stage.timers {σ : Type} (x : Stage σ) : Timers :=
  x.client.timers.setAll (x.agenda ++ x.client.session.effects)

namespace Client

variable {σ : Type} {c : Client σ} {agenda : List Effect} {quits : Bool}

theorem timers_take (c : Client σ) (agenda : List Effect) (t : Turn) :
    (Stage.mk (c.take t) agenda).timers = (Stage.mk c agenda).timers.setAll t.effects := by
  rw [Stage.timers, Stage.timers, effects_take, ← List.append_assoc, Timers.setAll_append]
  rfl

/-- An order about the timers does to them what it says, unless the loop breaks down. -/
theorem timers_carryOut {effect : Effect} (hcloses : effect.closes = false) {now : Instant}
    (hrunning : (c.carryOut now effect).breakdown = none) (hbefore : c.breakdown = none) :
    (c.carryOut now effect).timers = c.timers.set effect := by
  have hnot : c.breakdown.isSome = false := by rw [hbefore]; rfl
  unfold carryOut at hrunning ⊢
  rw [hnot] at hrunning ⊢
  cases effect with
  | closeSocket => exact absurd hcloses.symm Bool.false_ne_true
  | forceClose => exact absurd hcloses.symm Bool.false_ne_true
  | armBackoff delay =>
    simp only [Bool.false_eq_true, if_false] at hrunning ⊢
    cases hdeadline : now.after? delay with
    | some deadline => rfl
    | none =>
      rw [hdeadline] at hrunning
      exact absurd hrunning (by simp)
  | startKeepalive period =>
    simp only [Bool.false_eq_true, if_false] at hrunning ⊢
    cases hticker : Ticker.start now period with
    | ok ticker => rfl
    | error cause =>
      rw [hticker] at hrunning
      exact absurd hrunning (by simp)
  | _ => rfl

/-- In the middle of the loop: without a socket nothing is left of the last connection, and the
timers will be in step when all orders are carried out. -/
structure Agreeing (x : Stage σ) : Prop where
  limit : x.client.framer.limit = Limits.frame
  blank : x.client.socketOpen = false →
    x.client.session.engine.link = {} ∧ x.client.buffer = []
  inStep : x.client.breakdown = none → x.client.session.engine.InStep x.timers

theorem Agreeing.take (h : Agreeing ⟨c, agenda⟩) (hsound : c.Sound True) {t : Turn}
    (ht : Engine.Interim quits c.session.engine t) : Agreeing ⟨c.take t, agenda⟩ where
  limit := h.limit
  blank := by
    intro hsocket
    obtain ⟨hlink, hbuffer⟩ := h.blank hsocket
    have hopen : ¬ c.session.engine.Open := fun hopen =>
      absurd (hsocket.symm.trans (hsound.owned (.inl trivial) hopen)) Bool.false_ne_true
    exact ⟨by rw [engine_take, (ht.apart hopen).1, hlink], hbuffer⟩
  inStep := by
    intro hrunning
    rw [engine_take, timers_take]
    exact ht.inStep _ (h.inStep hrunning)

/-- Closing the transport stops keepalive, ahead of the orders that are still to come. -/
theorem timers_shutdown (c : Client σ) (agenda : List Effect) :
    ((Stage.mk c.shutdown agenda).timers.keepalive = true →
        (Stage.mk c agenda).timers.keepalive = true) ∧
      (Stage.mk c.shutdown agenda).timers.reconnect = (Stage.mk c agenda).timers.reconnect := by
  have hreconnect : c.shutdown.timers.reconnect = c.timers.reconnect := rfl
  exact ⟨Timers.setAll_keepalive_mono (fun h => absurd h Bool.false_ne_true) _,
    Timers.setAll_reconnect_congr hreconnect _⟩

/-- Without a socket, the timers are in step when the transport is closed once more. -/
theorem Agreeing.inStep_shutdown (h : Agreeing ⟨c, agenda⟩) (hsocket : c.socketOpen = false)
    (hrunning : c.breakdown = none) :
    c.session.engine.InStep (Stage.mk c.shutdown agenda).timers := by
  obtain ⟨hmono, hreconnect⟩ := c.timers_shutdown agenda
  obtain ⟨hkeepalive, hwait⟩ := h.inStep hrunning
  have hnone : c.session.engine.link.keepalive.isSome = false := by
    rw [(h.blank hsocket).1]
    rfl
  refine ⟨?_, fun hstate => hreconnect.trans (hwait hstate)⟩
  rw [hnone]
  exact Bool.eq_false_iff.mpr fun hk => by
    have hruns := hmono hk
    rw [hkeepalive, hnone] at hruns
    exact absurd hruns Bool.false_ne_true

theorem Agreeing.lose (h : Agreeing ⟨c, agenda⟩) (hsound : c.Sound True) (reason : String) :
    Agreeing ⟨c.lose reason, agenda⟩ := by
  rw [lose_eq_take]
  rcases c.session.engine.ended_disconnected reason with ⟨hstay, hnot⟩ | hended
  · -- nothing was there to be closed
    have hsocket : c.socketOpen = false := Bool.eq_false_iff.mpr fun hs => hnot (hsound.held hs)
    rw [hstay]
    refine ⟨h.limit, fun _ => ⟨?_, rfl⟩, fun hrunning => ?_⟩
    · rw [engine_take]
      exact (h.blank hsocket).1
    · rw [engine_take, timers_take]
      exact h.inStep_shutdown hsocket hrunning
  · refine ⟨h.limit, fun _ => ⟨?_, rfl⟩, fun hrunning => ?_⟩
    · rw [engine_take]
      exact hended.link
    · rw [engine_take, timers_take]
      refine hended.inStep _ fun hk => ?_
      rw [← (h.inStep hrunning).keepalive]
      exact (c.timers_shutdown agenda).1 hk

theorem Agreeing.fail (h : Agreeing ⟨c, agenda⟩) (hsound : c.Sound True)
    (hdialing : c.dialing = true) (reason : String) :
    Agreeing ⟨{ c with dialing := false }.shutdown.attempt (.connectFailed reason), agenda⟩ := by
  have hfailed := c.session.engine.failed_connectFailed reason
  have hsocket := hsound.apart hdialing
  rw [attempt_eq_take]
  refine ⟨h.limit, fun _ => ⟨?_, rfl⟩, fun hrunning => ?_⟩
  · rw [engine_take]
    exact hfailed.link.trans (h.blank hsocket).1
  · rw [engine_take, timers_take]
    exact hfailed.inStep _ (h.inStep_shutdown hsocket hrunning)

/-- When a connection opens, keepalive does not run. -/
theorem Agreeing.open (h : Agreeing ⟨c, agenda⟩) (hsound : c.Sound True)
    (hdialing : c.dialing = true) (now : Instant) :
    Agreeing ⟨c.attach.take
      ⟨c.session.engine.opened now, c.session.engine.openingOutputs now⟩, agenda⟩ where
  limit := h.limit
  blank := fun hs => absurd hs.symm Bool.false_ne_true
  inStep := by
    intro hrunning
    rw [engine_take, timers_take]
    refine Engine.inStep_opened ((h.inStep hrunning).keepalive.trans ?_) _ now
    rw [(h.blank (hsound.apart hdialing)).1]
    rfl

theorem Agreeing.expire (h : Agreeing ⟨c, agenda⟩) (hstate : c.state = .reconnecting)
    (hfreed : c.session.engine.freed = false) :
    Agreeing ⟨{ c with reconnectAt := none }.attempt .timerFired, agenda⟩ := by
  rw [attempt_eq_take]
  have hturn := Engine.turn_timerFired hstate hfreed
  refine ⟨h.limit, fun hsocket => ?_, fun hrunning => ?_⟩
  · obtain ⟨hlink, hbuffer⟩ := h.blank hsocket
    refine ⟨?_, hbuffer⟩
    rw [engine_take]
    exact (congrArg (fun t => t.engine.link) hturn).trans hlink
  · rw [engine_take, timers_take]
    show (c.session.engine.turn _).engine.InStep (Timers.setAll _ (c.session.engine.turn _).effects)
    rw [hturn]
    -- the reconnect timer has no part in whether keepalive runs
    have hsame : { c with reconnectAt := none }.timers.keepalive = c.timers.keepalive := rfl
    have hkeepalive : (Stage.mk { c with reconnectAt := none } agenda).timers.keepalive =
        (Stage.mk c agenda).timers.keepalive := Bool.eq_iff_iff.mpr
      ⟨Timers.setAll_keepalive_mono (fun h => hsame ▸ h) _,
        Timers.setAll_keepalive_mono (fun h => hsame ▸ h) _⟩
    exact Engine.inStep_taken (hkeepalive.trans (h.inStep hrunning).keepalive)
      fun hwait => absurd hwait (by decide)

/-- Client and session stay in agreement with every move. -/
theorem Agreeing.move {x y : Stage σ} (hmove : Move quits x y) (hsound : x.client.Sound True)
    (h : Agreeing x) : Agreeing y := by
  cases hmove with
  | takesUp c =>
    refine ⟨h.limit, h.blank, fun hrunning => ?_⟩
    have hinStep := h.inStep hrunning
    have hagenda : (Stage.mk c.takeUp c.session.effects).timers = (Stage.mk c []).timers := by
      show c.timers.setAll (c.session.effects ++ []) = c.timers.setAll ([] ++ c.session.effects)
      rw [List.append_nil, List.nil_append]
    rw [hagenda]
    exact hinStep
  | carries c now effect rest hcloses hrunning =>
    obtain ⟨_, _, _, heq⟩ := carryOut_eq hcloses hrunning now
    refine ⟨?_, ?_, fun hrunning' => ?_⟩
    · rw [heq]
      exact h.limit
    · rw [heq]
      exact h.blank
    · have hinStep := h.inStep hrunning
      have hsession : (c.carryOut now effect).session = c.session := by rw [heq]
      rw [Stage.timers, timers_carryOut hcloses hrunning' hrunning]
      show Engine.InStep (c.carryOut now effect).session.engine
        (Timers.setAll _ (rest ++ (c.carryOut now effect).session.effects))
      rw [hsession]
      exact hinStep
  | passes c effect rest hpassed =>
    refine ⟨h.limit, h.blank, fun hrunning => ?_⟩
    have hset : c.timers.set effect = c.timers := by
      have hcloses := hpassed.resolve_right fun hbroken => hbroken hrunning
      cases effect with
      | closeSocket => rfl
      | forceClose => rfl
      | _ => exact absurd hcloses Bool.false_ne_true
    have hinStep := h.inStep hrunning
    rw [Stage.timers, List.cons_append, Timers.setAll_cons, hset] at hinStep
    exact hinStep
  | dials c agenda hstate => exact ⟨h.limit, h.blank, h.inStep⟩
  | writes c agenda houtbox => exact ⟨h.limit, h.blank, h.inStep⟩
  | loses c agenda reason hdialing => exact h.lose hsound reason
  | opens c agenda now hdialing hstate hfreed =>
    rw [answer_dialed_eq_take hstate hfreed]
    exact h.open hsound hdialing now
  | fails c agenda reason hdialing => exact h.fail hsound hdialing reason
  | acts c agenda hdialing ht => exact h.take hsound ht
  | reads c agenda bytes hopen =>
    -- bytes are taken in only where there is a socket
    have hsocket : c.socketOpen = true := hsound.owned (.inl trivial) hopen
    exact ⟨(Framer.limit_drain _ _).trans h.limit,
      fun hs => absurd (hs.symm.trans hsocket) Bool.false_ne_true, h.inStep⟩
  | ticks c agenda now =>
    refine ⟨h.limit, h.blank, fun hrunning => ?_⟩
    have htimers : (c.tick now).timers = c.timers := by
      rw [timers, tick, Option.isSome_map]
      rfl
    rw [Stage.timers, htimers]
    exact h.inStep hrunning
  | expires c agenda hstate hfreed => exact h.expire hstate hfreed

/-! ### At a wait -/

/-- When a connection opens, the reader begins anew, whatever it has read before. -/
theorem readsWith_opened (hlimit : c.framer.limit = Limits.frame) (hstate : c.state = .connecting)
    (hfreed : c.session.engine.freed = false) (now : Instant) :
    (c.answer now (.dialed (.ok ()))).framer = {} ∧ (c.answer now (.dialed (.ok ()))).buffer = [] ∧
      (c.answer now (.dialed (.ok ()))).ReadsWith c.closings ({}, []) := by
  have hreset : c.framer.reset = {} := by rw [Framer.reset, hlimit]
  have hattach : c.attach.ReadsWith c.closings ({}, []) := .inr ⟨rfl, rfl, by rw [← hreset]; rfl⟩
  rw [answer_dialed_eq_take hstate hfreed]
  exact ⟨hreset, rfl, hattach.take _⟩

theorem blank_settle (h : c.framer = {} ∧ c.buffer = []) (now : Instant) :
    (c.settle now).framer = {} ∧ (c.settle now).buffer = [] := by
  refine settle_induction (P := fun c => c.framer = {} ∧ c.buffer = []) (fun c h => h)
    (fun c effect hcloses hrunning h => ?_) (fun c line rest _ h => h) (fun c _ h => h)
    (fun c reason h => ⟨h.1, rfl⟩) h
  obtain ⟨_, _, _, heq⟩ := carryOut_eq hcloses hrunning now
  rw [heq]
  exact h

theorem Waiting.open_iff (h : c.Waiting) (hsound : c.Sound True) (hrunning : c.stopped = false) :
    c.socketOpen = true ↔ c.state = .connected :=
  ⟨fun hs => (h.open_of_socket hsound hs).1,
    fun hs => hsound.owned (.inl trivial) ⟨hs, freed_of_running hrunning⟩⟩

/-- No order is left at a wait, so the timers are in step. -/
theorem Agreeing.inStep_timers (h : Agreeing ⟨c, []⟩) (hwaiting : c.Waiting)
    (hrunning : c.stopped = false) : c.session.engine.InStep c.timers := by
  have hinStep := h.inStep (breakdown_of_running hrunning)
  rwa [Stage.timers, hwaiting.effects] at hinStep

/-- Without a connection nothing is left of the last one. -/
theorem Agreeing.nothing_left (h : Agreeing ⟨c, []⟩) (hwaiting : c.Waiting) (hsound : c.Sound True)
    (hrunning : c.stopped = false) (hstate : c.state ≠ .connected) :
    c.session.engine.link = {} ∧ c.session.outbox = [] ∧ c.keepalive = none ∧ c.buffer = [] := by
  have hsocket : c.socketOpen = false := Bool.eq_false_iff.mpr fun hs =>
    hstate ((hwaiting.open_iff hsound hrunning).mp hs)
  obtain ⟨hlink, hbuffer⟩ := h.blank hsocket
  have hkeepalive : c.keepalive.isSome = c.session.engine.link.keepalive.isSome :=
    (h.inStep_timers hwaiting hrunning).keepalive
  rw [hlink] at hkeepalive
  exact ⟨hlink, hsound.spent (.inl trivial) hsocket,
    Option.not_isSome_iff_eq_none.mp (Bool.eq_false_iff.mp hkeepalive), hbuffer⟩

/-- What is read on a new connection is read as by a new reader. -/
theorem Agreeing.reader_opened (h : Agreeing ⟨c, []⟩) (hwaiting : c.Waiting)
    (hsound : c.Sound True) (hrunning : c.stopped = false) (hstate : c.state = .connecting)
    (now : Instant) :
    let d := c.wake now (.dialed (.ok ()))
    d.framer = {} ∧ d.buffer = [] ∧
      ∀ later, (d.run later).stopped = false → (d.run later).closings = c.closings →
        ((d.run later).framer, (d.run later).buffer) =
          (Framer.feedAll {} [] (later.filterMap fun w => w.2.piece?)).2 := by
  intro d
  have hnext : d.stopped = true ∨ d.Waiting := hwaiting.wake now _
  have hsound' : d.Sound True := hwaiting.sound_wake hsound now _
  have hlimit : c.framer.limit = Limits.frame := h.limit
  obtain ⟨hframer, hbuffer, hread⟩ :=
    readsWith_opened hlimit hstate (freed_of_running hrunning) now
  have hwake : d = (c.answer now (.dialed (.ok ()))).settle now :=
    wake_of_awaited hrunning (hwaiting.dialed hstate)
  obtain ⟨hframer', hbuffer'⟩ := blank_settle ⟨hframer, hbuffer⟩ now
  have hread' := hread.settle now
  rw [← hwake] at hframer' hbuffer' hread'
  clear_value d
  refine ⟨hframer', hbuffer', fun later hlasts hopen => ?_⟩
  have hwaiting' := hnext.resolve_left (Bool.eq_false_iff.mp (running_of_run hlasts))
  have hle := hwaiting'.closings_le_run later
  rcases hread' with hmore | ⟨hsame, hsocket, -⟩
  · omega
  · rw [hwaiting'.reader_run hsound' hsocket hlasts (hopen.trans hsame.symm), hframer', hbuffer']

section Fresh

variable (id : SessionId) (config : Config) (begun : Instant) (handler : Handler σ) (memory : σ)
  (writes : List (Option TransportError))

theorem agreeing_fresh : Agreeing ⟨fresh id config begun handler memory writes, []⟩ where
  limit := rfl
  blank := fun _ => ⟨rfl, rfl⟩
  inStep := fun _ => ⟨rfl, fun h => absurd h ConnectionState.noConfusion⟩

/-- **Client and session agree at every wait.**  In every run of a new session, when the loop
waits for what comes next: there is a socket just when the session is connected, keepalive
runs just when the session counts on it, and the reconnect timer is set while the session
waits for it.  Without a connection the session knows nothing of the last one, nothing is left
to write, keepalive does not run and no bytes are left.  And when an attempt to connect
succeeds, the reader begins anew: until the transport is closed, it and its buffer are those
of a new reader that has taken in just the bytes that have come since. -/
theorem agreement (wakes : List (Instant × Wake))
    (hrunning : ((fresh id config begun handler memory writes).run wakes).stopped = false) :
    let c := (fresh id config begun handler memory writes).run wakes
    (c.socketOpen = true ↔ c.state = .connected) ∧
      c.keepalive.isSome = c.session.engine.link.keepalive.isSome ∧
      (c.state = .reconnecting → c.reconnectAt.isSome = true) ∧
      (c.state = .disconnected ∨ c.state = .connecting ∨ c.state = .reconnecting →
        c.session.engine.link = {} ∧ c.session.outbox = [] ∧ c.keepalive = none ∧
          c.buffer = []) ∧
      (c.dialing = true ↔ c.state = .connecting) ∧
      (c.state = .connecting → ∀ now,
        let d := c.wake now (.dialed (.ok ()))
        d.framer = {} ∧ d.buffer = [] ∧
          ∀ later, (d.run later).stopped = false → (d.run later).closings = c.closings →
            ((d.run later).framer, (d.run later).buffer) =
              (Framer.feedAll {} [] (later.filterMap fun w => w.2.piece?)).2) := by
  intro c
  have hleads : Leads true ⟨fresh id config begun handler memory writes, []⟩ ⟨c, []⟩ :=
    leads_fresh id config begun handler memory writes wakes
  have hend : c.stopped = true ∨ c.Waiting :=
    (waiting_fresh id config begun handler memory writes).run wakes
  have hlasts : c.stopped = false := hrunning
  clear_value c
  have hwaiting := hend.resolve_left (Bool.eq_false_iff.mp hlasts)
  obtain ⟨hsound, hagreeing⟩ := hleads.keeps
    (I := fun x => x.client.Sound True ∧ Agreeing x)
    (fun hmove h => ⟨h.1.move hmove, h.2.move hmove h.1⟩)
    ⟨sound_fresh id config begun handler memory writes,
      agreeing_fresh id config begun handler memory writes⟩
  have hinStep := hagreeing.inStep_timers hwaiting hlasts
  refine ⟨hwaiting.open_iff hsound hlasts, hinStep.keepalive, hinStep.reconnect, fun hstate => ?_,
    ⟨hwaiting.dialing, hwaiting.dialed⟩, hagreeing.reader_opened hwaiting hsound hlasts⟩
  refine hagreeing.nothing_left hwaiting hsound hlasts fun hconnected => ?_
  rw [hconnected] at hstate
  exact absurd hstate (by decide)

end Fresh

/-- A client that has lost its connection in the middle of a line and connects again: the
unfinished line is gone, and the next connection is read from its start. -/
theorem agreement_of_reconnected :
    let c := (fresh ⟨1⟩ (Config.forServer "host" 6667 "me") ⟨0⟩ Handler.idle () []).run
      [(⟨0⟩, .command .connect), (⟨0⟩, .dialed (.ok ())), (⟨0⟩, .read (.ok [80, 73])),
        (⟨0⟩, .read (.ok [])), (⟨10 ^ 12⟩, .timer)]
    let d := (c.wake ⟨10 ^ 12⟩ (.dialed (.ok ()))).run [(⟨10 ^ 12⟩, .read (.ok [78]))]
    c.stopped = false ∧ c.state = .connecting ∧ c.buffer = [] ∧ c.dialing = true ∧
      d.stopped = false ∧ d.closings = c.closings ∧
        (d.framer, d.buffer) = (Framer.feedAll {} [] [[78]]).2 := by
  intro c d
  have hrunning : c.stopped = false := by decide +kernel
  have hconnecting : c.state = .connecting := by decide +kernel
  have hstays : d.stopped = false := by decide +kernel
  have hopen : d.closings = c.closings := by decide +kernel
  obtain ⟨-, -, -, hleft, hdialing, hread⟩ :=
    agreement ⟨1⟩ (Config.forServer "host" 6667 "me") ⟨0⟩ Handler.idle () [] _ hrunning
  exact ⟨hrunning, hconnecting, (hleft (.inr (.inl hconnecting))).2.2.2, hdialing.mpr hconnecting,
    hstays, hopen, (hread hconnecting ⟨10 ^ 12⟩).2.2 _ hstays hopen⟩

end Client

end Irc
