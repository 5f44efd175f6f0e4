/-
Connecting again.

When a connection opens, the session forgets the last one: what it knows and what it has to
send follows from its settings, whatever happened before.

* **`Session.Reachable.settings_eq`** — the settings of a session never change;
* **`Session.call_connectFinished`** — what a session is like when its connection opens;
* **`Session.fresh_connection`** — two sessions with one configuration are alike then.
-/
import Irc.Proofs.Connection
import Irc.Proofs.Intake

namespace Irc

open Outgoing

theorem Engine.opened_congr {e e' : Engine} (h : e.settings = e'.settings) (now : Instant) :
    e.opened now = e'.opened now := by
  rw [settings, settings, Prod.mk.injEq, Prod.mk.injEq] at h
  obtain ⟨hconfig, hbase, hstep⟩ := h
  simp only [opened, Backoff.succeed, hconfig, hbase, hstep]

namespace Session

variable {σ τ : Type} {config : Config} {s : Session σ} {s' : Session τ}

/-- A session with a configuration, after some operations. -/
def Reachable (config : Config) (s : Session σ) : Prop :=
  ∃ id now handler memory ops, s = (start id config now handler memory).run ops

/-- The handler of a session, as it stands, sends nothing. -/
def Quiet (s : Session σ) : Prop :=
  ∀ event context, ∃ memory, s.handler.react event context s.memory = .done memory

theorem settings_run (s : Session σ) (ops : List Operation) :
    (s.run ops).engine.settings = s.engine.settings := by
  induction ops generalizing s with
  | nil => rfl
  | cons op ops ih =>
    refine (ih (s.operate op)).trans ?_
    rw [engine_operate, Engine.settings_turn]

/-- The settings of a session never change. -/
theorem Reachable.settings_eq (h : s.Reachable config) :
    s.engine.settings = (config, config.timing.reconnectBase, config.timing.reconnectStep) := by
  obtain ⟨id, now, handler, memory, ops, rfl⟩ := h
  exact settings_run _ ops

/-- A session keeps its handler. -/
theorem handler_run (s : Session σ) (ops : List Operation) : (s.run ops).handler = s.handler := by
  induction ops generalizing s with
  | nil => rfl
  | cons op ops ih => exact (ih (s.operate op)).trans (s.frame_operate op).2

theorem quiet_of_silent (h : s.handler.Silent) : s.Quiet :=
  fun event context => h event context s.memory

/-! ### The outbox -/

/-- A quiet handler leaves the outbox as it is. -/
theorem Quiet.outbox_callHandler (h : s.Quiet) (event : Event) (tags : List Tag) (seen : Engine) :
    (s.callHandler event tags seen).outbox = s.outbox := by
  obtain ⟨memory, hdone⟩ := h event ⟨s.id, seen, tags⟩
  rw [callHandler, hdone]
  rfl

/-- When a connection opens, the outbox holds what a client says then. -/
theorem Quiet.outbox_opening (h : s.Quiet) (e : Engine) (now : Instant) :
    (s.perform ⟨e, s.engine.openingOutputs now⟩).outbox =
      s.engine.config.registration.flatMap Request.lines := by
  have hquiet : Quiet ((s.engine.config.registration.flatMap Request.lines).foldl queueLine
      (s.cleared e)) := by
    rw [queueLines_eq, Quiet, handler_cleared, memory_cleared]
    exact h
  rw [perform_opening, hquiet.outbox_callHandler, queueLines_eq, outbox_cleared, List.nil_append]

/-! ### The next connection -/

/-- What a session is like when its connection opens. -/
theorem call_connectFinished (hstate : s.engine.state = .connecting)
    (hfreed : s.engine.freed = false) (hquiet : s.Quiet) (now : Instant) :
    ∃ after, s.call (.connectFinished now) = .ok (.ongoing, after) ∧
      after.engine = s.engine.opened now ∧
        after.outbox = s.engine.config.registration.flatMap Request.lines :=
  ⟨_, call_of_connecting hstate hfreed now, (frame_perform _ _).1, hquiet.outbox_opening _ now⟩

/-- **No connection leaks into the next.**  Two sessions with one configuration, whatever
happened to them before, know the same and have the same to send when their connections
open: the lines to register with.  The next wait is the first one. -/
theorem fresh_connection (hs : s.Reachable config) (hs' : s'.Reachable config)
    (hstate : s.engine.state = .connecting) (hstate' : s'.engine.state = .connecting)
    (hfreed : s.engine.freed = false) (hfreed' : s'.engine.freed = false)
    (hquiet : s.Quiet) (hquiet' : s'.Quiet) (now : Instant) :
    ∃ after after', s.call (.connectFinished now) = .ok (.ongoing, after) ∧
      s'.call (.connectFinished now) = .ok (.ongoing, after') ∧
        after.engine = after'.engine ∧ after.outbox = after'.outbox ∧
          after.outbox = "CAP LS 302\r\n" ::
            (config.password.map Request.pass).toList.flatMap Request.lines ++
              (Request.nick config.nickname).lines ++
                (Request.user config.username config.realname).lines ∧
          after.engine.backoff.current = config.timing.reconnectBase := by
  have hsettings := hs.settings_eq
  have hsame : s.engine.settings = s'.engine.settings := hsettings.trans hs'.settings_eq.symm
  have hconfig : s.engine.config = config := congrArg Prod.fst hsettings
  have hbase : s.engine.backoff.base = config.timing.reconnectBase :=
    congrArg (fun settings => settings.2.1) hsettings
  obtain ⟨after, hcall, hengine, houtbox⟩ := call_connectFinished hstate hfreed hquiet now
  obtain ⟨after', hcall', hengine', houtbox'⟩ := call_connectFinished hstate' hfreed' hquiet' now
  have hcapLs : (Request.capLs (some "302")).lines = ["CAP LS 302\r\n"] := by decide +kernel
  refine ⟨after, after', hcall, hcall', ?_, ?_, ?_, ?_⟩
  · rw [hengine, hengine', Engine.opened_congr hsame]
  · rw [houtbox, houtbox', show s.engine.config = s'.engine.config from congrArg Prod.fst hsame]
  · rw [houtbox, hconfig]
    simp [Config.registration, hcapLs]
  · rw [hengine]
    exact hbase

theorem fresh_connection_after_loss :
    let config : Config := .forServer "irc.example" 6667 "me"
    let s : Session Unit := (start ⟨1⟩ config ⟨0⟩ .idle ()).run [.call .connect]
    let s' : Session Unit := (start ⟨2⟩ config ⟨5⟩ .idle ()).run
      [.call .connect, .call (.connectFailed "refused"), .call .timerFired,
        .call (.connectFinished ⟨6⟩), .line ":irc.example 001 you :welcome" ⟨7⟩,
        .call (.disconnected "gone"), .call .timerFired]
    s.engine ≠ s'.engine ∧ ∃ after after',
      s.call (.connectFinished ⟨9⟩) = .ok (.ongoing, after) ∧
        s'.call (.connectFinished ⟨9⟩) = .ok (.ongoing, after') ∧
          after.engine = after'.engine ∧ after.outbox = after'.outbox := by
  intro config s s'
  have hs : s.Reachable config := ⟨_, _, _, _, _, rfl⟩
  have hs' : s'.Reachable config := ⟨_, _, _, _, _, rfl⟩
  have hidle : Handler.idle.Silent := fun _ _ _ => ⟨(), rfl⟩
  have hquiet : s.Quiet := quiet_of_silent ((handler_run _ _).symm ▸ hidle)
  have hquiet' : s'.Quiet := quiet_of_silent ((handler_run _ _).symm ▸ hidle)
  obtain ⟨after, after', hcall, hcall', hengine, houtbox, -, -⟩ :=
    fresh_connection hs hs' (by decide +kernel) (by decide +kernel) (by decide +kernel)
      (by decide +kernel) hquiet hquiet' ⟨9⟩
  exact ⟨by decide +kernel, after, after', hcall, hcall', hengine, houtbox⟩

end Session

end Irc
