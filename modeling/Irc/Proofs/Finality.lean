/-
Disconnecting and quitting are final.

A client that was told to disconnect makes no attempt at a connection until it is told to
connect.  A client that was told to quit ends its loop at once, and the last thing that it
says on a connection is the farewell, behind all that was queued before.

* **`Client.Off.settle`** — a connection that is being closed leads to no new one;
* **`Client.Idle.run`** — and without a command to connect nothing else does;
* **`Client.Waiting.obey_quit`**, **`Client.settle_quitting`** — the ways to the end;
* **`Client.requests_final`** — in every run of every client.
-/
import Irc.Proofs.Delivery
import Mathlib.Algebra.Group.Nat.Defs

namespace Irc

open Outgoing Lifecycle

/-- A request to quit comes to one line at most. -/
theorem Outgoing.Request.lines_quit (reason : Option String) :
    (quit reason).lines = [] ∨ ∃ line, (quit reason).lines = [line] := by
  have hcommand : (quit reason).command =
      (checkText? reason).map fun checked => single "QUIT" [] checked := by
    rw [command]
    cases checkText? reason <;> rfl
  have hsingle (checked : Option String) : (single "QUIT" [] checked).lines =
      (buildSingle "QUIT" [] checked).map fun line => [line] := by
    rw [Command.lines, single, if_neg Bool.false_ne_true]
    cases buildSingle "QUIT" [] checked <;> rfl
  rw [lines, hcommand]
  cases checkText? reason with
  | error err => exact .inl rfl
  | ok checked =>
    simp only [Except.map, hsingle]
    cases buildSingle "QUIT" [] checked with
    | error err => exact .inl rfl
    | ok line => exact .inr ⟨line, rfl⟩

/-! ### What the table says -/

namespace Engine

variable {e : Engine} {row : Transition}

theorem turn_disconnect (hfreed : e.freed = false)
    (hrow : transition? e.state .disconnect = some row) :
    e.turn (.call .disconnect) = (e.taken .disconnect row).turn := by
  rw [turn, call, disconnect, apply_eq_ok_iff.mpr ⟨hfreed, row, hrow, rfl⟩]

/-- On a connection the farewell comes first. -/
theorem turn_quit (hfreed : e.freed = false) (hrow : transition? e.state .quit = some row)
    (reason : Option String) :
    e.turn (.call (.quit reason)) =
      ⟨(e.taken .quit row).turn.engine,
        (if e.state = .connected then (Request.quit reason).lines.map .line else []) ++
          (e.taken .quit row).turn.outputs⟩ := by
  have hopen : e.state = .connected → e.Open := fun hstate => ⟨hstate, hfreed⟩
  rw [turn, call, quit]
  split_ifs with hstate
  · rw [queue_of_open (hopen hstate), apply_eq_ok_iff.mpr ⟨hfreed, row, hrow, rfl⟩]
    rfl
  · rw [stay, apply_eq_ok_iff.mpr ⟨hfreed, row, hrow, rfl⟩]
    rfl

/-- The session is over when a connection is gone that was given up for that. -/
theorem turn_disconnected_of_quitting (hstate : e.state = .quitting) (hfreed : e.freed = false)
    (reason : String) :
    e.turn (.call (.disconnected reason)) =
      (e.taken .disconnectFinish ⟨.disconnected, none, true⟩).turn.andThen resetLink := by
  rw [turn, call, disconnected, apply_eq_ok_iff.mpr ⟨hfreed, _, by rw [hstate]; rfl, rfl⟩]
  rfl

/-- When an attempt has failed, the engine goes on as the table says. -/
theorem engine_connectFailed (hfreed : e.freed = false)
    (hrow : transition? e.state .connectFail = some row) (reason : String) :
    (e.turn (.call (.connectFailed reason))).engine = (e.taken .connectFail row).turn.engine := by
  rw [turn, call]
  cases h : e.connectFailed reason with
  | error refusal =>
    rw [connectFailed, apply_eq_ok_iff.mpr ⟨hfreed, row, hrow, rfl⟩] at h
    dsimp only at h
    split at h <;> exact absurd h (by simp)
  | ok a =>
    obtain ⟨b, hb, hengine, -⟩ := connectFailed_eq_ok h
    rw [apply_eq_ok_iff.mpr ⟨hfreed, row, hrow, rfl⟩] at hb
    rw [← Except.ok.inj hb] at hengine
    exact hengine

/-- Without a command to connect, an engine that is disconnected stays so. -/
theorem state_heed_of_disconnected (hstate : e.state = .disconnected) {command : ClientCommand}
    (hcommand : command ≠ .connect) : (e.heed command).engine.state = .disconnected := by
  cases command with
  | connect => exact absurd rfl hcommand
  | send request => rw [heed, engine_queue, hstate]
  | disconnect =>
    have hrefused : e.disconnect = .error ⟨e.state, .disconnect⟩ := by
      rw [disconnect, apply, transition, hstate]
      cases e.freed <;> rfl
    rw [heed, turn, call, hrefused, engine_stay, hstate]
  | quit reason =>
    cases hfreed : e.freed with
    | false => rw [heed, turn_quit hfreed (by rw [hstate]; rfl)]; rfl
    | true =>
      have hrefused : e.quit reason = .error ⟨e.state, .quit⟩ := by
        rw [quit, if_neg (by rw [hstate]; decide), engine_stay, apply, hfreed]
        rfl
      rw [heed, turn, call, hrefused, engine_stay, hstate]

end Engine

/-! ### Attempts to connect -/

/-- Whether a note tells of an attempt to connect. -/
def Note.isDial : Note → Bool
  | .dialed .. => true
  | _ => false

namespace Client

variable {σ : Type} {c : Client σ} {now : Instant}

/-- How many attempts to connect were begun. -/
def dials (c : Client σ) : Nat := c.log.countP Note.isDial

@[simp] theorem dials_take (c : Client σ) (t : Turn) : (c.take t).dials = c.dials :=
  countP_log_take (fun _ => rfl) c t

@[simp] theorem dials_lose (c : Client σ) (reason : String) : (c.lose reason).dials = c.dials := by
  rw [lose_eq_take, dials_take]
  rfl

/-- Following a command is no attempt by itself. -/
theorem dials_obey (c : Client σ) (command : ClientCommand) : (c.obey command).dials = c.dials := by
  rw [obey_eq_take, reconsider]
  split_ifs
  · rw [attempt_eq_take, dials_take]
    exact c.dials_take _
  · exact c.dials_take _

/-! ### Off -/

/-- There is no connection, or it is being closed, and no new one is wanted. -/
def Off (c : Client σ) : Prop := c.state = .disconnected ∨ c.state = .disconnecting

theorem Off.lose (h : c.Off) (reason : String) : (c.lose reason).Off := by
  rw [lose_eq_take, Off, state_take]
  rcases c.session.engine.ended_disconnected reason with ⟨hstay, -⟩ | hended
  · rw [hstay]
    exact h
  · refine .inl (hended.settled fun hconnected => ?_)
    rcases h with hstate | hstate <;> exact absurd (hstate.symm.trans hconnected) (by decide)

/-- On the way to a wait no attempt is made. -/
theorem Off.settle (h : c.Off) (now : Instant) :
    (c.settle now).Off ∧ (c.settle now).dials = c.dials := by
  refine settle_induction (P := fun b => b.Off ∧ b.dials = c.dials) (fun _ hb => hb)
    (fun b effect hcloses hrunning hb => ?_) (fun _ _ _ _ hb => hb) (fun b hstate hb => ?_)
    (fun b reason hb => ⟨hb.1.lose reason, (b.dials_lose reason).trans hb.2⟩) ⟨h, rfl⟩
  · obtain ⟨_, _, _, heq⟩ := carryOut_eq hcloses hrunning now
    rw [heq]
    exact hb
  · rcases hb.1 with hoff | hoff <;> exact absurd (hstate.symm.trans hoff) (by decide)

/-- The loop has ended, or waits without a connection and without an attempt at one. -/
def Idle (c : Client σ) : Prop := c.stopped = true ∨ c.Waiting ∧ c.state = .disconnected

theorem Off.idle (h : c.Off) (hpoised : c.Poised) (now : Instant) : (c.settle now).Idle := by
  rcases hpoised.settle now with hstopped | hwaiting
  · exact .inl hstopped
  · exact .inr ⟨hwaiting, (h.settle now).1.resolve_right hwaiting.rests.1⟩

/-- Without a command to connect, an idle client stays idle and makes no attempt. -/
theorem Idle.wake (h : c.Idle) (now : Instant) {w : Wake} (hw : w ≠ .command .connect) :
    (c.wake now w).Idle ∧ (c.wake now w).dials = c.dials := by
  cases hstopped : c.stopped with
  | true =>
    rw [wake_of_stopped hstopped]
    exact ⟨.inl hstopped, rfl⟩
  | false =>
    obtain ⟨hwaiting, hstate⟩ := h.resolve_left (Bool.eq_false_iff.mp hstopped)
    have hidle : c.dialing = false := hwaiting.dialing_eq_false hstate
    have hleft : c.awaits now w = false →
        (c.wake now w).Idle ∧ (c.wake now w).dials = c.dials := by
      intro hno
      rw [wake_of_not_awaited hno]
      exact ⟨.inr ⟨hwaiting, hstate⟩, rfl⟩
    have hobey : ∀ command : ClientCommand, command ≠ .connect →
        ((c.obey command).settle now).Idle ∧ ((c.obey command).settle now).dials = c.dials := by
      intro command hcommand
      have hoff : (c.obey command).Off := by
        rw [obey_of_idle hidle, Off, state_take]
        exact .inl (Engine.state_heed_of_disconnected hstate hcommand)
      exact ⟨hoff.idle (c.poised_obey command) now,
        (hoff.settle now).2.trans (c.dials_obey command)⟩
    cases w with
    | dialed outcome => exact hleft hidle
    | read outcome => exact hleft (by rw [awaits, hstate]; rfl)
    | keepalive => exact hleft (by rw [awaits, hstate]; rfl)
    | timer => exact hleft (by rw [awaits, hstate]; rfl)
    | command command =>
      rw [wake_of_awaited hstopped rfl]
      exact hobey command fun heq => hw (heq ▸ rfl)
    | abandoned =>
      rw [wake_of_awaited hstopped rfl]
      exact hobey (.quit none) (by simp)

theorem Idle.run (h : c.Idle) {wakes : List (Instant × Wake)}
    (hwakes : ∀ w ∈ wakes, w.2 ≠ .command .connect) :
    (c.run wakes).Idle ∧ (c.run wakes).dials = c.dials := by
  induction wakes generalizing c with
  | nil => exact ⟨h, rfl⟩
  | cons w wakes ih =>
    rw [List.forall_mem_cons] at hwakes
    obtain ⟨hidle, hdials⟩ := h.wake w.1 hwakes.1
    obtain ⟨hrun, hsame⟩ := ih hidle hwakes.2
    exact ⟨hrun, hsame.trans hdials⟩

/-- A client that is told to disconnect turns off. -/
theorem Waiting.off_obey (h : c.Waiting) (hrunning : c.stopped = false)
    (hstate : c.state = .connecting ∨ c.state = .connected ∨ c.state = .reconnecting) :
    (c.obey .disconnect).Off := by
  have hfreed := freed_of_running hrunning
  have hturn {row : Transition} (hrow : transition? c.state .disconnect = some row) :
      (c.session.engine.heed .disconnect).engine =
        (c.session.engine.taken .disconnect row).turn.engine :=
    congrArg Turn.engine (Engine.turn_disconnect hfreed hrow)
  rcases hstate with hs | hs | hs
  · -- the attempt is called off
    have hengine := hturn (by rw [hs]; rfl)
    rw [obey_of_dialing (h.dialed hs) (by rw [hengine]; exact ConnectionState.noConfusion), Off,
      state_take, hengine, Engine.engine_connectFailed rfl rfl]
    exact .inl rfl
  · rw [obey_of_idle (h.dialing_eq_false hs), Off, state_take,
      hturn (by rw [hs]; rfl)]
    exact .inr rfl
  · rw [obey_of_idle (h.dialing_eq_false hs), Off, state_take,
      hturn (by rw [hs]; rfl)]
    exact .inl rfl

/-! ### The end -/

/-- Without a connection, a client that is told to quit is at its end. -/
theorem Waiting.obey_quit (h : c.Waiting) (hrunning : c.stopped = false)
    (hstate : c.state ≠ .connected) (reason : Option String) :
    (c.obey (.quit reason)).session.engine.freed = true ∧
      (c.obey (.quit reason)).breakdown = none := by
  have hfreed := freed_of_running hrunning
  have hbreakdown := breakdown_of_running hrunning
  have hturn {row : Transition} (hrow : transition? c.state .quit = some row) :
      (c.session.engine.heed (.quit reason)).engine =
        (c.session.engine.taken .quit row).turn.engine := by
    rw [Engine.heed, Engine.turn_quit hfreed hrow]
  cases hs : c.state with
  | connected => exact absurd hs hstate
  | disconnecting => exact absurd hs h.rests.1
  | quitting => exact absurd hs h.rests.2
  | disconnected =>
    rw [obey_of_idle (h.dialing_eq_false hs), engine_take, hturn (by rw [hs]; rfl)]
    exact ⟨rfl, hbreakdown⟩
  | reconnecting =>
    rw [obey_of_idle (h.dialing_eq_false hs), engine_take, hturn (by rw [hs]; rfl)]
    exact ⟨rfl, hbreakdown⟩
  | connecting =>
    -- the attempt is called off
    have hengine := hturn (by rw [hs]; rfl)
    rw [obey_of_dialing (h.dialed hs) (by rw [hengine]; exact ConnectionState.noConfusion),
      engine_take, hengine, Engine.engine_connectFailed rfl rfl]
    exact ⟨rfl, hbreakdown⟩

/-- The end of a session that has said its farewell. -/
theorem lose_quitting (hstate : c.state = .quitting) (hfreed : c.session.engine.freed = false)
    (reason : String) :
    (c.lose reason).session.engine.freed = true ∧
      (c.lose reason).session.effects = c.session.effects ++
        (if c.session.engine.link.keepalive.isSome then [.stopKeepalive] else []) ∧
      (c.lose reason).breakdown = c.breakdown ∧
        ∃ entries : List Entry, (c.lose reason).log = entries.map .session ++ .closed :: c.log := by
  have hturn := Engine.turn_disconnected_of_quitting hstate hfreed reason
  rw [lose_eq_take]
  refine ⟨?_, ?_, rfl, _, rfl⟩
  · rw [engine_take, hturn]
    rfl
  · rw [effects_take, hturn, Turn.effects_andThen, Engine.effects_taken, Engine.effects_resetLink]
    rfl

/-- Without orders but one to stop keepalive. -/
theorem takeEffects_stopKeepalive {stops : Bool} (hbreakdown : c.breakdown = none)
    (heffects : c.session.effects = if stops then [.stopKeepalive] else []) (now : Instant) :
    ∃ keepalive, c.takeEffects now = { c.takeUp with keepalive := keepalive } := by
  have hnot : ¬ c.takeUp.breakdown.isSome = true := Option.not_isSome_iff_eq_none.mpr hbreakdown
  rw [takeEffects_eq, heffects]
  cases stops with
  | false => exact ⟨c.keepalive, rfl⟩
  | true => exact ⟨none, by rw [if_pos rfl, List.foldl_cons, List.foldl_nil, carryOut, if_neg hnot]⟩

/-- What there is to write is written, and then the transport is closed. -/
theorem settle_quitting (hrunning : c.stopped = false) (hstate : c.state = .quitting)
    (heffects : c.session.effects = [.closeSocket]) (now : Instant) :
    (c.settle now).session.engine.freed = true ∧ (c.settle now).breakdown = none ∧
      ∃ entries : List Entry,
        (c.settle now).log = entries.map .session ++ .closed :: c.takeUp.flush.1.log := by
  have hfreed := freed_of_running hrunning
  have hbreakdown := breakdown_of_running hrunning
  have hnot : ¬ c.takeUp.breakdown.isSome = true := Option.not_isSome_iff_eq_none.mpr hbreakdown
  have hfirst : c.takeEffects now = c.takeUp.flush.1.lose "Connection closed" := by
    rw [takeEffects_eq, heffects, List.foldl_cons, List.foldl_nil, carryOut, if_neg hnot]
  obtain ⟨hover, horders, hwhole, entries, hlog⟩ := lose_quitting (c := c.takeUp.flush.1)
    (c.takeUp.state_flush.trans hstate) (by rw [engine_flush]; exact hfreed) "Connection closed"
  rw [effects_flush] at horders
  -- what is left to do is to stop a timer
  obtain ⟨keepalive, hsecond⟩ := takeEffects_stopKeepalive
    (hwhole.trans (c.takeUp.breakdown_flush.trans hbreakdown)) horders now
  have hrun : c.runEffects now = _ := (congrArg (takeEffects · now) hfirst).trans hsecond
  have hstopped : (c.runEffects now).stopped = true := by
    rw [hrun, stopped]
    show ((c.takeUp.flush.1.lose _).session.engine.freed || _) = true
    rw [hover, Bool.true_or]
  rw [settle, round_of_running hrunning, if_pos hstopped, round_of_stopped hstopped, hrun]
  exact ⟨hover, hwhole.trans (c.takeUp.breakdown_flush.trans hbreakdown), entries, hlog⟩

/-- A client that is told to quit while it is connected says so. -/
theorem Waiting.obey_quit_of_connected (h : c.Waiting) (hrunning : c.stopped = false)
    (hstate : c.state = .connected) (reason : Option String) :
    (c.obey (.quit reason)).stopped = false ∧ (c.obey (.quit reason)).state = .quitting ∧
      (c.obey (.quit reason)).session.effects = [.closeSocket] ∧
        (c.obey (.quit reason)).session.outbox = (Request.quit reason).lines := by
  obtain ⟨hfreed, hbroken⟩ := Bool.or_eq_false_iff.mp hrunning
  have hrow : transition? c.session.engine.state .quit =
      some ⟨.quitting, some .closeSocket, false⟩ := by
    rw [show c.session.engine.state = .connected from hstate]
    rfl
  have hconnected : c.session.engine.state = .connected := hstate
  rw [obey_of_idle (h.dialing_eq_false hstate), Engine.heed,
    Engine.turn_quit hfreed hrow, if_pos hconnected, state_take, stopped, engine_take, effects_take]
  refine ⟨hbroken, rfl, ?_, ?_⟩
  · rw [h.effects, Turn.effects, List.filterMap_append]
    exact congrArg (· ++ [Effect.closeSocket]) (c.session.engine.effects_lines _)
  · show (c.session.perform _).outbox = _
    rw [Session.perform_lines, Session.queueLines_eq]
    exact congrArg (· ++ (Request.quit reason).lines) (h.sent hstate)

theorem settle_of_stopped (h : c.stopped = true) (now : Instant) : c.settle now = c := by
  rw [settle, round_of_stopped h, round_of_stopped h]

/-- A client that is told to quit ends, and makes no attempt at a connection. -/
theorem Waiting.settle_quit (h : c.Waiting) (hrunning : c.stopped = false) (reason : Option String)
    (now : Instant) :
    ((c.obey (.quit reason)).settle now).session.engine.freed = true ∧
      ((c.obey (.quit reason)).settle now).breakdown = none ∧
        ((c.obey (.quit reason)).settle now).dials = c.dials := by
  by_cases hstate : c.state = .connected
  · obtain ⟨hrunning', hquitting, heffects, -⟩ := h.obey_quit_of_connected hrunning hstate reason
    obtain ⟨hfreed, hbreakdown, entries, hlog⟩ := settle_quitting hrunning' hquitting heffects now
    refine ⟨hfreed, hbreakdown, ?_⟩
    have hflush : (c.obey (.quit reason)).takeUp.flush.1.dials = (c.obey (.quit reason)).dials :=
      flush_induction (P := fun b => b.dials = (c.obey (.quit reason)).dials)
        (fun _ _ _ _ hb => hb) rfl
    rw [← c.dials_obey (.quit reason), ← hflush, dials, hlog, List.countP_append,
      countP_session (fun _ => rfl), List.countP_cons_of_neg Bool.false_ne_true, Nat.zero_add]
    rfl
  · obtain ⟨hfreed, hbreakdown⟩ := h.obey_quit hrunning hstate reason
    have hstopped : (c.obey (.quit reason)).stopped = true := by
      rw [stopped, hfreed, Bool.true_or]
    rw [settle_of_stopped hstopped]
    exact ⟨hfreed, hbreakdown, c.dials_obey _⟩

/-- What was queued on a connection that is there was written, or is left. -/
theorem Delivering.queued_of_split {p : Prop} (h : c.Delivering p) {earlier during : List Note}
    (hlog : c.log.reverse = earlier ++ .opened :: during) (hclosed : .closed ∉ during) :
    Note.queued during = Note.written during ++ c.session.outbox := by
  rw [List.reverse_eq_iff, List.reverse_append, List.reverse_cons, List.append_assoc,
    List.singleton_append] at hlog
  have horderly := h.orderly
  rw [hlog] at horderly
  obtain ⟨-, hunderway, -⟩ := horderly.prefix_of_split (by simpa using hclosed)
  rw [← hlog, List.reverse_reverse] at hunderway
  exact h.owed during hunderway

/-- The farewell is the last line, behind all that was queued on the connection. -/
theorem Waiting.farewell {p : Prop} (h : c.Waiting) (hsound : c.Sound p)
    (hdelivering : c.Delivering p) (hrunning : c.stopped = false) (hstate : c.state = .connected)
    {reason : Option String} {line : String} (hline : (Request.quit reason).lines = [line])
    (now : Instant) :
    ∃ before after, ((c.obey (.quit reason)).settle now).log.reverse =
        before ++ .wrote line c.writes.head?.join :: after ∧
      Note.written before = Note.written c.log.reverse ∧ Note.written after = [] ∧
        ∀ earlier during, before = earlier ++ .opened :: during → .closed ∉ during →
          Note.queued during = Note.written during ++ [line] := by
  obtain ⟨hrunning', hquitting, heffects, houtbox⟩ :=
    h.obey_quit_of_connected hrunning hstate reason
  obtain ⟨-, -, entries, hlog⟩ := settle_quitting hrunning' hquitting heffects now
  have hobey : c.obey (.quit reason) = c.take (c.session.engine.heed (.quit reason)) :=
    obey_of_idle (h.dialing_eq_false hstate) _
  rw [hline] at houtbox
  have hwritten : (c.obey (.quit reason)).takeUp.flush.1.log =
      .wrote line c.writes.head?.join :: (c.obey (.quit reason)).log := by
    have hleft : (c.obey (.quit reason)).takeUp.session.outbox = [line] := houtbox
    have hwrites : (c.obey (.quit reason)).takeUp.writes = c.writes := by
      rw [hobey]
      rfl
    rw [flush, hleft, writeLines, hwrites]
    cases c.writes.head?.join <;> rfl
  have hdelivering' : (c.obey (.quit reason)).Delivering p := by
    rw [hobey]
    exact hdelivering.take hsound (c.session.engine.interim_heed (.quit reason))
  refine ⟨(c.obey (.quit reason)).log.reverse, .closed :: (entries.map .session).reverse,
    ?_, ?_, ?_, fun earlier during hsplit hclosed => ?_⟩
  · rw [hlog, hwritten]
    simp
  · obtain ⟨notes, hnotes⟩ : ∃ notes : List Entry,
        (c.obey (.quit reason)).log = notes.map .session ++ c.log := by
      rw [hobey]
      exact ⟨_, rfl⟩
    rw [hnotes, List.reverse_append, Note.written_append, Note.written_session, List.append_nil]
  · exact Note.written_session entries
  · rw [hdelivering'.queued_of_split hsplit hclosed, houtbox]

/-- **Disconnecting and quitting are final.**  In every run of every client: after a command to
disconnect that finds it connecting, connected or waiting to reconnect, there is no attempt at
a connection until there is a command to connect.  After a command to quit, or when nobody is
left who could give one, the session is over before the loop waits again, there is no attempt
at a connection, and nothing wakes the loop any more.  And if the client was connected and the
farewell is a line, this line is the last one that is handed to the transport: everything that
was queued on the connection before was handed over before. -/
theorem requests_final (s : Session σ) (writes : List (Option TransportError)) (begun : Instant)
    (wakes : List (Instant × Wake))
    (hrunning : ((launch s writes begun).run wakes).stopped = false) :
    let c := (launch s writes begun).run wakes
    (c.state = .connecting ∨ c.state = .connected ∨ c.state = .reconnecting →
        ∀ now later, (∀ w ∈ later, w.2 ≠ .command .connect) →
          ((c.wake now (.command .disconnect)).run later).dials = c.dials) ∧
      ∀ now w reason, w = .command (.quit reason) ∨ w = .abandoned ∧ reason = none →
        let d := c.wake now w
        d.session.engine.freed = true ∧ d.breakdown = none ∧ d.dials = c.dials ∧
          (∀ later, d.run later = d) ∧
          (c.state = .connected → (Request.quit reason).lines ≠ [] →
            c.session.outbox = [] ∧
              ∃ line before after, (Request.quit reason).lines = [line] ∧
                d.log.reverse = before ++ .wrote line c.writes.head?.join :: after ∧
                Note.written before = Note.written c.log.reverse ∧ Note.written after = [] ∧
                ∀ earlier during, before = earlier ++ .opened :: during → .closed ∉ during →
                  Note.queued during = Note.written during ++ [line]) := by
  intro c
  have hend : c.stopped = true ∨ c.Waiting := launch_run s writes begun wakes
  obtain ⟨hsound, hdelivering⟩ := (leads_launch s writes begun wakes).keeps
    (I := fun x => x.client.Sound False ∧ x.client.Delivering False)
    (fun hmove h => ⟨h.1.move hmove, h.2.move hmove h.1⟩)
    ⟨sound_start _ writes rfl False.elim, delivering_start _ writes⟩
  have hsound : c.Sound False := hsound
  have hdelivering : c.Delivering False := hdelivering
  have hlasts : c.stopped = false := hrunning
  clear_value c
  have hwaiting := hend.resolve_left (Bool.eq_false_iff.mp hlasts)
  constructor
  · intro hstate now later hlater
    have hoff := hwaiting.off_obey hlasts hstate
    rw [wake_of_awaited hlasts rfl]
    exact ((hoff.idle (c.poised_obey .disconnect) now).run hlater).2.trans
      ((hoff.settle now).2.trans (c.dials_obey .disconnect))
  · intro now w reason hw
    have hwake : c.wake now w = (c.obey (.quit reason)).settle now := by
      rcases hw with rfl | ⟨rfl, rfl⟩ <;> exact wake_of_awaited hlasts rfl
    obtain ⟨hfreed, hbreakdown, hdials⟩ := hwaiting.settle_quit hlasts reason now
    intro d
    have hd : d = _ := hwake
    clear_value d
    subst hd
    refine ⟨hfreed, hbreakdown, hdials, fun later => run_of_stopped ?_ later,
      fun hstate hlines => ?_⟩
    · rw [stopped, hfreed, Bool.true_or]
    · obtain ⟨line, hline⟩ := (Request.lines_quit reason).resolve_left hlines
      obtain ⟨before, after, hsplit⟩ := hwaiting.farewell hsound hdelivering hlasts hstate hline now
      exact ⟨hwaiting.sent hstate, line, before, after, hline, hsplit⟩

/-- A client that is connected.  Told to disconnect, it makes no attempt when time goes by, and
told to quit, it says so last. -/
theorem requests_final_of_connected :
    let c := (launch (Session.start ⟨1⟩ (Config.forServer "host" 6667 "me") ⟨0⟩ Handler.idle ())
      [] ⟨0⟩).run [(⟨0⟩, .command .connect), (⟨0⟩, .dialed (.ok ()))]
    let d := c.wake ⟨0⟩ (.command (.quit (some "bye")))
    c.stopped = false ∧ c.state = .connected ∧
      ((c.wake ⟨0⟩ (.command .disconnect)).run [(⟨10 ^ 12⟩, .timer)]).dials = c.dials ∧
      d.session.engine.freed = true ∧ d.run [(⟨0⟩, .command .connect)] = d ∧
      ∃ before after, d.log.reverse = before ++ .wrote "QUIT :bye\r\n" none :: after ∧
        Note.written after = [] := by
  intro c d
  have hrunning : c.stopped = false := by decide +kernel
  have hstate : c.state = .connected := by decide +kernel
  have hlines : (Request.quit (some "bye")).lines = ["QUIT :bye\r\n"] := by decide +kernel
  have hwrites : c.writes.head?.join = none := by rfl
  obtain ⟨hdisconnect, hquit⟩ := requests_final (Session.start ⟨1⟩
    (Config.forServer "host" 6667 "me") ⟨0⟩ Handler.idle ()) [] ⟨0⟩ _ hrunning
  obtain ⟨hfreed, -, -, hends, hlast⟩ := hquit ⟨0⟩ _ (some "bye") (.inl rfl)
  obtain ⟨-, line, before, after, hline, hlog, -, hafter, -⟩ := hlast hstate (by rw [hlines]; simp)
  obtain ⟨rfl, -⟩ := List.cons_eq_cons.mp (hlines.symm.trans hline)
  exact ⟨hrunning, hstate, hdisconnect (.inr (.inl hstate)) ⟨0⟩ _ (by simp), hfreed, hends _,
    before, after, hwrites ▸ hlog, hafter⟩

end Client

end Irc
