/-
What a client waits with.

At a wait no orders are left, nothing is left to write, an attempt to connect is under way
just when the session is connecting, and no connection is half closed.  `Client.settle` leads
to such a wait from wherever the answer to a wake has led.

* **`Client.lose_cases`** — what closing the transport comes to;
* **`Client.Poised.settle`** — settling leads to a wait, unless the loop ends;
* **`Client.Waiting.wake`** — and so does every turn of the loop.
-/
import Irc.Client.Loop
import Irc.Proofs.Intake

namespace Irc

open Outgoing

namespace Engine

/-- The turn that a command comes to. -/
def heed (e : Engine) : ClientCommand → Turn
  | .connect => e.turn (.call .connect)
  | .disconnect => e.turn (.call .disconnect)
  | .quit reason => e.turn (.call (.quit reason))
  | .send request => e.queue request

/-- The turn that a frame comes to. -/
def hear (e : Engine) (now : Instant) : Frame → Turn
  | .ok line => e.handleLine line now
  | .error cause => e.reportUndecodable cause

theorem life_hear (e : Engine) (now : Instant) (frame : Frame) :
    (e.hear now frame).engine.life = e.life := by
  cases frame with
  | ok line => exact e.life_handleLine line now
  | error cause => rfl

theorem response_hear (e : Engine) (now : Instant) (frame : Frame) :
    Response e (e.hear now frame) := by
  cases frame with
  | ok line => exact e.response_handleLine line now
  | error cause => exact e.response_reportUndecodable cause

end Engine

/-- Whether a command is for the end of the session. -/
def ClientCommand.isQuit : ClientCommand → Bool
  | .quit _ => true
  | _ => false

/-- Whether what wakes a client is for the end of its session. -/
def Wake.isQuit : Wake → Bool
  | .command given => given.isQuit
  | .abandoned => true
  | _ => false

theorem Engine.interim_heed (e : Engine) (command : ClientCommand) :
    Engine.Interim command.isQuit e (e.heed command) := by
  cases command with
  | connect => exact interim_call trivial
  | disconnect => exact interim_call trivial
  | quit reason => exact interim_call rfl
  | send request => exact interim_queue _ e request

namespace Client

variable {σ : Type} {c : Client σ} {now : Instant}

/-! ### Turns that a client takes in -/

/-- Takes a turn of the engine in, with what the handler says to it. -/
def take (c : Client σ) (t : Turn) : Client σ := c.act (·.perform t)

theorem attempt_eq_take (c : Client σ) (call : LifecycleCall) :
    c.attempt call = c.take (c.session.engine.turn (.call call)) := by
  have hperform : c.session.operate (.call call) = _ := c.session.operate_eq_perform rfl
  rw [attempt, take, act, act, ← hperform]
  rfl

theorem lose_eq_take (c : Client σ) (reason : String) :
    c.lose reason = c.shutdown.take (c.session.engine.turn (.call (.disconnected reason))) :=
  c.shutdown.attempt_eq_take _

/-- Notes that the transport is open, and begins to read anew. -/
def attach (c : Client σ) : Client σ :=
  { c with
    dialing := false
    socketOpen := true
    buffer := []
    framer := c.framer.reset }.note .opened

theorem answer_dialed_eq_take (hstate : c.state = .connecting)
    (hfreed : c.session.engine.freed = false) (now : Instant) :
    c.answer now (.dialed (.ok ())) =
      c.attach.take ⟨c.session.engine.opened now, c.session.engine.openingOutputs now⟩ := by
  have hanswer : c.answer now (.dialed (.ok ())) = c.attach.attempt (.connectFinished now) := rfl
  rw [hanswer, attempt_eq_take]
  exact congrArg c.attach.take (Engine.turn_connectFinished hstate hfreed now)

theorem obey_eq_take (c : Client σ) (command : ClientCommand) :
    c.obey command = (c.take (c.session.engine.heed command)).reconsider := by
  cases command with
  | connect => rw [obey, attempt_eq_take]; rfl
  | disconnect => rw [obey, attempt_eq_take]; rfl
  | quit reason => rw [obey, attempt_eq_take]; rfl
  | send request =>
    rw [obey, Engine.heed, take, act, act, Session.operate_send]

theorem act_handleFrame (c : Client σ) (now : Instant) (frame : Frame) :
    c.act (·.handleFrame now frame) = c.take (c.session.engine.hear now frame) := by
  cases frame <;> rfl

theorem takeBytes_eq_take (c : Client σ) (now : Instant) (bytes : List UInt8) :
    c.takeBytes now bytes =
      (c.framer.feed c.buffer bytes).1.foldl
        (fun c frame => c.take (c.session.engine.hear now frame))
        { c with
          framer := (c.framer.feed c.buffer bytes).2.1
          buffer := (c.framer.feed c.buffer bytes).2.2 } := by
  rw [takeBytes]
  simp only [act_handleFrame]

/-- What reading keeps is kept when bytes are taken in. -/
theorem takeBytes_induction {P : Client σ → Prop} {bytes : List UInt8}
    (read : P { c with
      framer := (c.framer.feed c.buffer bytes).2.1
      buffer := (c.framer.feed c.buffer bytes).2.2 })
    (step : ∀ b frame, P b → P (b.take (b.session.engine.hear now frame))) :
    P (c.takeBytes now bytes) := by
  have hall : ∀ (frames : List Frame) (b : Client σ), P b →
      P (frames.foldl (fun b frame => b.take (b.session.engine.hear now frame)) b) := by
    intro frames
    induction frames with
    | nil => exact fun _ hb => hb
    | cons frame frames ih => exact fun b hb => ih _ (step b frame hb)
  rw [takeBytes_eq_take]
  exact hall _ _ read

@[simp] theorem engine_take (c : Client σ) (t : Turn) :
    (c.take t).session.engine = t.engine := (Session.frame_perform _ t).1

@[simp] theorem effects_take (c : Client σ) (t : Turn) :
    (c.take t).session.effects = c.session.effects ++ t.effects := Session.effects_perform _ t

@[simp] theorem state_take (c : Client σ) (t : Turn) : (c.take t).state = t.engine.state := by
  rw [state, engine_take]

theorem countP_session {kind : Note → Bool} (hkind : ∀ entry, kind (.session entry) = false)
    (entries : List Entry) : (entries.map Note.session).countP kind = 0 := by
  rw [List.countP_eq_zero]
  intro n hn
  obtain ⟨entry, -, rfl⟩ := List.mem_map.mp hn
  rw [hkind]
  exact Bool.false_ne_true

/-- A turn adds nothing to the log but what happens in the session. -/
theorem countP_log_take {kind : Note → Bool} (hkind : ∀ entry, kind (.session entry) = false)
    (c : Client σ) (t : Turn) : (c.take t).log.countP kind = c.log.countP kind := by
  show ((c.session.perform t).journal.map Note.session ++ c.log).countP kind = _
  rw [List.countP_append, countP_session hkind, Nat.zero_add]

@[simp] theorem dialing_take (c : Client σ) (t : Turn) : (c.take t).dialing = c.dialing := rfl

/-- A command that does not find an attempt under way. -/
theorem obey_of_idle (hidle : c.dialing = false) (command : ClientCommand) :
    c.obey command = c.take (c.session.engine.heed command) := by
  rw [obey_eq_take, reconsider, dialing_take, hidle, Bool.false_and, if_neg Bool.false_ne_true]

/-- A command that turns away from an attempt that is under way. -/
theorem obey_of_dialing (hdialing : c.dialing = true) {command : ClientCommand}
    (hturned : (c.session.engine.heed command).engine.state ≠ .connecting) :
    c.obey command =
      { c.take (c.session.engine.heed command) with dialing := false }.shutdown.take
        ((c.session.engine.heed command).engine.turn
          (.call (.connectFailed "Connection cancelled"))) := by
  have hreconsidered : ((c.take (c.session.engine.heed command)).dialing &&
      decide ((c.take (c.session.engine.heed command)).state ≠ .connecting)) = true := by
    rw [dialing_take, hdialing, state_take, Bool.true_and]
    exact decide_eq_true hturned
  rw [obey_eq_take, reconsider, if_pos hreconsidered, attempt_eq_take]
  congr 3
  exact c.engine_take _

/-! ### What is done on the way to a wait -/

/-- Takes up the orders that are queued. -/
def takeUp (c : Client σ) : Client σ := { c with session := { c.session with effects := [] } }

theorem takeEffects_eq (c : Client σ) (now : Instant) :
    c.takeEffects now = c.session.effects.foldl (carryOut now) c.takeUp := rfl

/-- Hands one line to the transport, with others behind it. -/
def put (c : Client σ) (line : String) (rest : List String) : Client σ :=
  { c with
    session := { c.session with outbox := rest }
    writes := c.writes.tail }.note (.wrote line c.writes.head?.join)

/-- What is kept with every line that is written is kept when the outbox is. -/
theorem flush_induction {P : Client σ → Prop}
    (step : ∀ c line rest, c.session.outbox = line :: rest → P c → P (c.put line rest))
    (h : P c) : P c.flush.1 := by
  have hwrite : ∀ (lines : List String) (c : Client σ), c.session.outbox = lines → P c →
      P (c.writeLines lines).1 := by
    intro lines
    induction lines with
    | nil => exact fun c _ h => h
    | cons line lines ih =>
      intro c houtbox h
      have hput := step c line lines houtbox h
      rw [writeLines]
      cases hfailure : c.writes.head?.join with
      | some err => simpa only [put, hfailure] using hput
      | none =>
        rw [put, hfailure] at hput
        exact ih _ rfl hput
  exact hwrite _ c rfl h

/-- When no write fails, nothing is left. -/
theorem outbox_flush (h : c.flush.2 = none) : c.flush.1.session.outbox = [] := by
  have hwrite : ∀ (lines : List String) (c : Client σ), c.session.outbox = lines →
      (c.writeLines lines).2 = none → (c.writeLines lines).1.session.outbox = [] := by
    intro lines
    induction lines with
    | nil => exact fun c houtbox _ => houtbox
    | cons line lines ih =>
      intro c _ h
      rw [writeLines] at h ⊢
      cases hfailure : c.writes.head?.join with
      | some err =>
        rw [hfailure] at h
        exact absurd h (by simp)
      | none =>
        simp only [hfailure] at h ⊢
        exact ih _ rfl h
  exact hwrite _ c rfl h

@[simp] theorem engine_flush (c : Client σ) : c.flush.1.session.engine = c.session.engine :=
  flush_induction (P := fun b => b.session.engine = c.session.engine) (fun _ _ _ _ h => h) rfl

@[simp] theorem effects_flush (c : Client σ) : c.flush.1.session.effects = c.session.effects :=
  flush_induction (P := fun b => b.session.effects = c.session.effects) (fun _ _ _ _ h => h) rfl

@[simp] theorem state_flush (c : Client σ) : c.flush.1.state = c.state :=
  congrArg Engine.state c.engine_flush

@[simp] theorem breakdown_flush (c : Client σ) : c.flush.1.breakdown = c.breakdown :=
  flush_induction (P := fun b => b.breakdown = c.breakdown) (fun _ _ _ _ h => h) rfl

/-- Closing the transport ends a connection that is there and changes no other state. -/
theorem lose_cases (c : Client σ) (reason : String) :
    (c.lose reason).session.engine = c.session.engine ∧
        (c.lose reason).session.effects = c.session.effects ∧
          ¬ (c.state.Holds ∧ c.session.engine.freed = false) ∨
      c.state.Holds ∧ c.session.engine.freed = false ∧
        ((c.lose reason).state = .disconnected ∨ (c.lose reason).state = .reconnecting) ∧
          ∃ new, (c.lose reason).session.effects = c.session.effects ++ new ∧
            ∀ effect ∈ new, effect.closes = false := by
  rw [lose_eq_take, state_take, engine_take, effects_take]
  rcases c.session.engine.ended_disconnected reason with ⟨hstay, hnot⟩ | hended
  · rw [hstay]
    exact .inl ⟨rfl, List.append_nil _, hnot⟩
  · exact .inr ⟨hended.held, hended.running, hended.state, _, rfl, hended.orders⟩

/-- On the way to a wait: an attempt to connect is under way only if the session is
connecting. -/
structure Poised (c : Client σ) : Prop where
  journal : c.session.journal = []
  dialing : c.dialing = true → c.state = .connecting

/-- At a wait. -/
structure Waiting (c : Client σ) : Prop extends Poised c where
  effects : c.session.effects = []
  sent : c.state = .connected → c.session.outbox = []
  dialed : c.state = .connecting → c.dialing = true
  rests : c.state ≠ .disconnecting ∧ c.state ≠ .quitting

theorem Poised.take (h : c.Poised) {t : Turn}
    (ht : c.state = .connecting → c.dialing = true → t.engine.state = .connecting) :
    (c.take t).Poised where
  journal := rfl
  dialing := by
    intro hdialing
    rw [state_take]
    exact ht (h.dialing hdialing) hdialing

theorem Poised.flush (h : c.Poised) : c.flush.1.Poised :=
  flush_induction (fun _ _ _ _ h => ⟨h.journal, h.dialing⟩) h

theorem Poised.lose (h : c.Poised) (reason : String) : (c.lose reason).Poised where
  journal := rfl
  dialing := by
    intro hdialing
    have hstate : c.state = .connecting := h.dialing hdialing
    rcases c.lose_cases reason with ⟨hengine, -⟩ | ⟨hheld, -⟩
    · rwa [state, hengine]
    · rw [hstate] at hheld
      exact absurd hheld (by decide)

/-- An order about the timers touches nothing else, and the others have the transport closed,
some of them after what is queued was written. -/
theorem carryOut_cases (c : Client σ) (now : Instant) (effect : Effect) :
    c.breakdown ≠ none ∧ c.carryOut now effect = c ∨
      effect.closes = false ∧ c.breakdown = none ∧ (∃ keepalive reconnectAt breakdown,
        c.carryOut now effect =
          { c with keepalive := keepalive, reconnectAt := reconnectAt, breakdown := breakdown }) ∨
      effect.closes = true ∧ ∃ b reason, (b = c ∨ b = c.flush.1) ∧
        c.carryOut now effect = b.lose reason := by
  unfold carryOut
  split_ifs with hbroken
  · exact .inl ⟨Option.isSome_iff_ne_none.mp hbroken, rfl⟩
  right
  rw [Option.not_isSome_iff_eq_none] at hbroken
  cases effect with
  | closeSocket => exact .inr ⟨rfl, _, _, .inr rfl, rfl⟩
  | forceClose => exact .inr ⟨rfl, _, _, .inl rfl, rfl⟩
  | armBackoff delay =>
    dsimp only
    split <;> exact .inl ⟨rfl, hbroken, _, _, _, rfl⟩
  | startKeepalive period =>
    dsimp only
    split <;> exact .inl ⟨rfl, hbroken, _, _, _, rfl⟩
  | _ => exact .inl ⟨rfl, hbroken, _, _, _, rfl⟩

theorem carryOut_eq {effect : Effect} (hcloses : effect.closes = false)
    (hrunning : c.breakdown = none) (now : Instant) :
    ∃ keepalive reconnectAt breakdown, c.carryOut now effect =
      { c with keepalive := keepalive, reconnectAt := reconnectAt, breakdown := breakdown } := by
  rcases c.carryOut_cases now effect with ⟨hbroken, -⟩ | ⟨-, -, heq⟩ | ⟨hcloses', -⟩
  · exact absurd hrunning hbroken
  · exact heq
  · exact absurd (hcloses.symm.trans hcloses') Bool.false_ne_true

theorem Poised.carryOut (h : c.Poised) (now : Instant) (effect : Effect) :
    (c.carryOut now effect).Poised := by
  rcases c.carryOut_cases now effect with ⟨-, heq⟩ | ⟨-, -, _, _, _, heq⟩ |
    ⟨-, b, reason, hb, heq⟩
  · rwa [heq]
  · rw [heq]
    exact ⟨h.journal, h.dialing⟩
  · rw [heq]
    rcases hb with rfl | rfl
    · exact h.lose reason
    · exact h.flush.lose reason

/-- Only an order that closes the socket brings new ones, and those do not close it again. -/
theorem effects_carryOut (c : Client σ) (now : Instant) (effect : Effect) :
    ∃ new, (c.carryOut now effect).session.effects = c.session.effects ++ new ∧
      (∀ later ∈ new, later.closes = false) ∧ (effect.closes = false → new = []) := by
  have hnone : ∀ effects : List Effect, effects = effects ++ [] :=
    fun effects => (List.append_nil effects).symm
  rcases c.carryOut_cases now effect with ⟨-, heq⟩ | ⟨-, -, _, _, _, heq⟩ |
    ⟨hcloses, b, reason, hb, heq⟩
  · rw [heq]
    exact ⟨[], hnone _, fun _ h => absurd h List.not_mem_nil, fun _ => rfl⟩
  · rw [heq]
    exact ⟨[], hnone _, fun _ h => absurd h List.not_mem_nil, fun _ => rfl⟩
  · have hb : b.session.effects = c.session.effects := by
      rcases hb with rfl | rfl
      · rfl
      · exact c.effects_flush
    rw [heq, ← hb]
    have hopen : effect.closes = false → ∀ new : List Effect, new = [] :=
      fun h => absurd (hcloses.symm.trans h) (by decide)
    rcases b.lose_cases reason with ⟨-, hsame, -⟩ | ⟨-, -, -, new, hnew, horders⟩
    · exact ⟨[], hsame ▸ hnone _, fun _ h => absurd h List.not_mem_nil, fun h => hopen h _⟩
    · exact ⟨new, hnew, horders, fun h => hopen h _⟩

theorem effects_carryOutAll (now : Instant) (effects : List Effect) (c : Client σ) :
    ∃ new, (effects.foldl (carryOut now) c).session.effects = c.session.effects ++ new ∧
      (∀ later ∈ new, later.closes = false) ∧
        ((∀ effect ∈ effects, effect.closes = false) → new = []) := by
  induction effects generalizing c with
  | nil =>
    exact ⟨[], (List.append_nil _).symm, fun _ h => absurd h List.not_mem_nil, fun _ => rfl⟩
  | cons effect effects ih =>
    obtain ⟨first, hfirst, hcloses₁, hnone₁⟩ := c.effects_carryOut now effect
    obtain ⟨others, hothers, hcloses₂, hnone₂⟩ := ih (c.carryOut now effect)
    refine ⟨first ++ others, ?_, List.forall_mem_append.mpr ⟨hcloses₁, hcloses₂⟩, ?_⟩
    · rw [List.foldl_cons, hothers, hfirst, List.append_assoc]
    · intro h
      rw [List.forall_mem_cons] at h
      rw [hnone₁ h.1, hnone₂ h.2, List.append_nil]

/-- Going twice over the orders leaves none. -/
theorem effects_runEffects (c : Client σ) (now : Instant) :
    (c.runEffects now).session.effects = [] := by
  obtain ⟨first, hfirst, hcloses, -⟩ := effects_carryOutAll now c.session.effects
    c.takeUp
  obtain ⟨others, hothers, -, hnone⟩ := effects_carryOutAll now (c.takeEffects now).session.effects
    (c.takeEffects now).takeUp
  rw [← takeEffects_eq] at hfirst hothers
  rw [runEffects, hothers]
  refine hnone ?_
  rw [hfirst]
  exact hcloses

/-- What every order keeps is kept when all are carried out. -/
theorem runEffects_induction {P : Client σ → Prop}
    (taken : ∀ c : Client σ, P c → P c.takeUp)
    (step : ∀ c effect, P c → P (carryOut now c effect)) (h : P c) : P (c.runEffects now) := by
  have hall : ∀ (effects : List Effect) (c : Client σ), P c →
      P (effects.foldl (carryOut now) c) := by
    intro effects
    induction effects with
    | nil => exact fun c h => h
    | cons effect effects ih => exact fun c h => ih _ (step c effect h)
  exact hall _ _ (taken _ (hall _ _ (taken c h)))

theorem Poised.runEffects (h : c.Poised) (now : Instant) : (c.runEffects now).Poised :=
  runEffects_induction (fun _ h => ⟨h.journal, h.dialing⟩)
    (fun _ effect h => h.carryOut now effect) h

/-- A client that has no socket to close keeps its engine when it carries orders out. -/
theorem engine_runEffects (h : ¬ c.state.Holds) (now : Instant) :
    (c.runEffects now).session.engine = c.session.engine := by
  refine runEffects_induction (P := fun b => b.session.engine = c.session.engine)
    (fun _ h => h) (fun b effect hb => ?_) rfl
  rcases b.carryOut_cases now effect with ⟨-, heq⟩ | ⟨-, -, _, _, _, heq⟩ |
    ⟨-, b', reason, hb', heq⟩
  · rw [heq, hb]
  · rw [heq]
    exact hb
  · have hengine : b'.session.engine = c.session.engine := by
      rcases hb' with rfl | rfl
      · exact hb
      · exact b.engine_flush.trans hb
    rw [heq]
    rcases b'.lose_cases reason with ⟨hsame, -⟩ | ⟨hheld, -⟩
    · exact hsame.trans hengine
    · rw [state, hengine] at hheld
      exact absurd hheld h

/-! ### Settling -/

/-- What the state of the connection asks for when all orders are carried out. -/
def proceed (c : Client σ) : Client σ :=
  match c.state with
  | .disconnected | .reconnecting => c
  | .connecting => if c.dialing then c else c.dial
  | .connected =>
    match c.flush with
    | (c, none) => c
    | (c, some err) => c.lose err.message
  | .disconnecting | .quitting => c.lose "Connection closed"

theorem round_of_stopped (h : c.stopped = true) (now : Instant) : c.round now = c := by
  rw [round, if_pos h]

theorem round_of_running (h : c.stopped = false) (now : Instant) :
    c.round now = if (c.runEffects now).stopped then c.runEffects now
      else (c.runEffects now).proceed := by
  rw [round, h]
  rfl

theorem freed_of_running (h : c.stopped = false) : c.session.engine.freed = false :=
  (Bool.or_eq_false_iff.mp h).1

theorem breakdown_of_running (h : c.stopped = false) : c.breakdown = none :=
  Option.not_isSome_iff_eq_none.mp (Bool.eq_false_iff.mp (Bool.or_eq_false_iff.mp h).2)

/-- What every step on the way to a wait keeps is kept when a client settles. -/
theorem settle_induction {P : Client σ → Prop}
    (taken : ∀ c : Client σ, P c → P c.takeUp)
    (carried : ∀ c effect, effect.closes = false → c.breakdown = none → P c →
      P (carryOut now c effect))
    (written : ∀ c line rest, c.session.outbox = line :: rest → P c → P (c.put line rest))
    (dialed : ∀ c, c.state = .connecting → P c → P c.dial)
    (lost : ∀ c reason, P c → P (c.lose reason)) (h : P c) : P (c.settle now) := by
  have hcarryOut : ∀ (c : Client σ) (effect : Effect), P c → P (c.carryOut now effect) := by
    intro c effect h
    rcases c.carryOut_cases now effect with ⟨-, heq⟩ | ⟨hcloses, hrunning, -⟩ |
      ⟨-, b, reason, hb, heq⟩
    · rwa [heq]
    · exact carried c effect hcloses hrunning h
    · rw [heq]
      rcases hb with rfl | rfl
      · exact lost b reason h
      · exact lost _ reason (flush_induction written h)
  have hproceed : ∀ c : Client σ, P c → P c.proceed := by
    intro c h
    rw [proceed]
    cases hstate : c.state with
    | disconnected => exact h
    | reconnecting => exact h
    | connecting =>
      dsimp only
      split_ifs
      · exact h
      · exact dialed c hstate h
    | connected =>
      have hflush : P c.flush.1 := flush_induction written h
      cases hf : c.flush with
      | mk after failure =>
        rw [hf] at hflush
        cases failure with
        | none => exact hflush
        | some err => exact lost after err.message hflush
    | disconnecting => exact lost c _ h
    | quitting => exact lost c _ h
  have hround : ∀ c : Client σ, P c → P (c.round now) := by
    intro c h
    cases hstopped : c.stopped with
    | true => rwa [round_of_stopped hstopped]
    | false =>
      have hrun : P (c.runEffects now) := runEffects_induction taken hcarryOut h
      rw [round_of_running hstopped]
      split_ifs
      · exact hrun
      · exact hproceed _ hrun
  exact hround _ (hround c h)

/-- At a wait there is nothing to do. -/
theorem Waiting.proceed (h : c.Waiting) : c.proceed = c := by
  rw [Client.proceed]
  cases hstate : c.state with
  | disconnected => rfl
  | reconnecting => rfl
  | connecting => exact if_pos (h.dialed hstate)
  | connected => rw [flush, h.sent hstate, writeLines]
  | disconnecting => exact absurd hstate h.rests.1
  | quitting => exact absurd hstate h.rests.2

theorem Waiting.round (h : c.Waiting) (now : Instant) : c.round now = c := by
  have htaken : c.takeEffects now = c := by
    rw [takeEffects, h.effects, List.foldl_nil, ← h.effects]
  cases hstopped : c.stopped with
  | true => exact round_of_stopped hstopped now
  | false =>
    rw [round_of_running hstopped, runEffects, htaken, htaken, hstopped]
    exact h.proceed

/-- A client that has just closed its transport, or has none to close. -/
structure Apart (c : Client σ) : Prop extends Poised c where
  state : c.state = .disconnected ∨ c.state = .reconnecting

theorem Apart.waiting (h : c.Apart) (heffects : c.session.effects = []) : c.Waiting := by
  refine ⟨h.toPoised, heffects, fun hc => ?_, fun hc => ?_, fun hc => ?_, fun hc => ?_⟩
  all_goals rcases h.state with hstate | hstate <;> exact absurd (hstate.symm.trans hc) (by decide)

theorem Apart.runEffects (h : c.Apart) (now : Instant) : (c.runEffects now).Apart where
  toPoised := h.toPoised.runEffects now
  state := by
    rw [Client.state, engine_runEffects (by rcases h.state with h | h <;> rw [h] <;> decide)]
    exact h.state

/-- A client that is apart is at a wait after a round. -/
theorem Apart.round (h : c.Apart) (now : Instant) :
    (c.round now).stopped = true ∨ (c.round now).Waiting := by
  cases hstopped : c.stopped with
  | true => exact .inl (by rwa [round_of_stopped hstopped])
  | false =>
    have hwaiting := (h.runEffects now).waiting (c.effects_runEffects now)
    rw [round_of_running hstopped, hwaiting.proceed, ite_self]
    exact .inr hwaiting

theorem Poised.apart_lose (h : c.Poised) (hheld : c.state.Holds)
    (hfreed : c.session.engine.freed = false) (reason : String) : (c.lose reason).Apart := by
  refine ⟨h.lose reason, ?_⟩
  rcases c.lose_cases reason with ⟨-, -, hnot⟩ | ⟨-, -, hstate, -⟩
  · exact absurd ⟨hheld, hfreed⟩ hnot
  · exact hstate

/-- What the state asks for leads to a wait, or has the transport closed. -/
theorem Poised.proceed (h : c.Poised) (heffects : c.session.effects = [])
    (hfreed : c.session.engine.freed = false) : c.proceed.Waiting ∨ c.proceed.Apart := by
  rw [Client.proceed]
  cases hstate : c.state with
  | disconnected => exact .inr ⟨h, .inl hstate⟩
  | reconnecting => exact .inr ⟨h, .inr hstate⟩
  | connecting =>
    left
    have hconnected : c.state ≠ .connected := hstate ▸ by decide
    have hrests : c.state ≠ .disconnecting ∧ c.state ≠ .quitting := hstate ▸ by decide
    cases hdialing : c.dialing with
    | true => exact ⟨h, heffects, fun h => absurd h hconnected, fun _ => hdialing, hrests⟩
    | false =>
      exact ⟨⟨h.journal, fun _ => hstate⟩, heffects, fun h => absurd h hconnected, fun _ => rfl,
        hrests⟩
  | connected =>
    have hstate' : c.flush.1.state = .connected := c.state_flush.trans hstate
    have hrests : c.flush.1.state ≠ .disconnecting ∧ c.flush.1.state ≠ .quitting :=
      hstate' ▸ by decide
    cases hflush : c.flush with
    | mk after failure =>
      obtain rfl : c.flush.1 = after := by rw [hflush]
      cases failure with
      | none =>
        have hsent : c.flush.1.session.outbox = [] := outbox_flush (by rw [hflush])
        refine .inl ⟨h.flush, c.effects_flush.trans heffects, fun _ => hsent,
          fun h => absurd (hstate'.symm.trans h) (by decide), hrests⟩
      | some err =>
        exact .inr (h.flush.apart_lose (.inl hstate') (by rw [engine_flush, hfreed]) err.message)
  | disconnecting => exact .inr (h.apart_lose (.inr (.inl hstate)) hfreed _)
  | quitting => exact .inr (h.apart_lose (.inr (.inr hstate)) hfreed _)

/-- After a round a client is at a wait, or has just closed its transport. -/
theorem Poised.round (h : c.Poised) (now : Instant) :
    (c.round now).stopped = true ∨ (c.round now).Waiting ∨ (c.round now).Apart := by
  cases hstopped : c.stopped with
  | true => exact .inl (by rwa [round_of_stopped hstopped])
  | false =>
    rw [round_of_running hstopped]
    split_ifs with hstopped'
    · exact .inl hstopped'
    · exact .inr ((h.runEffects now).proceed (c.effects_runEffects now)
        (freed_of_running (Bool.eq_false_iff.mpr hstopped')))

/-- Settling leads to a wait, unless the loop ends. -/
theorem Poised.settle (h : c.Poised) (now : Instant) :
    (c.settle now).stopped = true ∨ (c.settle now).Waiting := by
  rw [Client.settle]
  rcases h.round now with hstopped | hwaiting | hapart
  · exact .inl (by rwa [round_of_stopped hstopped])
  · rw [hwaiting.round]
    exact .inr hwaiting
  · exact hapart.round now

/-! ### Turns of the loop -/

theorem poised_of_idle (hjournal : c.session.journal = []) (hdialing : c.dialing = false) :
    c.Poised := ⟨hjournal, fun hd => absurd (hdialing.symm.trans hd) (by decide)⟩

theorem poised_reconsider (h : c.session.journal = []) : c.reconsider.Poised := by
  rw [reconsider]
  split_ifs with hturned
  · rw [attempt_eq_take]
    exact poised_of_idle rfl rfl
  · refine ⟨h, fun hd => ?_⟩
    simpa [hd] using hturned

theorem poised_obey (c : Client σ) (command : ClientCommand) : (c.obey command).Poised := by
  rw [obey_eq_take]
  exact poised_reconsider rfl

/-- An attempt to connect is under way only at a wait for its end. -/
theorem Poised.dialing_eq_false (h : c.Poised) {state : ConnectionState} (hstate : c.state = state)
    (hidle : state ≠ .connecting := by decide) : c.dialing = false :=
  Bool.eq_false_iff.mpr fun hd => hidle (hstate.symm.trans (h.dialing hd))

theorem Poised.takeBytes (h : c.Poised) (now : Instant) (bytes : List UInt8) :
    (c.takeBytes now bytes).Poised := by
  refine takeBytes_induction ⟨h.journal, h.dialing⟩ fun b frame hb => hb.take fun hstate _ => ?_
  exact (congrArg Life.state (b.session.engine.life_hear now frame)).trans hstate

theorem Waiting.answer (h : c.Waiting) {w : Wake} (hw : c.awaits now w = true) :
    (c.answer now w).Poised := by
  cases w with
  | dialed outcome =>
    cases outcome with
    | ok connected =>
      rw [Client.answer, attempt_eq_take]
      exact poised_of_idle rfl rfl
    | error err =>
      rw [Client.answer, attempt_eq_take]
      exact poised_of_idle rfl rfl
  | read outcome =>
    cases outcome with
    | error err => exact h.lose err.message
    | ok bytes =>
      cases bytes with
      | nil => exact h.lose "Connection closed by peer"
      | cons byte bytes => exact h.takeBytes now (byte :: bytes)
  | command command => exact c.poised_obey command
  | abandoned => exact c.poised_obey (.quit none)
  | keepalive =>
    have hstate : c.state = .connected := by
      rw [awaits, Bool.and_eq_true, decide_eq_true_eq] at hw
      exact hw.1
    rw [Client.answer, attempt_eq_take]
    exact poised_of_idle rfl (h.dialing_eq_false hstate)
  | timer =>
    have hstate : c.state = .reconnecting := by
      rw [awaits, Bool.and_eq_true, decide_eq_true_eq] at hw
      exact hw.1
    rw [Client.answer, attempt_eq_take]
    exact poised_of_idle rfl (h.dialing_eq_false hstate)

theorem wake_of_awaited (hrunning : c.stopped = false) {w : Wake} (hw : c.awaits now w = true) :
    c.wake now w = (c.answer now w).settle now := by
  rw [wake, hrunning, hw]
  rfl

theorem wake_of_not_awaited {w : Wake} (hw : c.awaits now w = false) : c.wake now w = c := by
  rw [wake, hw, Bool.not_false, Bool.or_true, if_pos rfl]

theorem wake_of_stopped (h : c.stopped = true) (now : Instant) (w : Wake) : c.wake now w = c := by
  rw [wake, h, Bool.true_or, if_pos rfl]

theorem run_of_stopped (h : c.stopped = true) (wakes : List (Instant × Wake)) :
    c.run wakes = c := by
  induction wakes with
  | nil => rfl
  | cons w wakes ih => rw [run, List.foldl_cons, wake_of_stopped h]; exact ih

/-- A loop that has not ended later has not ended now. -/
theorem running_of_run {wakes : List (Instant × Wake)} (h : (c.run wakes).stopped = false) :
    c.stopped = false := Bool.eq_false_iff.mpr fun hstopped => by
  rw [run_of_stopped hstopped, hstopped] at h
  exact Bool.false_ne_true h.symm

/-- A turn of the loop leads from one wait to the next, unless the loop ends. -/
theorem Waiting.wake (h : c.Waiting) (now : Instant) (w : Wake) :
    (c.wake now w).stopped = true ∨ (c.wake now w).Waiting := by
  cases hstopped : c.stopped with
  | true => exact .inl (by rwa [wake_of_stopped hstopped])
  | false =>
    cases hw : c.awaits now w with
    | false => exact .inr (by rwa [wake_of_not_awaited hw])
    | true =>
      rw [wake_of_awaited hstopped hw]
      exact (h.answer hw).settle now

theorem Waiting.run (h : c.Waiting) (wakes : List (Instant × Wake)) :
    (c.run wakes).stopped = true ∨ (c.run wakes).Waiting := by
  induction wakes generalizing c with
  | nil => exact .inr h
  | cons w wakes ih =>
    rw [Client.run, List.foldl_cons]
    rcases h.wake w.1 w.2 with hstopped | hwaiting
    · have hrun := run_of_stopped hstopped wakes
      rw [Client.run] at hrun
      rw [hrun]
      exact .inl hstopped
    · exact ih hwaiting

/-! ### The first wait -/

/-- A client at its first wait, for a session that may have been used before. -/
def launch (s : Session σ) (writes : List (Option TransportError)) (now : Instant) : Client σ :=
  (start { s with journal := [] } writes).settle now

theorem poised_start (s : Session σ) (hjournal : s.journal = [])
    (writes : List (Option TransportError)) : (start s writes).Poised :=
  poised_of_idle hjournal rfl

theorem launch_waiting (s : Session σ) (writes : List (Option TransportError)) (now : Instant) :
    (launch s writes now).stopped = true ∨ (launch s writes now).Waiting :=
  (poised_start { s with journal := [] } rfl writes).settle now

theorem launch_run (s : Session σ) (writes : List (Option TransportError)) (now : Instant)
    (wakes : List (Instant × Wake)) :
    ((launch s writes now).run wakes).stopped = true ∨ ((launch s writes now).run wakes).Waiting := by
  rcases launch_waiting s writes now with hstopped | hwaiting
  · exact .inl (by rwa [run_of_stopped hstopped])
  · exact hwaiting.run wakes

/-- A client of a new session. -/
def fresh (id : SessionId) (config : Config) (begun : Instant) (handler : Handler σ) (memory : σ)
    (writes : List (Option TransportError)) : Client σ :=
  start (Session.start id config begun handler memory) writes

section Fresh

variable (id : SessionId) (config : Config) (begun : Instant) (handler : Handler σ) (memory : σ)
  (writes : List (Option TransportError))

theorem state_fresh : (fresh id config begun handler memory writes).state = .disconnected := rfl

/-- A new session is at a wait from the start. -/
theorem waiting_fresh : (fresh id config begun handler memory writes).Waiting where
  toPoised := poised_start _ rfl writes
  effects := rfl
  sent := fun _ => rfl
  dialed := fun h => absurd ((state_fresh ..).symm.trans h) (by decide)
  rests := by
    rw [state_fresh]
    decide

end Fresh

end Client

end Irc
