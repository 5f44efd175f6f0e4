/-
What a connection is made and ended by.

Only three lifecycle calls make or end a connection: the attempt has succeeded, it has
failed, the connection is gone.  Everything else an engine does is an `Engine.Interim`: no
connection comes or goes, nothing is reported but what was received, and the timers stay in
step.

* **`Engine.interim_response`**, **`Engine.interim_call`** — what an interim is;
* **`Engine.turn_connectFinished`** — a connection is made;
* **`Engine.failed_connectFailed`** — an attempt has failed;
* **`Engine.ended_disconnected`** — a connection is gone.
-/
import Irc.Proofs.Connection
import Irc.Proofs.Timers

namespace Irc

open Outgoing Lifecycle

/-- A socket may be open. -/
def ConnectionState.Holds (state : ConnectionState) : Prop :=
  state = .connected ∨ state = .disconnecting ∨ state = .quitting

instance (state : ConnectionState) : Decidable state.Holds :=
  inferInstanceAs (Decidable (_ ∨ _ ∨ _))

/-- An action that neither makes nor ends a connection. -/
def Action.IsWish : Action → Prop
  | .connect | .disconnect | .quit | .reconnect => True
  | .connectFail | .connectFinish | .disconnectFinish => False

/-- A call that neither makes nor ends a connection.  Only if `quits` it may be for the end of
the session. -/
def LifecycleCall.IsWish (quits : Bool) : LifecycleCall → Prop
  | .connect | .disconnect | .timerFired | .keepaliveTick _ => True
  | .quit _ => quits = true
  | .apply _ | .connectFinished _ | .connectFailed _ | .disconnected _ => False

/-- The event that is reported, if one is. -/
def Output.event? : Output → Option Event
  | .report told _ _ => some told
  | _ => none

/-- The events that a turn reports. -/
def Turn.events (t : Turn) : List Event := t.outputs.filterMap Output.event?

/-- Nothing is queued for the server, whatever the handler does. -/
def Output.Mute : Output → Prop
  | .line _ => False
  | .report _ _ seen => ¬ seen.Open
  | _ => True

namespace Turn

@[simp] theorem events_andThen (t : Turn) (next : Engine → Turn) :
    (t.andThen next).events = t.events ++ (next t.engine).events := List.filterMap_append

@[simp] theorem events_update (t : Turn) (change : Engine → Engine) :
    (t.update change).events = t.events := rfl

@[simp] theorem events_learn (t : Turn) (change : Link → Link) :
    (t.learn change).events = t.events := rfl

@[simp] theorem events_order (t : Turn) (effect : Effect) :
    (t.order effect).events = t.events := by
  rw [order, events_andThen]
  exact List.append_nil _

@[simp] theorem events_report (t : Turn) (event : Event) (tags : List Tag) :
    (t.report event tags).events = t.events ++ [event] := events_andThen _ _

theorem mem_events {t : Turn} {event : Event} :
    event ∈ t.events ↔ ∃ tags seen, .report event tags seen ∈ t.outputs := by
  rw [events, List.mem_filterMap]
  constructor
  · rintro ⟨o, ho, htold⟩
    cases o with
    | report told tags seen =>
      obtain rfl := Option.some_inj.mp htold
      exact ⟨tags, seen, ho⟩
    | line text => exact absurd htold (by simp [Output.event?])
    | dropLines => exact absurd htold (by simp [Output.event?])
    | effect effect => exact absurd htold (by simp [Output.event?])
  · rintro ⟨tags, seen, ho⟩
    exact ⟨_, ho, rfl⟩

theorem Puts.events {t : Turn} (h : t.Puts Output.Heard) :
    ∀ event ∈ t.events, event.IsReceived := by
  intro event hevent
  obtain ⟨tags, seen, ho⟩ := mem_events.mp hevent
  exact h _ ho

end Turn

namespace Engine

variable {e : Engine} {t : Turn} {action : Action} {a : Answer} {row : Transition} {quits : Bool}

@[simp] theorem events_stay (e : Engine) : e.stay.events = [] := rfl

@[simp] theorem events_report (e : Engine) (event : Event) (tags : List Tag) :
    (e.report event tags).events = [event] := rfl

@[simp] theorem events_resetLink (e : Engine) : e.resetLink.events = [] := by
  rw [resetLink]
  split_ifs <;> rfl

theorem mem_outputs_taken {o : Output} (ho : o ∈ (e.taken action row).turn.outputs) :
    (∃ effect, o = .effect effect) ∨ o = .dropLines ∧ row.freed = true := by
  rcases List.mem_append.mp ho with ho | ho
  · obtain ⟨effect, -, rfl⟩ := List.mem_map.mp ho
    exact .inl ⟨effect, rfl⟩
  · split_ifs at ho with hfreed
    · exact .inr ⟨List.mem_singleton.mp ho, hfreed⟩
    · exact absurd ho List.not_mem_nil

@[simp] theorem events_taken (e : Engine) (action : Action) (row : Transition) :
    (e.taken action row).turn.events = [] := by
  refine List.filterMap_eq_nil_iff.mpr fun o ho => ?_
  rcases mem_outputs_taken ho with ⟨effect, rfl⟩ | ⟨rfl, -⟩ <;> rfl

theorem mute_taken (e : Engine) (action : Action) (row : Transition) :
    (e.taken action row).turn.Puts Output.Mute := by
  intro o ho
  rcases mem_outputs_taken ho with ⟨effect, rfl⟩ | ⟨rfl, -⟩ <;> trivial

theorem mute_resetLink (e : Engine) : e.resetLink.Puts Output.Mute := by
  rw [resetLink]
  split_ifs <;> simp [Turn.Puts, Output.Mute]

/-! ### Nothing is made and nothing ends -/

/-- A turn that neither makes nor ends a connection.  Only if `quits` it may be a step towards
the end of the session. -/
structure Interim (quits : Bool) (e : Engine) (t : Turn) : Prop where
  joined : t.engine.Open → e.Open
  /-- Where a socket may be open it may be afterwards, and no line is lost. -/
  held : e.state.Holds → e.freed = false →
    t.engine.state.Holds ∧ t.engine.freed = false ∧ Output.dropLines ∉ t.outputs
  /-- Without a connection there is nothing to say, to tell or to learn. -/
  apart : ¬ e.Open → t.engine.link = e.link ∧ t.Puts Output.Mute ∧ t.events = []
  received : ∀ event ∈ t.events, event.IsReceived
  inStep : ∀ τ, e.InStep τ → t.engine.InStep (τ.setAll t.effects)
  finished : e.freed = true → t.engine.freed = true
  /-- A connection that is being closed was there, or was being attempted. -/
  closing : t.engine.state = .disconnecting ∨ t.engine.state = .quitting →
    e.state.Holds ∨ e.state = .connecting
  lasting : quits = false → e.freed = false → e.state ≠ .quitting →
    t.engine.freed = false ∧ t.engine.state ≠ .quitting

theorem Interim.mono {quits' : Bool} (hquits : quits = true → quits' = true)
    (h : Interim quits e t) : Interim quits' e t :=
  { h with
    lasting := fun hno => h.lasting (Bool.eq_false_iff.mpr fun hyes =>
      absurd (hno.symm.trans (hquits hyes)) Bool.false_ne_true) }

theorem Interim.running (h : Interim quits e t) (ht : t.engine.freed = false) : e.freed = false :=
  Bool.eq_false_iff.mpr fun hfreed => absurd (ht.symm.trans (h.finished hfreed)) Bool.false_ne_true

theorem interim_stay (quits : Bool) (e : Engine) : Interim quits e e.stay where
  joined := id
  held := fun hstate hfreed => ⟨hstate, hfreed, List.not_mem_nil⟩
  apart := fun _ => ⟨rfl, e.puts_stay, rfl⟩
  received := fun _ hevent => absurd hevent List.not_mem_nil
  inStep := fun _ h => h
  finished := id
  closing := fun h => .inl (.inr h)
  lasting := fun _ hfreed hstate => ⟨hfreed, hstate⟩

/-- A request of the engine before something else. -/
theorem Interim.andThen {next : Engine → Turn} (first : Interim quits e t) (hengine : t.engine = e)
    (second : Interim quits e (next e)) : Interim quits e (t.andThen next) := by
  obtain ⟨e', outputs⟩ := t
  obtain rfl : e' = e := hengine
  exact {
    joined := second.joined
    held := by
      intro hstate hfreed
      obtain ⟨-, -, hkept₁⟩ := first.held hstate hfreed
      obtain ⟨hstate₂, hfreed₂, hkept₂⟩ := second.held hstate hfreed
      exact ⟨hstate₂, hfreed₂, fun h => (List.mem_append.mp h).elim hkept₁ hkept₂⟩
    apart := by
      intro he
      obtain ⟨-, hmute₁, hevents₁⟩ := first.apart he
      obtain ⟨hlink₂, hmute₂, hevents₂⟩ := second.apart he
      refine ⟨hlink₂, (Turn.puts_andThen _ _).mpr ⟨hmute₁, hmute₂⟩, ?_⟩
      rw [Turn.events_andThen, hevents₁, hevents₂, List.append_nil]
    received := by
      rw [Turn.events_andThen]
      exact List.forall_mem_append.mpr ⟨first.received, second.received⟩
    inStep := by
      intro τ hτ
      rw [Turn.effects_andThen, Timers.setAll_append]
      exact second.inStep _ (first.inStep τ hτ)
    finished := second.finished
    closing := second.closing
    lasting := second.lasting }

/-- Input that is handled on a connection. -/
theorem interim_response (he : e.Open) (h : Response e t) (hlife : t.engine.life = e.life) :
    Interim quits e t where
  joined := fun _ => he
  held := fun _ _ => by
    have ht := (open_of_life hlife).mpr he
    exact ⟨.inl ht.1, ht.2, fun hdrop => h.heard _ hdrop⟩
  apart := fun hnot => absurd he hnot
  received := h.heard.events
  inStep := fun _ hτ => h.inStep hτ
  finished := fun hfreed => absurd (he.2.symm.trans hfreed) Bool.false_ne_true
  closing := fun _ => .inl (.inl he.1)
  lasting := fun _ _ _ => by
    have ht := (open_of_life hlife).mpr he
    exact ⟨ht.2, ht.1 ▸ by decide⟩

/-- A request of the engine or of the caller. -/
theorem interim_queue (quits : Bool) (e : Engine) (r : Request) :
    Interim quits e (e.queue r) := by
  by_cases he : e.Open
  · exact interim_response he (.queue e r) (congrArg life (e.engine_queue r))
  · rw [queue_of_not_open he]
    exact interim_stay quits e

/-- What the table says of such an action. -/
theorem row_of_isWish {state : ConnectionState} (haction : action.IsWish)
    (hrow : transition? state action = some row) :
    row.next ≠ .reconnecting ∧ (row.next = .connected → state = .connected) ∧
      (state.Holds → row.next.Holds ∧ row.freed = false) ∧
        (row.next = .disconnecting ∨ row.next = .quitting → state.Holds ∨ state = .connecting) ∧
        (action ≠ .quit → state ≠ .quitting → row.freed = false ∧ row.next ≠ .quitting) := by
  cases state <;> cases action <;>
    simp only [transition?, Option.some.injEq, reduceCtorEq] at hrow <;>
    first
      | exact absurd haction id
      | (subst hrow; decide)

theorem interim_apply (h : e.apply action = .ok a) (haction : action.IsWish)
    (hquits : action = .quit → quits = true) : Interim quits e a.turn := by
  obtain ⟨hfreed, row, hrow, rfl⟩ := apply_eq_ok_iff.mp h
  obtain ⟨hwait, hjoined, hheld, hclosing, hlasting⟩ := row_of_isWish haction hrow
  exact {
    joined := fun hopen => ⟨hjoined hopen.1, hfreed⟩
    held := by
      intro hstate _
      obtain ⟨hnext, hgoes⟩ := hheld hstate
      refine ⟨hnext, hgoes, fun hdrop => ?_⟩
      rcases mem_outputs_taken hdrop with ⟨effect, heq⟩ | ⟨-, hends⟩
      · exact absurd heq (by simp)
      · exact absurd (hgoes.symm.trans hends) Bool.false_ne_true
    apart := fun _ => ⟨rfl, e.mute_taken action row, e.events_taken action row⟩
    received := by
      rw [events_taken]
      exact fun _ hevent => absurd hevent List.not_mem_nil
    inStep := fun _ hτ => inStep_taken hτ.keepalive fun hnext => absurd hnext hwait
    finished := fun hover => absurd (hfreed.symm.trans hover) Bool.false_ne_true
    closing := hclosing
    lasting := fun hno _ hstate =>
      hlasting (fun heq => absurd (hno.symm.trans (hquits heq)) Bool.false_ne_true) hstate }

/-- What such a call comes to. -/
theorem interim_call {c : LifecycleCall} (hc : c.IsWish quits) :
    Interim quits e (e.turn (.call c)) := by
  rw [turn]
  split
  · exact interim_stay quits e
  rename_i a ha
  cases c with
  | connect => exact interim_apply ha trivial (fun h => absurd h (by decide))
  | disconnect => exact interim_apply ha trivial (fun h => absurd h (by decide))
  | timerFired => exact interim_apply ha trivial (fun h => absurd h (by decide))
  | quit reason =>
    -- the farewell is queued first, and it leaves the engine as it is
    obtain ⟨hfarewell, hengine⟩ : Interim quits e
        (if e.state = .connected then e.queue (.quit reason) else e.stay) ∧
          (if e.state = .connected then e.queue (.quit reason) else e.stay).engine = e := by
      split_ifs
      · exact ⟨interim_queue quits e _, e.engine_queue _⟩
      · exact ⟨interim_stay quits e, rfl⟩
    rw [call, Engine.quit] at ha
    split at ha
    · exact absurd ha (by simp)
    rename_i b hb
    obtain rfl := Except.ok.inj ha
    rw [hengine] at hb
    show Interim quits e (Turn.andThen _ fun _ => b.turn)
    exact hfarewell.andThen hengine (interim_apply hb trivial fun _ => hc)
  | keepaliveTick now =>
    rcases keepaliveTick_eq_ok ha with rfl | ⟨token, rfl⟩ | hb
    · exact interim_stay quits e
    · exact interim_queue quits e _
    · exact interim_apply hb trivial (fun h => absurd h (by decide))
  | apply action => exact hc.elim
  | connectFinished now => exact hc.elim
  | connectFailed reason => exact hc.elim
  | disconnected reason => exact hc.elim

theorem interim_timerFired (quits : Bool) (e : Engine) :
    Interim quits e (e.turn (.call .timerFired)) := interim_call trivial

/-- The reconnect timer is answered with an attempt to connect. -/
theorem turn_timerFired (hstate : e.state = .reconnecting) (hfreed : e.freed = false) :
    e.turn (.call .timerFired) =
      (e.taken .connect ⟨.connecting, some .startConnect, false⟩).turn := by
  have happly : e.apply .connect =
      .ok (e.taken .connect ⟨.connecting, some .startConnect, false⟩) :=
    apply_eq_ok_iff.mpr ⟨hfreed, _, by rw [hstate]; rfl, rfl⟩
  rw [turn, call, timerFired, happly]

/-! ### A connection is made -/

theorem turn_connectFinished (hstate : e.state = .connecting) (hfreed : e.freed = false)
    (now : Instant) :
    e.turn (.call (.connectFinished now)) = ⟨e.opened now, e.openingOutputs now⟩ := by
  rw [turn, call, connectFinished_eq_ok_iff.mpr ⟨hfreed, hstate, rfl⟩]

theorem effects_openingOutputs (e e' : Engine) (now : Instant) :
    (Turn.mk e' (e.openingOutputs now)).effects =
      .resetBackoff :: if e.link.keepalive.isSome then [.stopKeepalive] else [] := by
  have hlines : ((e.config.registration.flatMap Request.lines).map Output.line).filterMap
      Output.effect? = [] := e.effects_lines _
  rw [Turn.effects, openingOutputs, List.filterMap_append, List.filterMap_append, hlines]
  split_ifs <;> rfl

theorem events_openingOutputs (e e' : Engine) (now : Instant) :
    (Turn.mk e' (e.openingOutputs now)).events = [.connected] := by
  have hlines : ((e.config.registration.flatMap Request.lines).map Output.line).filterMap
      Output.event? = [] := by
    rw [List.filterMap_map, List.filterMap_eq_nil_iff]
    exact fun _ _ => rfl
  rw [Turn.events, openingOutputs, List.filterMap_append, List.filterMap_append, hlines]
  split_ifs <;> rfl

/-- The engine of a connection that opens is in step if keepalive did not run. -/
theorem inStep_opened {τ : Timers} (hτ : τ.keepalive = false) (e' : Engine) (now : Instant) :
    (e.opened now).InStep (τ.setAll (Turn.mk e' (e.openingOutputs now)).effects) where
  keepalive := by
    rw [effects_openingOutputs]
    split_ifs
    · rfl
    · exact hτ
  reconnect := fun h => absurd h (by simp [opened])

/-! ### An attempt has failed -/

/-- The answer to the news that an attempt to connect has failed.  When there is none, nothing
happens. -/
structure Failed (e : Engine) (t : Turn) : Prop where
  joined : t.engine.Open → e.Open
  link : t.engine.link = e.link
  mute : t.Puts Output.Mute
  told : ∀ event ∈ t.events, ∃ reason retry, event = .connectFailed reason retry
  inStep : ∀ τ, e.InStep τ → t.engine.InStep (τ.setAll t.effects)
  finished : e.freed = true → t.engine.freed = true ∧ t.events = []
  lasting : e.freed = false → e.state ≠ .quitting →
    t.engine.freed = false ∧ t.engine.state ≠ .quitting
  /-- No connection is left half closed. -/
  rests : t.engine.freed = false → t.engine.state ≠ .disconnecting ∧ t.engine.state ≠ .quitting

theorem Failed.running (h : Failed e t) (ht : t.engine.freed = false) : e.freed = false :=
  Bool.eq_false_iff.mpr fun hfreed =>
    absurd (ht.symm.trans (h.finished hfreed).1) Bool.false_ne_true

theorem failed_stay (hrests : e.freed = false → e.state ≠ .disconnecting ∧ e.state ≠ .quitting) :
    Failed e e.stay where
  joined := id
  link := rfl
  mute := e.puts_stay
  told := fun _ hevent => absurd hevent List.not_mem_nil
  inStep := fun _ hτ => hτ
  finished := fun hover => ⟨hover, rfl⟩
  lasting := fun hfreed hstate => ⟨hfreed, hstate⟩
  rests := hrests

theorem Failed.report (h : Failed e t) (hfreed : e.freed = false) (ht : ¬ t.engine.Open)
    (reason : String) (retry : Option Duration) :
    Failed e (t.report (.connectFailed reason retry) []) where
  joined := h.joined
  link := h.link
  mute := (Turn.puts_report _ _ _).mpr ⟨h.mute, ht⟩
  told := by
    rw [Turn.events_report]
    exact List.forall_mem_append.mpr ⟨h.told, List.forall_mem_singleton.mpr ⟨reason, retry, rfl⟩⟩
  inStep := by
    rw [Turn.report, Turn.effects_andThen, effects_report, List.append_nil]
    exact h.inStep
  finished := fun hover => absurd (hfreed.symm.trans hover) Bool.false_ne_true
  lasting := h.lasting
  rests := h.rests

theorem row_of_connectFail {state : ConnectionState}
    (hrow : transition? state .connectFail = some row) :
    (row.next = .disconnected ∨ row.next = .reconnecting) ∧
      (row.next = .reconnecting → row.duty = some .armBackoff) ∧
        (state ≠ .quitting → row.freed = false) := by
  cases state <;> simp only [transition?, Option.some.injEq, reduceCtorEq] at hrow <;>
    subst hrow <;> decide

theorem failed_connectFailed (e : Engine) (reason : String) :
    Failed e (e.turn (.call (.connectFailed reason))) := by
  rw [turn, call, connectFailed]
  cases h : e.apply .connectFail with
  | error refusal =>
    refine failed_stay fun hfreed => ⟨fun hstate => ?_, fun hstate => ?_⟩ <;>
      simp [apply, transition, transition?, hstate, hfreed] at h
  | ok a =>
    obtain ⟨hfreed, row, hrow, rfl⟩ := apply_eq_ok_iff.mp h
    obtain ⟨hnext, hwait, hlasting⟩ := row_of_connectFail hrow
    have haway : ¬ (e.taken .connectFail row).turn.engine.Open := by
      rintro ⟨hstate, -⟩
      rcases hnext with h | h <;> exact absurd (h.symm.trans hstate) (by decide)
    have htaken : Failed e (e.taken .connectFail row).turn := {
      joined := fun h => absurd h haway
      link := rfl
      mute := e.mute_taken _ row
      told := by
        rw [events_taken]
        exact fun _ hevent => absurd hevent List.not_mem_nil
      inStep := fun _ hτ => inStep_taken hτ.keepalive hwait
      finished := fun hover => absurd (hfreed.symm.trans hover) Bool.false_ne_true
      lasting := by
        intro _ hstate
        refine ⟨hlasting hstate, fun hquitting => ?_⟩
        rcases hnext with h | h <;> exact absurd (h.symm.trans hquitting) (by decide)
      rests := fun _ => by
        show row.next ≠ .disconnecting ∧ row.next ≠ .quitting
        rcases hnext with h | h <;> rw [h] <;> decide }
    cases hprogress : (e.taken .connectFail row).progress with
    | freed => simpa only [hprogress] using htaken
    | ongoing =>
      simp only [hprogress]
      exact htaken.report hfreed haway reason _

/-! ### A connection is gone -/

/-- A turn in which a connection is given up. -/
structure Gone (e : Engine) (t : Turn) : Prop where
  held : e.state.Holds
  running : e.freed = false
  link : t.engine.link = {}
  state : t.engine.state = .disconnected ∨ t.engine.state = .reconnecting
  /-- A connection that was being closed is not made again. -/
  settled : e.state ≠ .connected → t.engine.state = .disconnected
  mute : t.Puts Output.Mute
  dropped : Output.dropLines ∈ t.outputs
  /-- Nobody is told to close the socket again. -/
  orders : ∀ effect ∈ t.effects, effect.closes = false
  inStep : ∀ τ : Timers, (τ.keepalive = true → e.link.keepalive.isSome = true) →
    t.engine.InStep (τ.setAll t.effects)

/-- The answer to the news that a connection is gone.  It is told unless the session is over,
which was asked for. -/
structure Ended (e : Engine) (t : Turn) : Prop extends Gone e t where
  told : t.engine.freed = false ∧ (∃ reason retry, t.events = [.disconnected reason retry]) ∨
    t.engine.freed = true ∧ t.events = [] ∧ e.state = .quitting

theorem Gone.not_open (h : Gone e t) : ¬ t.engine.Open := by
  rintro ⟨hstate, -⟩
  rcases h.state with h | h <;> exact absurd (h.symm.trans hstate) (by decide)

theorem Gone.report (h : Gone e t) (event : Event) (tags : List Tag) :
    Gone e (t.report event tags) where
  held := h.held
  running := h.running
  link := h.link
  state := h.state
  settled := h.settled
  mute := (Turn.puts_report _ _ _).mpr ⟨h.mute, h.not_open⟩
  dropped := List.mem_append_left _ h.dropped
  orders := by
    rw [Turn.report, Turn.effects_andThen, effects_report, List.append_nil]
    exact h.orders
  inStep := by
    rw [Turn.report, Turn.effects_andThen, effects_report, List.append_nil]
    exact h.inStep

theorem row_of_disconnectFinish {state : ConnectionState}
    (hrow : transition? state .disconnectFinish = some row) :
    state.Holds ∧ (row.next = .disconnected ∨ row.next = .reconnecting) ∧
      (row.next = .reconnecting → row.duty = some .armBackoff) ∧
        (row.duty = none ∨ row.duty = some .armBackoff) ∧
          (state ≠ .connected → row.next = .disconnected) ∧
            (row.freed = true → state = .quitting) := by
  cases state <;> simp only [transition?, Option.some.injEq, reduceCtorEq] at hrow <;>
    subst hrow <;> decide

theorem gone_taken (hfreed : e.freed = false)
    (hrow : transition? e.state .disconnectFinish = some row) :
    Gone e ((e.taken .disconnectFinish row).turn.andThen resetLink) := by
  obtain ⟨hheld, hnext, hwait, hduty, hsettled, -⟩ := row_of_disconnectFinish hrow
  exact {
    held := hheld
    running := hfreed
    link := rfl
    state := hnext
    settled := hsettled
    mute := (Turn.puts_andThen _ _).mpr ⟨e.mute_taken _ row, mute_resetLink _⟩
    dropped := List.mem_append_right _ List.mem_cons_self
    orders := by
      rw [Turn.effects_andThen, effects_taken, effects_resetLink]
      rcases hduty with h | h <;> rw [h] <;> split_ifs <;>
        simp [effectOf, Effect.closes]
    inStep := by
      intro τ hτ
      rw [Turn.effects_andThen, Timers.setAll_append]
      refine inStep_resetLink ?_ fun hstate => ?_
      · rw [effects_taken, keepalive_set_effectOf]
        exact hτ
      · rw [effects_taken, hwait hstate]
        rfl }

theorem ended_disconnected (e : Engine) (reason : String) :
    e.turn (.call (.disconnected reason)) = e.stay ∧ ¬ (e.state.Holds ∧ e.freed = false) ∨
      Ended e (e.turn (.call (.disconnected reason))) := by
  rw [turn, call, disconnected]
  cases h : e.apply .disconnectFinish with
  | error refusal =>
    refine .inl ⟨rfl, ?_⟩
    rintro ⟨hstate, hfreed⟩
    rcases hstate with hstate | hstate | hstate <;>
      simp [apply, transition, transition?, hstate, hfreed] at h
  | ok a =>
    refine .inr ?_
    obtain ⟨hfreed, row, hrow, rfl⟩ := apply_eq_ok_iff.mp h
    have hgone := gone_taken hfreed hrow
    obtain ⟨-, -, -, -, -, hquit⟩ := row_of_disconnectFinish hrow
    cases hover : row.freed with
    | true =>
      have hprogress : (e.taken .disconnectFinish row).progress = .freed := by
        rw [taken, hover]
        rfl
      simp only [hprogress]
      refine ⟨hgone, .inr ⟨hover, ?_, hquit hover⟩⟩
      rw [Answer.andThen, Turn.events_andThen, events_taken, events_resetLink, List.append_nil]
    | false =>
      have hprogress : (e.taken .disconnectFinish row).progress = .ongoing := by
        rw [taken, hover]
        rfl
      simp only [hprogress]
      refine ⟨hgone.report _ _,
        .inl ⟨hover, e.lossReason reason, (e.taken .disconnectFinish row).retryIn, ?_⟩⟩
      rw [Answer.andThen, Answer.andThen, Turn.events_andThen, Turn.events_andThen, events_taken,
        events_resetLink, events_report, List.append_nil, List.nil_append]

end Engine

end Irc
