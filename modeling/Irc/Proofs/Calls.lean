/-
What the lifecycle calls do.

Each call goes by the table, and some add to what the table says: the one that opens a
connection registers the client, the one that ends it forgets what was learnt, and the
keepalive may ask for a sign of life.  Every call is brought down to `Engine.taken`, the
answer to an action that the table allows.

* **`Engine.apply_eq_ok_iff`** — what an action does, if the table allows it;
* **`Engine.connectFinished_eq_ok_iff`** — when a connection opens, and how;
* **`Engine.settings_call`** — what no call touches;
* **`Engine.call_of_open`** — what a call does on a connection.
-/
import Irc.Proofs.Lines

namespace Irc

open Outgoing Lifecycle

/-- What a client says when a connection opens: its capabilities, the password, its
nickname and its user. -/
def Config.registration (c : Config) : List Request :=
  .capLs (some "302") :: (c.password.map Request.pass).toList ++
    [.nick c.nickname, .user c.username c.realname]

namespace Engine

variable {e : Engine} {action : Action} {a : Answer} {now : Instant}

/-- What an engine is made with: its configuration, and the base and step of its waits. -/
def settings (e : Engine) : Config × Duration × Duration :=
  (e.config, e.backoff.base, e.backoff.step)

/-- The answer to an action that the table allows. -/
def taken (e : Engine) (action : Action) (t : Transition) : Answer where
  progress := if t.freed then .freed else .ongoing
  retryIn := if t.duty = some .armBackoff then some (e.backoffAfter action t.duty).current else none
  turn := {
    engine :=
      { e with
        state := t.next, lastAction := some action, backoff := e.backoffAfter action t.duty,
        freed := t.freed }
    outputs :=
      (t.duty.map (effectOf (e.backoffAfter action t.duty).current)).toList.map Output.effect ++
        if t.freed then [.dropLines] else [] }

/-- An action is taken if the session is not over and the table allows it. -/
theorem apply_eq_ok_iff :
    e.apply action = .ok a ↔
      e.freed = false ∧ ∃ t, transition? e.state action = some t ∧ a = e.taken action t := by
  rw [apply, transition]
  cases hfreed : e.freed with
  | true => simp
  | false =>
    cases ht : transition? e.state action with
    | none => simp
    | some t =>
      simp only [Bool.false_eq_true, if_false, Except.ok.injEq, Option.some.injEq, true_and,
        exists_eq_left']
      exact eq_comm

@[simp] theorem lines_taken (e : Engine) (action : Action) (t : Transition) :
    (e.taken action t).turn.lines = [] := by
  rw [Turn.lines, List.filterMap_eq_nil_iff]
  intro o ho
  rcases List.mem_append.mp ho with ho | ho
  · obtain ⟨effect, -, rfl⟩ := List.mem_map.mp ho
    rfl
  · split_ifs at ho
    · rw [List.mem_singleton.mp ho]
      rfl
    · exact absurd ho List.not_mem_nil

@[simp] theorem lines_resetLink (e : Engine) : e.resetLink.lines = [] := by
  rw [resetLink]
  split_ifs <;> rfl

/-- The engine of a connection that opens.  It knows its configuration and the waiting
times, and nothing else from before. -/
def opened (e : Engine) (now : Instant) : Engine where
  config := e.config
  state := .connected
  lastAction := some .connectFinish
  backoff := e.backoff.succeed
  nickname := e.config.nickname
  nickAttempt := 0
  epoch := now
  link := {}
  freed := false

/-- What is put out when a connection opens. -/
def openingOutputs (e : Engine) (now : Instant) : List Output :=
  .effect .resetBackoff :: .dropLines ::
    (if e.link.keepalive.isSome then [.effect .stopKeepalive] else []) ++
      (e.config.registration.flatMap Request.lines).map .line ++
        [.report .connected [] (e.opened now)]

theorem lines_openingOutputs (e e' : Engine) (now : Instant) :
    (Turn.mk e' (e.openingOutputs now)).lines = e.config.registration.flatMap Request.lines := by
  have hkeepalive : (.effect .resetBackoff :: .dropLines ::
      if e.link.keepalive.isSome then [.effect .stopKeepalive] else []).filterMap
        Output.line? = [] := by
    split_ifs <;> rfl
  have hlines (lines : List String) : (lines.map Output.line).filterMap Output.line? = lines := by
    rw [List.filterMap_map]
    exact List.filterMap_some
  rw [Turn.lines, openingOutputs, List.filterMap_append, List.filterMap_append, hkeepalive, hlines,
    List.filterMap_cons_none rfl, List.filterMap_nil, List.append_nil, List.nil_append]

theorem register_of_open (he : e.Open) (hnick : e.nickname = e.config.nickname) :
    e.register = ⟨e, (e.config.registration.flatMap Request.lines).map .line⟩ := by
  rw [register]
  cases hpass : e.config.password <;>
    simp [Turn.queue, Turn.andThen, queue_of_open he, Config.registration, hpass, hnick]

theorem beginConnection_of_open (he : e.Open) (now : Instant) :
    e.beginConnection now =
      ⟨{ e with nickname := e.config.nickname, nickAttempt := 0, epoch := now, link := {} },
        .dropLines :: (if e.link.keepalive.isSome then [.effect .stopKeepalive] else []) ++
          (e.config.registration.flatMap Request.lines).map .line ++
            [.report .connected []
              { e with
                nickname := e.config.nickname, nickAttempt := 0, epoch := now, link := {} }]⟩ := by
  have hregister := register_of_open
    (e := { e with nickname := e.config.nickname, nickAttempt := 0, epoch := now, link := {} })
    he rfl
  simp only [beginConnection, resetLink, Turn.update, Turn.andThen, Turn.report, hregister,
    report]

/-- **When a connection opens, and how.** -/
theorem connectFinished_eq_ok_iff :
    e.connectFinished now = .ok a ↔ e.freed = false ∧ e.state = .connecting ∧
      a = ⟨.ongoing, none, e.opened now, e.openingOutputs now⟩ := by
  -- the table leads to a connection from one state only
  have htable : ∀ s t, transition? s .connectFinish = some t ↔
      s = .connecting ∧ t = ⟨.connected, some .resetBackoff, false⟩ := by
    intro s t
    cases s <;> simp [transition?, eq_comm]
  have hbegin :
      (e.taken .connectFinish ⟨.connected, some .resetBackoff, false⟩).andThen
        (·.beginConnection now) = ⟨.ongoing, none, e.opened now, e.openingOutputs now⟩ := by
    rw [Answer.andThen, Turn.andThen, beginConnection_of_open ⟨rfl, rfl⟩]
    simp [taken, opened, openingOutputs, backoffAfter, effectOf]
  rw [connectFinished]
  constructor
  · intro h
    split at h
    · exact absurd h (by simp)
    rename_i answer hanswer
    obtain ⟨hfreed, t, ht, rfl⟩ := apply_eq_ok_iff.mp hanswer
    obtain ⟨hstate, rfl⟩ := (htable _ _).mp ht
    exact ⟨hfreed, hstate, (hbegin ▸ Except.ok.inj h).symm⟩
  · rintro ⟨hfreed, hstate, rfl⟩
    rw [apply_eq_ok_iff.mpr ⟨hfreed, _, (htable _ _).mpr ⟨hstate, rfl⟩, rfl⟩]
    exact congrArg Except.ok hbegin

/-! ### The other calls -/

theorem connectFailed_eq_ok {reason : String} (h : e.connectFailed reason = .ok a) :
    ∃ b, e.apply .connectFail = .ok b ∧ a.turn.engine = b.turn.engine ∧
      a.turn.lines = b.turn.lines := by
  rw [connectFailed] at h
  split at h
  · exact absurd h (by simp)
  rename_i b hb
  refine ⟨b, hb, ?_⟩
  split at h
  · obtain rfl := Except.ok.inj h
    exact ⟨rfl, rfl⟩
  · obtain rfl := Except.ok.inj h
    exact ⟨rfl, by simp [Answer.andThen]⟩

theorem disconnected_eq_ok {reason : String} (h : e.disconnected reason = .ok a) :
    ∃ b, e.apply .disconnectFinish = .ok b ∧ a.turn.engine = { b.turn.engine with link := {} } ∧
      a.turn.lines = b.turn.lines := by
  rw [disconnected] at h
  split at h
  · exact absurd h (by simp)
  rename_i b hb
  refine ⟨b, hb, ?_⟩
  dsimp only at h
  split at h
  · obtain rfl := Except.ok.inj h
    exact ⟨rfl, by simp [Answer.andThen]⟩
  · obtain rfl := Except.ok.inj h
    exact ⟨rfl, by simp [Answer.andThen]⟩

theorem quit_eq_ok {reason : Option String} (h : e.quit reason = .ok a) :
    ∃ b, e.apply .quit = .ok b ∧ a.turn.engine = b.turn.engine ∧
      a.turn.lines =
        (if e.state = .connected then (e.queue (.quit reason)).lines else []) ++ b.turn.lines := by
  -- the farewell goes first, so the table is asked of the engine that has said it
  have hfarewell :
      (if e.state = .connected then e.queue (.quit reason) else e.stay).engine = e := by
    split_ifs <;> simp
  rw [quit] at h
  split at h
  · exact absurd h (by simp)
  rename_i b hb
  rw [hfarewell] at hb
  obtain rfl := Except.ok.inj h
  refine ⟨b, hb, rfl, ?_⟩
  rw [Turn.lines_andThen]
  split_ifs <;> rfl

theorem keepaliveTick_eq_ok (h : e.keepaliveTick now = .ok a) :
    a = ongoing e.stay ∨ (∃ token, a = ongoing (e.queue (.ping token))) ∨
      e.apply .reconnect = .ok a := by
  rw [keepaliveTick] at h
  split_ifs at h
  · exact .inl (Except.ok.inj h).symm
  split at h
  · exact .inl (Except.ok.inj h).symm
  split_ifs at h
  · exact .inr (.inr h)
  · exact .inr (.inl ⟨_, (Except.ok.inj h).symm⟩)

theorem settings_taken (e : Engine) (action : Action) (t : Transition) :
    (e.taken action t).turn.engine.settings = e.settings := by
  obtain ⟨next, duty, freed⟩ := t
  cases duty with
  | none => rfl
  | some duty =>
    cases duty with
    | armBackoff =>
      simp only [settings, taken, backoffAfter]
      split_ifs <;> rfl
    | _ => rfl

/-- A lifecycle call does not touch the settings. -/
theorem settings_call {c : LifecycleCall} (h : e.call c = .ok a) :
    a.turn.engine.settings = e.settings := by
  have happly : ∀ {action : Action} {a : Answer}, e.apply action = .ok a →
      a.turn.engine.settings = e.settings := by
    intro action a h
    obtain ⟨-, t, -, rfl⟩ := apply_eq_ok_iff.mp h
    exact e.settings_taken action t
  cases c with
  | connectFinished now =>
    obtain ⟨-, -, rfl⟩ := connectFinished_eq_ok_iff.mp h
    rfl
  | connectFailed reason =>
    obtain ⟨b, hb, hengine, -⟩ := connectFailed_eq_ok h
    rw [hengine, happly hb]
  | disconnected reason =>
    obtain ⟨b, hb, hengine, -⟩ := disconnected_eq_ok h
    rw [hengine, ← happly hb]
    rfl
  | quit reason =>
    obtain ⟨b, hb, hengine, -⟩ := quit_eq_ok h
    rw [hengine, happly hb]
  | keepaliveTick now =>
    rcases keepaliveTick_eq_ok h with rfl | ⟨token, rfl⟩ | hb
    · rfl
    · rw [ongoing, engine_queue]
    · exact happly hb
  | apply action => exact happly h
  | connect => exact happly h
  | disconnect => exact happly h
  | timerFired => exact happly h

/-- What a lifecycle call does on a connection.  It queues at most a farewell or a request
for a sign of life, and while the connection lasts, what was learnt on it stays. -/
theorem call_of_open (he : e.Open) {c : LifecycleCall} (h : e.call c = .ok a) :
    (a.turn.lines = [] ∨ (∃ reason, a.turn.lines = (Request.quit reason).lines) ∨
        ∃ token, a.turn.lines = (Request.ping token).lines) ∧
      (a.turn.engine.state = .connected → a.turn.engine.link = e.link ∧ a.turn.engine.Open) := by
  have happly : ∀ {action : Action} {a : Answer}, e.apply action = .ok a →
      a.turn.lines = [] ∧ (a.turn.engine.state = .connected →
        a.turn.engine.link = e.link ∧ a.turn.engine.Open) := by
    intro action a h
    obtain ⟨-, t, ht, rfl⟩ := apply_eq_ok_iff.mp h
    refine ⟨lines_taken e action t, fun hnext => ⟨rfl, hnext, ?_⟩⟩
    -- no row of the table ends the session of a connection that is there
    rw [he.1] at ht
    cases action <;> simp only [transition?, Option.some.injEq, reduceCtorEq] at ht <;> subst ht <;>
      rfl
  cases c with
  | connectFinished now =>
    obtain ⟨-, hstate, -⟩ := connectFinished_eq_ok_iff.mp h
    exact absurd (he.1.symm.trans hstate) (by simp)
  | connectFailed reason =>
    obtain ⟨b, hb, hengine, hlines⟩ := connectFailed_eq_ok h
    rw [hengine, hlines]
    exact (happly hb).imp .inl id
  | disconnected reason =>
    obtain ⟨b, hb, hengine, hlines⟩ := disconnected_eq_ok h
    rw [hlines, hengine]
    refine ⟨.inl (happly hb).1, fun hnext => ?_⟩
    obtain ⟨-, t, ht, rfl⟩ := apply_eq_ok_iff.mp hb
    rw [he.1, transition?, Option.some.injEq] at ht
    subst ht
    exact absurd hnext (by simp [taken])
  | quit reason =>
    obtain ⟨b, hb, hengine, hlines⟩ := quit_eq_ok h
    rw [if_pos he.1, lines_queue_of_open he, (happly hb).1, List.append_nil] at hlines
    rw [hengine]
    exact ⟨.inr (.inl ⟨reason, hlines⟩), (happly hb).2⟩
  | keepaliveTick now =>
    rcases keepaliveTick_eq_ok h with rfl | ⟨token, rfl⟩ | hb
    · exact ⟨.inl rfl, fun _ => ⟨rfl, he⟩⟩
    · rw [ongoing, lines_queue_of_open he, engine_queue]
      exact ⟨.inr (.inr ⟨token, rfl⟩), fun _ => ⟨rfl, he⟩⟩
    · exact (happly hb).imp .inl id
  | apply action => exact (happly h).imp .inl id
  | connect => exact (happly h).imp .inl id
  | disconnect => exact (happly h).imp .inl id
  | timerFired => exact (happly h).imp .inl id

end Engine

end Irc
