/-
What the server can move.

A session handles whatever is sent to it, and a handler may answer with lines of its own.  Of
the engine the server moves what is learnt on the connection and the nickname, and nothing
else: it can neither end a connection nor begin one, and the one order that it can have queued
is to start the keepalive.

* **`Engine.Renames`** — when a message gives the client a nickname, and which;
* **`Engine.turn_of_input`** — what handling input comes to;
* **`Session.frame_input`** — what input leaves as it is, and what it may change;
* **`Session.frame_inputs`** — so does any amount of it.
-/
import Irc.Proofs.Intake

namespace Irc

/-- What comes from the server: a line, a message, or bytes that are no line. -/
inductive Input where
  | line (text : String) (now : Instant)
  | message (m : Message) (now : Instant)
  | undecodable (cause : FramingError)
deriving DecidableEq

/-- The operation that hands input to a session. -/
def Input.operation : Input → Operation
  | .line text now => .line text now
  | .message m now => .message m now
  | .undecodable cause => .undecodable cause

theorem Input.isTurn_operation (i : Input) : i.operation.isTurn = true := by
  cases i <;> rfl

namespace Engine

/-- A message gives the client a nickname. -/
inductive Renames (e : Engine) (m : Message) : String → Prop where
  /-- The server welcomes the client under it. -/
  | welcome (hm : m.numeric? = some 1) : Renames e m (m.arg 0)
  /-- It is the client whose nickname changes. -/
  | nick (hm : m.command = "NICK")
      (hself : CaseMapping.same (Actor.ofMessage m).name e.nickname = true) :
      Renames e m (m.arg 0)
  /-- The one before it is taken, and the client is not registered yet. -/
  | retry (hm : m.numeric? = some 433) (hregistered : e.link.registered = false) :
      Renames e m e.nextNickname

variable {e : Engine} {m : Message} {t : Turn}

/-! ### The parts of handling -/

/-- A remark gives no order. -/
theorem Remark.effects (h : Remark e t) : t.effects = [] := by
  induction h with
  | queue e r => exact e.effects_queue r
  | andThen first second ih₁ ih₂ => rw [Turn.effects_andThen, ih₁, ih₂, List.append_nil]
  | _ => rfl

/-- The one order that a message can have given. -/
theorem Upshot.effects (h : Upshot e m t) :
    t.effects = [] ∨
      m.numeric? = some 1 ∧ t.effects = [.startKeepalive e.config.timing.pingInterval] := by
  induction h with
  | remark h => exact .inl h.effects
  | welcome now hm hcount => exact .inr ⟨hm, rfl⟩
  | answer now trip hm hcount => exact .inl rfl
  | nick hm hself => exact .inl rfl
  | retry hm hregistered => exact .inl rfl
  | thenRemark first second ih =>
    rw [Turn.effects_andThen, second.effects, List.append_nil]
    exact ih

/-- The client has the nickname that it had, or the one that the message gives it. -/
theorem Upshot.nickname (h : Upshot e m t) :
    t.engine.nickname = e.nickname ∨ e.Renames m t.engine.nickname := by
  induction h with
  | remark h => exact .inl h.nickname
  | welcome now hm hcount => exact .inr (.welcome hm)
  | answer now trip hm hcount => exact .inl rfl
  | nick hm hself => exact .inr (.nick hm hself)
  | retry hm hregistered => exact .inr (.retry hm hregistered)
  | thenRemark first second ih =>
    rw [Turn.engine_andThen, second.nickname]
    exact ih

/-- Input is handled as the message that it brings, and merely remarked on without one. -/
theorem turn_of_input (e : Engine) (i : Input) :
    (∃ m, i.operation.message? = some m ∧ Upshot e m (e.turn i.operation)) ∨
      Remark e (e.turn i.operation) := by
  cases hm : i.operation.message? with
  | some m =>
    obtain ⟨now, hturn⟩ := turn_of_message hm e
    rw [hturn]
    exact .inl ⟨m, rfl, e.upshot_handleMessage m now⟩
  | none =>
    cases i with
    | line text now =>
      show _ ∨ Remark e (e.handleLine text now)
      cases hparse : Message.parse text with
      | error cause =>
        rw [handleLine, hparse]
        exact .inr (.report e [] trivial)
      | ok m =>
        rw [Input.operation, Operation.message?_line, hparse] at hm
        exact absurd hm (by simp [Except.toOption])
    | message m now => exact absurd hm (by simp [Input.operation])
    | undecodable cause => exact .inr (.report e [] trivial)

/-- Input moves nothing of the life of the connection. -/
theorem life_turn_of_input (e : Engine) (i : Input) :
    (e.turn i.operation).engine.life = e.life := by
  rcases e.turn_of_input i with ⟨m, -, hupshot⟩ | hremark
  · exact hupshot.response.life
  · exact hremark.response.life

/-- The one order that input can have given. -/
theorem effects_turn_of_input (e : Engine) (i : Input) :
    (e.turn i.operation).effects = [] ∨
      ∃ m, i.operation.message? = some m ∧ m.numeric? = some 1 ∧
        (e.turn i.operation).effects = [.startKeepalive e.config.timing.pingInterval] := by
  rcases e.turn_of_input i with ⟨m, hm, hupshot⟩ | hremark
  · exact hupshot.effects.imp_right fun h => ⟨m, hm, h⟩
  · exact .inl hremark.effects

/-- The client has the nickname that it had, or one that the input gives it. -/
theorem nickname_turn_of_input (e : Engine) (i : Input) :
    (e.turn i.operation).engine.nickname = e.nickname ∨
      ∃ m, i.operation.message? = some m ∧ e.Renames m (e.turn i.operation).engine.nickname := by
  rcases e.turn_of_input i with ⟨m, hm, hupshot⟩ | hremark
  · exact hupshot.nickname.imp_right fun h => ⟨m, hm, h⟩
  · exact .inl hremark.nickname

end Engine

namespace Session

variable {σ : Type}

theorem id_absorb (s : Session σ) (o : Output) : (s.absorb o).id = s.id := by
  cases o with
  | report event tags seen => rw [absorb, callHandler, queueLines_eq]
  | _ => rfl

theorem id_perform (s : Session σ) (t : Turn) : (s.perform t).id = s.id := by
  have habsorb : ∀ (outputs : List Output) (s : Session σ), (outputs.foldl absorb s).id = s.id := by
    intro outputs
    induction outputs with
    | nil => exact fun s => rfl
    | cons o outputs ih => exact fun s => (ih _).trans (s.id_absorb o)
  exact habsorb t.outputs _

/-- **What the server can move.**  Input leaves the number of a session and the life of its
connection as they are.  It has at most one order queued, to start the keepalive, and that only
when the server welcomes the client; and the client has another nickname afterwards only if the
input is a message that gives it one. -/
theorem frame_input (s : Session σ) (i : Input) :
    (s.operate i.operation).id = s.id ∧
      (s.operate i.operation).engine.life = s.engine.life ∧
      ((s.operate i.operation).effects = s.effects ∨
        ∃ m, i.operation.message? = some m ∧ m.numeric? = some 1 ∧
          (s.operate i.operation).effects =
            s.effects ++ [.startKeepalive s.engine.config.timing.pingInterval]) ∧
      ((s.operate i.operation).engine.nickname = s.engine.nickname ∨
        ∃ m, i.operation.message? = some m ∧
          s.engine.Renames m (s.operate i.operation).engine.nickname) := by
  rw [s.operate_eq_perform i.isTurn_operation, id_perform, effects_perform, (s.frame_perform _).1]
  refine ⟨rfl, s.engine.life_turn_of_input i, ?_, s.engine.nickname_turn_of_input i⟩
  rcases s.engine.effects_turn_of_input i with heffects | ⟨m, hm, hwelcome, heffects⟩
  · exact .inl (by rw [heffects, List.append_nil])
  · exact .inr ⟨m, hm, hwelcome, by rw [heffects]⟩

/-- However much the server sends, all that it can have ordered is to start the keepalive. -/
theorem frame_inputs (s : Session σ) (inputs : List Input) :
    (s.run (inputs.map Input.operation)).id = s.id ∧
      (s.run (inputs.map Input.operation)).engine.life = s.engine.life ∧
      ∃ n, (s.run (inputs.map Input.operation)).effects =
        s.effects ++ List.replicate n (.startKeepalive s.engine.config.timing.pingInterval) := by
  induction inputs generalizing s with
  | nil => exact ⟨rfl, rfl, 0, (List.append_nil _).symm⟩
  | cons i inputs ih =>
    have hturn := s.operate_eq_perform i.isTurn_operation
    have hlife : (s.operate i.operation).engine.life = s.engine.life := by
      rw [engine_operate]
      exact s.engine.life_turn_of_input i
    have hqueued : (s.operate i.operation).effects =
        s.effects ++ (s.engine.turn i.operation).effects := by
      rw [hturn, effects_perform]
    obtain ⟨hid, hrest, n, heffects⟩ := ih (s.operate i.operation)
    rw [Engine.config_of_life hlife, hqueued, List.append_assoc] at heffects
    refine ⟨hid.trans (by rw [hturn, id_perform]), hrest.trans hlife, ?_⟩
    rcases s.engine.effects_turn_of_input i with hnone | ⟨m, -, -, hone⟩
    · rw [hnone, List.nil_append] at heffects
      exact ⟨n, heffects⟩
    · rw [hone] at heffects
      exact ⟨n + 1, heffects⟩

end Session

end Irc
