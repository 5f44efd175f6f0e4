/-
The course of a connection.

An `Act` is an operation together with the engine that it was carried out on, and
`Act.lines` are the lines that the engine itself queues in it; what the caller sends and
what a handler answers are not among them.  `Session.Connection` says which acts make up
the course of a connection, from the call that opens it to the one that ends it.

* **`Session.operate_eq_perform`** — an operation is the engine's own turn, taken in;
* **`Session.frame_operate`** — what an operation brings to a session, and what it leaves;
* **`Session.queued_operate`**, **`Session.Unprompted.connection`** — the lines of acts are what
  is queued in them;
* **`Session.Connection.open_of_connected`**, **`Session.Connection.config_eq`** — what holds
  all along a connection;
* **`Session.Connection.run`** — operations make up a connection for as long as it is there.
-/
import Irc.Proofs.Calls
import Irc.Proofs.Responses
import Irc.Session.Basic

namespace Irc

open Outgoing

/-! ### Acts -/

namespace Operation

/-- The message that an operation brings and when it came, if it brings one. -/
def received? : Operation → Option (Message × Instant)
  | .message m now => some (m, now)
  | .line text now => (Message.parse text).toOption.map fun m => (m, now)
  | _ => none

/-- The message that an operation brings, if it brings one. -/
def message? (op : Operation) : Option Message := op.received?.map Prod.fst

@[simp]
theorem message?_line (text : String) (now : Instant) :
    (line text now).message? = (Message.parse text).toOption := by
  rw [message?, received?, Option.map_map]
  exact congrFun Option.map_id _

@[simp]
theorem message?_message (m : Message) (now : Instant) : (message m now).message? = some m := rfl

theorem message?_eq_none_of_received {op : Operation} (h : op.received? = none) :
    op.message? = none := by
  rw [message?, h, Option.map_none]

end Operation

/-- Whether the engine has a part in an operation.  It has none in sending and polling. -/
def Operation.isTurn : Operation → Bool
  | .call _ | .line _ _ | .message _ _ | .undecodable _ => true
  | .send _ | .pollOutgoing | .pollEffect => false

/-- The engine's own turn in an operation.  A call that it refuses leaves it as it is. -/
def Engine.turn (e : Engine) : Operation → Turn
  | .call c =>
    match e.call c with
    | .error _ => e.stay
    | .ok a => a.turn
  | .line line now => e.handleLine line now
  | .message m now => e.handleMessage m now
  | .undecodable cause => e.reportUndecodable cause
  | .send _ | .pollOutgoing | .pollEffect => e.stay

/-- An operation and the engine that it is carried out on. -/
structure Act where
  engine : Engine
  op : Operation

namespace Act

/-- The engine's own turn. -/
def turn (a : Act) : Turn := a.engine.turn a.op

/-- The engine afterwards. -/
def after (a : Act) : Engine := a.turn.engine

/-- The lines that the engine itself queues. -/
def lines (a : Act) : List String := a.turn.lines

end Act

namespace Engine

variable {e : Engine} {op : Operation}

theorem settings_turn (e : Engine) (op : Operation) :
    (e.turn op).engine.settings = e.settings := by
  have hlife : ∀ {e' : Engine}, e'.life = e.life → e'.settings = e.settings :=
    fun h => congrArg (fun l : Life => (l.config, l.backoff.base, l.backoff.step)) h
  cases op with
  | call c =>
    rw [turn]
    split
    · rfl
    · exact settings_call ‹_›
  | line line now => exact hlife (e.life_handleLine line now)
  | message m now => exact hlife (e.life_handleMessage m now)
  | undecodable cause => rfl
  | send r => rfl
  | pollOutgoing => rfl
  | pollEffect => rfl

theorem config_turn (e : Engine) (op : Operation) : (e.turn op).engine.config = e.config :=
  congrArg Prod.fst (e.settings_turn op)

/-- An operation that brings a message is the handling of it. -/
theorem turn_of_received {m : Message} {now : Instant} (h : op.received? = some (m, now))
    (e : Engine) : e.turn op = e.handleMessage m now := by
  cases op with
  | message m' now' =>
    obtain ⟨rfl, rfl⟩ := Prod.mk.inj (Option.some_inj.mp h)
    rfl
  | line text now' =>
    rw [turn, handleLine]
    cases hparse : Message.parse text with
    | error cause =>
      rw [Operation.received?, hparse] at h
      exact absurd h (by simp [Except.toOption])
    | ok m' =>
      rw [Operation.received?, hparse] at h
      obtain ⟨rfl, rfl⟩ := Prod.mk.inj (Option.some_inj.mp h)
      rfl
  | _ => exact absurd h (by simp [Operation.received?])

theorem turn_of_message {m : Message} (h : op.message? = some m) (e : Engine) :
    ∃ now, e.turn op = e.handleMessage m now := by
  obtain ⟨⟨m', now⟩, hreceived, rfl⟩ := Option.map_eq_some_iff.mp h
  exact ⟨now, turn_of_received hreceived e⟩

/-- An operation without a message is a call, or it is done with a remark or with nothing. -/
theorem turn_cases_of_no_message (h : op.message? = none) (e : Engine) :
    (∃ c, op = .call c) ∨ e.turn op = e.stay ∨
      ∃ anomaly, e.turn op = e.report (.anomaly anomaly) [] := by
  cases op with
  | call c => exact .inl ⟨c, rfl⟩
  | line line now =>
    rw [turn, handleLine]
    cases hparse : Message.parse line with
    | error cause => exact .inr (.inr ⟨.unparsable line cause, rfl⟩)
    | ok m =>
      rw [Operation.message?_line, hparse] at h
      exact absurd h (by simp [Except.toOption])
  | message m now => exact absurd h (by simp)
  | undecodable cause => exact .inr (.inr ⟨.undecodable cause, rfl⟩)
  | send r => exact .inr (.inl rfl)
  | pollOutgoing => exact .inr (.inl rfl)
  | pollEffect => exact .inr (.inl rfl)

/-- An operation without a message leaves the engine as it is, unless it is a call. -/
theorem engine_turn_of_no_message (hop : op.message? = none) (e : Engine) :
    (e.turn op).engine = e ∨
      ∃ c a, op = .call c ∧ e.call c = .ok a ∧ (e.turn op).engine = a.turn.engine := by
  rcases turn_cases_of_no_message hop e with ⟨c, rfl⟩ | hstay | ⟨anomaly, hremark⟩
  · rw [turn]
    cases ha : e.call c with
    | error refusal => exact .inl rfl
    | ok a => exact .inr ⟨c, a, rfl, ha, rfl⟩
  · exact .inl (congrArg Turn.engine hstay)
  · exact .inl (congrArg Turn.engine hremark)

/-- What an operation without a message does on a connection. -/
theorem turn_of_no_message (he : e.Open) (h : op.message? = none) :
    ((e.turn op).lines = [] ∨ (∃ reason, (e.turn op).lines = (Request.quit reason).lines) ∨
        ∃ token, (e.turn op).lines = (Request.ping token).lines) ∧
      ((e.turn op).engine.state = .connected →
        (e.turn op).engine.link = e.link ∧ (e.turn op).engine.Open) := by
  rcases turn_cases_of_no_message h e with ⟨c, rfl⟩ | hstay | ⟨anomaly, hremark⟩
  · rw [turn]
    split
    · exact ⟨.inl rfl, fun _ => ⟨rfl, he⟩⟩
    · exact call_of_open he ‹_›
  · rw [hstay]
    exact ⟨.inl rfl, fun _ => ⟨rfl, he⟩⟩
  · rw [hremark]
    exact ⟨.inl rfl, fun _ => ⟨rfl, he⟩⟩

/-- As long as the connection is there, lines can be sent on it. -/
theorem open_turn (he : e.Open) (op : Operation)
    (hstate : (e.turn op).engine.state = .connected) : (e.turn op).engine.Open := by
  cases h : op.message? with
  | none => exact ((turn_of_no_message he h).2 hstate).2
  | some m =>
    obtain ⟨now, hturn⟩ := turn_of_message h e
    rw [hturn]
    exact (open_of_life (e.life_handleMessage m now)).mpr he

end Engine

/-! ### The course of a connection -/

/-- The line that a note says was queued. -/
def Entry.line? : Entry → Option String
  | .queued line => some line
  | _ => none

/-- A handler that never sends anything. -/
def Handler.Silent {σ : Type} (h : Handler σ) : Prop :=
  ∀ event context memory, ∃ memory', h.react event context memory = .done memory'

/-- The acts of operations that are carried out in order. -/
def Session.acts {σ : Type} (s : Session σ) : List Operation → List Act
  | [] => []
  | op :: ops => ⟨s.engine, op⟩ :: (s.operate op).acts ops

namespace Session

variable {σ : Type} {s : Session σ} {acts : List Act}

/-- The acts on a connection: the call that opens it, and every operation as long as it is
there, the one that ends it included. -/
inductive Connection : Session σ → List Act → Prop where
  | opened {s after : Session σ} {now : Instant} {progress : Progress}
      (h : s.call (.connectFinished now) = .ok (progress, after)) :
      Connection after [⟨s.engine, .call (.connectFinished now)⟩]
  | step {s : Session σ} {acts : List Act} (h : Connection s acts)
      (hstate : s.engine.state = .connected) (op : Operation) :
      Connection (s.operate op) (acts ++ [⟨s.engine, op⟩])

/-- Queueing lines touches neither the engine nor the handler. -/
theorem frame_queueLines (s : Session σ) (lines : List String) :
    (lines.foldl queueLine s).engine = s.engine ∧ (lines.foldl queueLine s).handler = s.handler := by
  induction lines generalizing s with
  | nil => exact ⟨rfl, rfl⟩
  | cons line lines ih => exact ih (s.queueLine line)

theorem frame_absorb (s : Session σ) (o : Output) :
    (s.absorb o).engine = s.engine ∧ (s.absorb o).handler = s.handler := by
  cases o with
  | report event tags seen => exact frame_queueLines _ _
  | line text => exact ⟨rfl, rfl⟩
  | dropLines => exact ⟨rfl, rfl⟩
  | effect effect => exact ⟨rfl, rfl⟩

/-- A turn that is taken in brings its engine, and the session keeps its handler. -/
theorem frame_perform (s : Session σ) (t : Turn) :
    (s.perform t).engine = t.engine ∧ (s.perform t).handler = s.handler := by
  have habsorb : ∀ (outputs : List Output) (s : Session σ),
      (outputs.foldl absorb s).engine = s.engine ∧
        (outputs.foldl absorb s).handler = s.handler := by
    intro outputs
    induction outputs with
    | nil => exact fun s => ⟨rfl, rfl⟩
    | cons o outputs ih =>
      intro s
      obtain ⟨hengine, hhandler⟩ := ih (s.absorb o)
      exact ⟨hengine.trans (frame_absorb s o).1, hhandler.trans (frame_absorb s o).2⟩
  exact habsorb t.outputs _

/-- An operation of the engine is its own turn, taken in. -/
theorem operate_eq_perform (s : Session σ) {op : Operation} (h : op.isTurn = true) :
    s.operate op = s.perform (s.engine.turn op) := by
  cases op with
  | call c =>
    rw [operate, attempt, Session.call, Engine.turn]
    cases s.engine.call c <;> rfl
  | line line now => rfl
  | message m now => rfl
  | undecodable cause => rfl
  | send r => exact absurd h (by simp [Operation.isTurn])
  | pollOutgoing => exact absurd h (by simp [Operation.isTurn])
  | pollEffect => exact absurd h (by simp [Operation.isTurn])

/-! ### What an act queues -/

/-- The lines that were ever queued, in order. -/
def queued (s : Session σ) : List String := (s.journal.filterMap Entry.line?).reverse

theorem queued_queueLine (s : Session σ) (line : String) :
    (s.queueLine line).queued = s.queued ++ [line] := by
  show (line :: s.journal.filterMap Entry.line?).reverse = _
  exact List.reverse_cons

theorem queued_absorb (hs : s.handler.Silent) (o : Output) :
    (s.absorb o).queued = s.queued ++ o.line?.toList := by
  cases o with
  | report event tags seen =>
    obtain ⟨memory, hdone⟩ := hs event ⟨s.id, seen, tags⟩ s.memory
    rw [absorb, callHandler, hdone]
    exact (List.append_nil _).symm
  | line text => exact s.queued_queueLine text
  | dropLines => exact (List.append_nil _).symm
  | effect effect => exact (List.append_nil _).symm

/-- Under a silent handler the lines of a turn are what is queued in it. -/
theorem queued_perform (hs : s.handler.Silent) (t : Turn) :
    (s.perform t).queued = s.queued ++ t.lines := by
  have habsorb : ∀ (outputs : List Output) (s : Session σ), s.handler.Silent →
      (outputs.foldl absorb s).queued = s.queued ++ outputs.filterMap Output.line? := by
    intro outputs
    induction outputs with
    | nil => exact fun s _ => (List.append_nil _).symm
    | cons o outputs ih =>
      intro s hs
      -- the handler is the same for the outputs that follow
      rw [List.foldl_cons, ih _ ((frame_absorb s o).2.symm ▸ hs), queued_absorb hs,
        List.append_assoc]
      cases hline : o.line? with
      | none => rw [List.filterMap_cons_none hline]; rfl
      | some line => rw [List.filterMap_cons_some hline]; rfl
  exact habsorb t.outputs _ hs

/-- **What an act queues.**  Under a silent handler the lines of an act are the lines that
the session queues in the operation, unless it is the caller who sends something. -/
theorem queued_operate (hs : s.handler.Silent) {op : Operation} (hop : ∀ r, op ≠ .send r) :
    (s.operate op).queued = s.queued ++ Act.lines ⟨s.engine, op⟩ := by
  cases op with
  | send r => exact absurd rfl (hop r)
  | pollOutgoing =>
    rw [operate, pollOutgoing]
    cases s.outbox <;> exact (List.append_nil _).symm
  | pollEffect =>
    rw [operate, pollEffect]
    cases s.effects <;> exact (List.append_nil _).symm
  | _ =>
    rw [s.operate_eq_perform rfl, queued_perform hs]
    rfl

/-! ### All along a connection -/

/-- An operation brings the engine of its own turn, and the session keeps its handler. -/
theorem frame_operate (s : Session σ) (op : Operation) :
    (s.operate op).engine = (s.engine.turn op).engine ∧ (s.operate op).handler = s.handler := by
  cases op with
  | send r =>
    rw [operate, send]
    cases s.engine.linesFor r with
    | error err => exact ⟨rfl, rfl⟩
    | ok lines => exact frame_queueLines s lines
  | pollOutgoing =>
    rw [operate, pollOutgoing]
    cases s.outbox <;> exact ⟨rfl, rfl⟩
  | pollEffect =>
    rw [operate, pollEffect]
    cases s.effects <;> exact ⟨rfl, rfl⟩
  | _ =>
    rw [s.operate_eq_perform rfl]
    exact frame_perform _ _

theorem engine_operate (s : Session σ) (op : Operation) :
    (s.operate op).engine = (s.engine.turn op).engine := (s.frame_operate op).1

/-- Act after act, the lines are what is queued as long as the caller sends nothing. -/
theorem queued_run (hs : s.handler.Silent) {ops : List Operation} (hops : ∀ r, .send r ∉ ops) :
    (s.run ops).queued = s.queued ++ (s.acts ops).flatMap Act.lines := by
  induction ops generalizing s with
  | nil => exact (List.append_nil _).symm
  | cons op ops ih =>
    have hop : ∀ r, op ≠ .send r := fun r heq => hops r (heq ▸ List.mem_cons_self)
    have hrest : ∀ r, .send r ∉ ops := fun r hmem => hops r (List.mem_cons_of_mem _ hmem)
    have hrun : (s.run (op :: ops)).queued = ((s.operate op).run ops).queued := rfl
    rw [hrun, ih ((s.frame_operate op).2.symm ▸ hs) hrest, queued_operate hs hop, Session.acts,
      List.flatMap_cons, List.append_assoc]

/-- The call that opens a connection, and what it opens. -/
theorem engine_of_opened {after : Session σ} {now : Instant} {progress : Progress}
    (h : s.call (.connectFinished now) = .ok (progress, after)) :
    after.engine = s.engine.opened now ∧
      s.engine.turn (.call (.connectFinished now)) =
        ⟨s.engine.opened now, s.engine.openingOutputs now⟩ := by
  rw [Session.call] at h
  split at h
  · exact absurd h (by simp)
  rename_i answer hanswer
  obtain ⟨-, -, rfl⟩ := Engine.connectFinished_eq_ok_iff.mp hanswer
  obtain ⟨-, rfl⟩ := Prod.mk.inj (Except.ok.inj h)
  refine ⟨(frame_perform _ _).1, ?_⟩
  rw [Engine.turn, hanswer]

/-- What the engine says when a connection opens. -/
theorem lines_of_opened {after : Session σ} {now : Instant} {progress : Progress}
    (h : s.call (.connectFinished now) = .ok (progress, after)) :
    Act.lines ⟨s.engine, .call (.connectFinished now)⟩ =
      s.engine.config.registration.flatMap Request.lines := by
  rw [Act.lines, Act.turn, (engine_of_opened h).2, Engine.lines_openingOutputs]

namespace Connection

/-- While the connection is there, lines can be sent on it. -/
theorem open_of_connected (h : s.Connection acts) (hstate : s.engine.state = .connected) :
    s.engine.Open := by
  induction h with
  | opened h =>
    rw [(engine_of_opened h).1]
    exact ⟨rfl, rfl⟩
  | step h hbefore op ih =>
    rw [engine_operate] at hstate ⊢
    exact Engine.open_turn (ih hbefore) op hstate

/-- The configuration is the same all along. -/
theorem config_eq (h : s.Connection acts) : ∀ a ∈ acts, a.engine.config = s.engine.config := by
  induction h with
  | opened h =>
    intro a ha
    rw [List.mem_singleton.mp ha, (engine_of_opened h).1]
    rfl
  | step h hstate op ih =>
    intro a ha
    rw [engine_operate, Engine.config_turn]
    rcases List.mem_append.mp ha with ha | ha
    · exact ih a ha
    · rw [List.mem_singleton.mp ha]

end Connection

/-- A connection goes on with operations for as long as it is there. -/
theorem Connection.run (h : s.Connection acts) {ops : List Operation}
    (hstate : ∀ a ∈ s.acts ops, a.engine.state = .connected) :
    (s.run ops).Connection (acts ++ s.acts ops) := by
  induction ops generalizing s acts with
  | nil => simpa [Session.acts, Session.run] using h
  | cons op ops ih =>
    rw [Session.acts, List.forall_mem_cons] at hstate
    rw [Session.acts, List.append_cons]
    exact ih (h.step hstate.1 op) hstate.2

/-- A session that is connecting gets its connection when the caller says so. -/
theorem call_of_connecting (hstate : s.engine.state = .connecting)
    (hfreed : s.engine.freed = false) (now : Instant) :
    s.call (.connectFinished now) =
      .ok (.ongoing, s.perform ⟨s.engine.opened now, s.engine.openingOutputs now⟩) := by
  rw [Session.call, Engine.call, Engine.connectFinished_eq_ok_iff.mpr ⟨hfreed, hstate, rfl⟩]

theorem connection_of_connecting (hstate : s.engine.state = .connecting)
    (hfreed : s.engine.freed = false) (now : Instant) :
    (s.operate (.call (.connectFinished now))).Connection
      (s.acts [.call (.connectFinished now)]) := by
  have hcall := call_of_connecting hstate hfreed now
  rw [operate, attempt, hcall]
  exact .opened hcall

/-- A session that gets its connection and then goes through operations on it, and nobody but
the engine has something to say. -/
structure Unprompted (s : Session σ) (now : Instant) (ops : List Operation) : Prop where
  connecting : s.engine.state = .connecting
  unfreed : s.engine.freed = false
  connected : ∀ a ∈ (s.operate (.call (.connectFinished now))).acts ops,
    a.engine.state = .connected
  silent : s.handler.Silent
  unsent : ∀ r, .send r ∉ ops

/-- **What is queued on a connection.**  If nobody else has something to say, the lines of its
acts are all that is queued from the call that opens it on. -/
theorem Unprompted.connection {now : Instant} {ops : List Operation}
    (h : s.Unprompted now ops) :
    (s.run (.call (.connectFinished now) :: ops)).Connection
        (s.acts (.call (.connectFinished now) :: ops)) ∧
      (s.run (.call (.connectFinished now) :: ops)).queued =
        s.queued ++ (s.acts (.call (.connectFinished now) :: ops)).flatMap Act.lines := by
  refine ⟨(connection_of_connecting h.connecting h.unfreed now).run h.connected,
    queued_run h.silent fun r hmem => ?_⟩
  rcases List.mem_cons.mp hmem with heq | hmem
  · exact absurd heq (by simp)
  · exact h.unsent r hmem

/-- A client that has dialled a server. -/
def dialing (config : Config) : Session Unit :=
  (start ⟨1⟩ config ⟨0⟩ .idle ()).attempt .connect

/-- The connection that the client gets, as long as it is there. -/
theorem connection_dialing (config : Config) (ops : List Operation)
    (hstate : ∀ a ∈ ((dialing config).operate (.call (.connectFinished ⟨0⟩))).acts ops,
      a.engine.state = .connected) :
    ((dialing config).run (.call (.connectFinished ⟨0⟩) :: ops)).Connection
      ((dialing config).acts (.call (.connectFinished ⟨0⟩) :: ops)) :=
  (connection_of_connecting rfl rfl ⟨0⟩).run hstate

end Session

end Irc
