/-
What a session takes in with a turn.

The orders and events of a turn are taken in as they are.  The lines are not, because the
handler answers events with lines of its own; but what is queued goes to the end of the outbox
line by line, and without a connection nothing is queued at all.

* **`Session.noted_perform`** — what the journal says afterwards;
* **`Session.effects_perform`**, **`Session.orders_perform`**, **`Session.events_perform`** — the
  orders and the events;
* **`Session.lines_perform`**, **`Session.outbox_perform`** — the lines, as long as none is
  dropped;
* **`Session.mute_perform`** — no lines, when the turn is mute;
* **`Session.perform_opening`** — what a connection that opens comes to;
* **`Session.lines_opening`** — its lines.
-/
import Irc.Proofs.Phases

namespace Irc

open Outgoing

/-- The event that a note says was reported. -/
def Entry.event? : Entry → Option Event
  | .reported event _ _ => some event
  | _ => none

/-- The order that a note says was queued. -/
def Entry.effect? : Entry → Option Effect
  | .ordered order => some order
  | _ => none

/-- What is read off a note of the journal is what the output that it notes was put out with;
notes of lines do not count. -/
structure Entry.Reads {α : Type} (read : Entry → Option α) (put : Output → Option α) : Prop where
  queued (line : String) : read (.queued line) = none
  ordered (order : Effect) : read (.ordered order) = put (.effect order)
  reported (event : Event) (context : Context) (results : List (Except SendError Unit)) :
    read (.reported event context results) = put (.report event context.tags context.engine)
  line (text : String) : put (.line text) = none
  dropLines : put .dropLines = none

theorem Entry.reads_event : Entry.Reads Entry.event? Output.event? :=
  ⟨fun _ => rfl, fun _ => rfl, fun _ _ _ => rfl, fun _ => rfl, rfl⟩

theorem Entry.reads_effect : Entry.Reads Entry.effect? Output.effect? :=
  ⟨fun _ => rfl, fun _ => rfl, fun _ _ _ => rfl, fun _ => rfl, rfl⟩

theorem Engine.open_of_linesFor {e : Engine} {r : Request} {lines : List String}
    (h : e.linesFor r = .ok lines) : e.Open := by
  rw [linesFor] at h
  split at h
  · exact absurd h (by simp)
  split_ifs at h with hfreed hstate
  exact ⟨Decidable.of_not_not hstate, Bool.eq_false_iff.mpr hfreed⟩

theorem Engine.not_open_of_freed {e : Engine} (hfreed : e.freed = true) : ¬ e.Open :=
  fun h => Bool.false_ne_true (h.2.symm.trans hfreed)

/-- Without a connection a handler puts out no lines. -/
theorem Reaction.lines_settle_of_not_open {σ : Type} {e : Engine} (he : ¬ e.Open)
    (reaction : Reaction σ) : (reaction.settle e).lines = [] := by
  induction reaction with
  | done memory => rfl
  | send request next ih =>
    rw [settle]
    cases hlines : e.linesFor request with
    | error err => exact ih (.error err)
    | ok lines => exact absurd (Engine.open_of_linesFor hlines) he

namespace Session

variable {σ α : Type} {s : Session σ} {t : Turn} {read : Entry → Option α}
  {put : Output → Option α}

/-! ### Queueing lines -/

theorem queueLines_eq (s : Session σ) (lines : List String) :
    lines.foldl queueLine s =
      { s with
        outbox := s.outbox ++ lines
        journal := (lines.map Entry.queued).reverse ++ s.journal } := by
  induction lines generalizing s with
  | nil => simp
  | cons line lines ih =>
    rw [List.foldl_cons, ih]
    simp [queueLine]

theorem queued_queueLines (s : Session σ) (lines : List String) :
    (lines.foldl queueLine s).queued = s.queued ++ lines := by
  have hlines : (lines.map Entry.queued).filterMap Entry.line? = lines := by
    rw [List.filterMap_map]
    exact List.filterMap_some
  rw [queueLines_eq, queued, queued, List.filterMap_append, List.reverse_append,
    List.filterMap_reverse, List.reverse_reverse, hlines]

theorem noted_queueLines (h : Entry.Reads read put) (s : Session σ) (lines : List String) :
    (lines.foldl queueLine s).journal.filterMap read = s.journal.filterMap read := by
  have hlines : (lines.map Entry.queued).filterMap read = [] := by
    rw [List.filterMap_map, List.filterMap_eq_nil_iff]
    exact fun line _ => h.queued line
  rw [queueLines_eq, List.filterMap_append, List.filterMap_reverse, hlines, List.reverse_nil,
    List.nil_append]

/-! ### One output -/

theorem effects_absorb (s : Session σ) (o : Output) :
    (s.absorb o).effects = s.effects ++ o.effect?.toList := by
  cases o with
  | report event tags seen =>
    rw [absorb, callHandler, queueLines_eq]
    exact (List.append_nil _).symm
  | line text => exact (List.append_nil _).symm
  | dropLines => exact (List.append_nil _).symm
  | effect effect => rfl

theorem noted_absorb (h : Entry.Reads read put) (s : Session σ) (o : Output) :
    (s.absorb o).journal.filterMap read = (put o).toList ++ s.journal.filterMap read := by
  cases o with
  | report event tags seen =>
    rw [absorb, callHandler, noted_queueLines h, List.filterMap_cons, h.reported]
    cases put (.report event tags seen) <;> rfl
  | line text =>
    rw [absorb, queueLine, List.filterMap_cons_none (h.queued text), h.line]
    rfl
  | dropLines =>
    rw [absorb, h.dropLines]
    rfl
  | effect effect =>
    rw [absorb, queueEffect, List.filterMap_cons, h.ordered]
    cases put (.effect effect) <;> rfl

theorem lines_absorb (s : Session σ) {o : Output} (ho : o ≠ .dropLines) :
    ∃ lines, (s.absorb o).queued = s.queued ++ lines ∧
      (s.absorb o).outbox = s.outbox ++ lines := by
  cases o with
  | report event tags seen =>
    refine ⟨((s.handler.react event ⟨s.id, seen, tags⟩ s.memory).settle seen).lines, ?_, ?_⟩
    · rw [absorb, callHandler, queued_queueLines]
      rfl
    · rw [absorb, callHandler, queueLines_eq]
  | line text => exact ⟨[text], s.queued_queueLine text, rfl⟩
  | dropLines => exact absurd rfl ho
  | effect effect => exact ⟨[], (List.append_nil _).symm, (List.append_nil _).symm⟩

theorem mute_absorb (s : Session σ) {o : Output} (ho : o.Mute) :
    (s.absorb o).queued = s.queued ∧
      (s.absorb o).outbox = if o = .dropLines then [] else s.outbox := by
  cases o with
  | report event tags seen =>
    have hlines := Reaction.lines_settle_of_not_open ho
      (s.handler.react event ⟨s.id, seen, tags⟩ s.memory)
    rw [absorb, callHandler, hlines]
    exact ⟨rfl, (if_neg (by simp)).symm⟩
  | line text => exact ho.elim
  | dropLines => exact ⟨rfl, (if_pos rfl).symm⟩
  | effect effect => exact ⟨rfl, (if_neg (by simp)).symm⟩

/-! ### All outputs -/

theorem effects_absorbAll (outputs : List Output) (s : Session σ) :
    (outputs.foldl absorb s).effects = s.effects ++ outputs.filterMap Output.effect? := by
  induction outputs generalizing s with
  | nil => exact (List.append_nil _).symm
  | cons o outputs ih =>
    rw [List.foldl_cons, ih, effects_absorb, List.append_assoc]
    cases h : o.effect? <;> simp [h]

/-- The orders of a turn are queued in order. -/
theorem effects_perform (s : Session σ) (t : Turn) :
    (s.perform t).effects = s.effects ++ t.effects :=
  effects_absorbAll t.outputs { s with engine := t.engine }

/-- What is read off the journal afterwards is what was put out, the latest first, and what could
be read off it before. -/
theorem noted_perform (h : Entry.Reads read put) (s : Session σ) (t : Turn) :
    (s.perform t).journal.filterMap read =
      (t.outputs.filterMap put).reverse ++ s.journal.filterMap read := by
  have habsorb : ∀ (outputs : List Output) (s : Session σ),
      (outputs.foldl absorb s).journal.filterMap read =
        (outputs.filterMap put).reverse ++ s.journal.filterMap read := by
    intro outputs
    induction outputs with
    | nil => exact fun s => rfl
    | cons o outputs ih =>
      intro s
      rw [List.foldl_cons, ih, noted_absorb h]
      cases hput : put o <;> simp [hput]
  exact habsorb t.outputs _

/-- The events of a turn are reported in order; the journal has the latest first. -/
theorem events_perform (s : Session σ) (t : Turn) :
    (s.perform t).journal.filterMap Entry.event? =
      t.events.reverse ++ s.journal.filterMap Entry.event? :=
  noted_perform Entry.reads_event s t

/-- The orders that were ever queued, in order. -/
def orders (s : Session σ) : List Effect := (s.journal.filterMap Entry.effect?).reverse

/-- The orders of a turn are noted in order. -/
theorem orders_perform (s : Session σ) (t : Turn) :
    (s.perform t).orders = s.orders ++ t.effects := by
  rw [orders, noted_perform Entry.reads_effect, List.reverse_append, List.reverse_reverse]
  rfl

theorem lines_absorbAll (outputs : List Output) (s : Session σ)
    (houtputs : Output.dropLines ∉ outputs) :
    ∃ lines, (outputs.foldl absorb s).queued = s.queued ++ lines ∧
      (outputs.foldl absorb s).outbox = s.outbox ++ lines := by
  induction outputs generalizing s with
  | nil => exact ⟨[], (List.append_nil _).symm, (List.append_nil _).symm⟩
  | cons o outputs ih =>
    rw [List.mem_cons, not_or] at houtputs
    obtain ⟨first, hqueued₁, houtbox₁⟩ := s.lines_absorb (Ne.symm houtputs.1)
    obtain ⟨others, hqueued₂, houtbox₂⟩ := ih (s.absorb o) houtputs.2
    refine ⟨first ++ others, ?_, ?_⟩
    · rw [List.foldl_cons, hqueued₂, hqueued₁, List.append_assoc]
    · rw [List.foldl_cons, houtbox₂, houtbox₁, List.append_assoc]

/-- As long as no line is dropped, what is queued is behind in the outbox. -/
theorem lines_perform (s : Session σ) (ht : Output.dropLines ∉ t.outputs) :
    ∃ lines, (s.perform t).queued = s.queued ++ lines ∧
      (s.perform t).outbox = s.outbox ++ lines :=
  lines_absorbAll t.outputs { s with engine := t.engine } ht

/-- Under a silent handler a turn that drops nothing adds its own lines to the outbox. -/
theorem outbox_perform (hs : s.handler.Silent) (ht : Output.dropLines ∉ t.outputs) :
    (s.perform t).outbox = s.outbox ++ t.lines := by
  obtain ⟨lines, hqueued, houtbox⟩ := s.lines_perform ht
  rw [queued_perform hs] at hqueued
  rw [houtbox, List.append_cancel_left hqueued]

theorem mute_absorbAll (outputs : List Output) (s : Session σ)
    (houtputs : ∀ o ∈ outputs, o.Mute) :
    (outputs.foldl absorb s).queued = s.queued ∧
      (outputs.foldl absorb s).outbox = if .dropLines ∈ outputs then [] else s.outbox := by
  induction outputs generalizing s with
  | nil => exact ⟨rfl, rfl⟩
  | cons o outputs ih =>
    rw [List.forall_mem_cons] at houtputs
    obtain ⟨hqueued₁, houtbox₁⟩ := s.mute_absorb houtputs.1
    obtain ⟨hqueued₂, houtbox₂⟩ := ih (s.absorb o) houtputs.2
    refine ⟨hqueued₂.trans hqueued₁, ?_⟩
    rw [List.foldl_cons, houtbox₂, houtbox₁]
    by_cases hlater : .dropLines ∈ outputs
    · rw [if_pos hlater, if_pos (List.mem_cons_of_mem o hlater)]
    · rw [if_neg hlater]
      simp only [List.mem_cons, hlater, or_false, eq_comm]

/-- A mute turn queues nothing. -/
theorem mute_perform (s : Session σ) (ht : t.Puts Output.Mute) :
    (s.perform t).queued = s.queued ∧
      (s.perform t).outbox = if .dropLines ∈ t.outputs then [] else s.outbox :=
  mute_absorbAll t.outputs { s with engine := t.engine } ht

/-- Lines of the engine go to the end of the outbox as they are. -/
theorem perform_lines (s : Session σ) (e : Engine) (lines : List String) (rest : List Output) :
    s.perform ⟨e, lines.map .line ++ rest⟩ =
      rest.foldl absorb (lines.foldl queueLine { s with engine := e }) := by
  rw [perform, List.foldl_append, List.foldl_map]
  rfl

/-! ### A connection that opens -/

/-- The session without what is left of its last connection. -/
def cleared (s : Session σ) (e : Engine) : Session σ :=
  let emptied := { s with engine := e, outbox := [] }.queueEffect .resetBackoff
  if s.engine.link.keepalive.isSome then emptied.queueEffect .stopKeepalive else emptied

@[simp]
theorem outbox_cleared (s : Session σ) (e : Engine) : (s.cleared e).outbox = [] := by
  rw [cleared]
  split_ifs <;> rfl

@[simp]
theorem queued_cleared (s : Session σ) (e : Engine) : (s.cleared e).queued = s.queued := by
  rw [cleared]
  split_ifs <;> rfl

@[simp]
theorem handler_cleared (s : Session σ) (e : Engine) : (s.cleared e).handler = s.handler := by
  rw [cleared]
  split_ifs <;> rfl

@[simp]
theorem memory_cleared (s : Session σ) (e : Engine) : (s.cleared e).memory = s.memory := by
  rw [cleared]
  split_ifs <;> rfl

/-- When a connection opens, the lines to register with are queued in an empty outbox; then the
handler hears of it. -/
theorem perform_opening (s : Session σ) (e : Engine) (now : Instant) :
    s.perform ⟨e, s.engine.openingOutputs now⟩ =
      ((s.engine.config.registration.flatMap Request.lines).foldl queueLine
        (s.cleared e)).callHandler .connected [] (s.engine.opened now) := by
  rw [perform, Engine.openingOutputs, List.foldl_append, List.foldl_append, List.foldl_map, cleared]
  split_ifs <;> rfl

/-- When a connection opens, the outbox holds what is queued from then on. -/
theorem lines_opening (s : Session σ) (e : Engine) (now : Instant) :
    ∃ lines, (s.perform ⟨e, s.engine.openingOutputs now⟩).queued = s.queued ++ lines ∧
      (s.perform ⟨e, s.engine.openingOutputs now⟩).outbox = lines := by
  obtain ⟨replies, hqueued, houtbox⟩ := lines_absorb
    ((s.engine.config.registration.flatMap Request.lines).foldl queueLine (s.cleared e))
    (o := .report .connected [] (s.engine.opened now)) (by simp)
  rw [perform_opening]
  refine ⟨s.engine.config.registration.flatMap Request.lines ++ replies, hqueued.trans ?_,
    houtbox.trans ?_⟩
  · rw [queued_queueLines, queued_cleared, List.append_assoc]
  · rw [queueLines_eq, outbox_cleared, List.nil_append]

/-! ### Sending -/

/-- Sending is the engine's own queueing of a request. -/
theorem operate_send (s : Session σ) (r : Request) :
    s.operate (.send r) = s.perform (s.engine.queue r) := by
  rw [operate, send, perform, Engine.queue]
  cases s.engine.linesFor r with
  | error err => rfl
  | ok lines =>
    show lines.foldl queueLine s = (lines.map Output.line).foldl absorb s
    rw [List.foldl_map]
    rfl

end Session

end Irc
