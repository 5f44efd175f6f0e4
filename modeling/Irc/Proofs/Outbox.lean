/-
The outbox of a session.

Nobody can bring a line of his own into the outbox.  Whatever is configured, received,
called or answered, every line that is queued is one that some request comes to, and
these have the form that one command takes on the wire.

* **`Requested.wireLine`** — the lines of requests are lines of one command;
* **`Reaction.requested_settle`** — a handler puts out such lines only;
* **`Accounted.operate`** — an operation queues such lines only;
* **`wireLine_of_run`** — so does every run of operations.
-/
import Irc.Proofs.ReadBack
import Irc.Proofs.Responses
import Irc.Session.Basic

namespace Irc

open Outgoing Message

/-! ### Lines on the wire -/

/-- A line of one command: a command word, then the end or a space with parameters
behind it, no line end inside, and short enough. -/
def WireLine (line : String) : Prop :=
  line.utf8ByteSize ≤ Limits.line ∧ ∃ word args : List Char,
    line.toList = word ++ args ++ ['\r', '\n'] ∧ word ≠ [] ∧
      (∀ c ∈ word, c.isAlphanum = true) ∧ (args = [] ∨ args.head? = some ' ') ∧
        ∀ c ∈ word ++ args, Unbroken c

/-- The lines of a request are lines of one command. -/
theorem Outgoing.Requested.wireLine {line : String} (h : Requested line) : WireLine line := by
  obtain ⟨r, c, lines, -, hlines, hline⟩ := h
  obtain ⟨carried, hbuilt, rfl⟩ := c.built_of_lines hlines
  obtain ⟨piece, hpiece, rfl⟩ := List.mem_map.mp hline
  have hrender := toList_render_lineMessage c.verb c.middles piece
  obtain ⟨hne, hword⟩ := isCommandWord_iff.mp hbuilt.word
  refine ⟨(hbuilt.utf8ByteSize_lineText_le hpiece).trans (by decide), c.verb.toList,
    renderArgs c.middles piece, ?_, hne, hword, renderArgs_eq_nil_or c.middles piece, ?_⟩
  · have hend : ("\r\n" : String).toList = ['\r', '\n'] := by decide
    rw [lineText_eq_render, String.toList_append, hrender, hend]
  · rw [← hrender]
    exact hbuilt.unbroken_render hpiece

/-! ### Handlers -/

/-- A handler puts out lines of requests. -/
theorem Reaction.requested_settle {σ : Type} (e : Engine) (reaction : Reaction σ) :
    ∀ line ∈ (reaction.settle e).lines, Requested line := by
  induction reaction with
  | done memory => exact fun line hline => absurd hline List.not_mem_nil
  | send request next ih =>
    rw [settle]
    split
    · exact ih _
    · rename_i lines hlines
      intro line hline
      rcases List.mem_append.mp hline with hline | hline
      · exact Engine.requested_of_linesFor hlines line hline
      · exact ih _ line hline

/-! ### Sessions -/

namespace Session

variable {σ : Type} {s : Session σ}

/-- The lines in the outbox were queued, and requests come to all that was queued. -/
structure Accounted (s : Session σ) : Prop where
  outbox : ∀ line ∈ s.outbox, .queued line ∈ s.journal
  queued : ∀ line, .queued line ∈ s.journal → Requested line

theorem Accounted.queueLine (h : s.Accounted) {line : String} (hline : Requested line) :
    (s.queueLine line).Accounted where
  outbox := by
    intro other hother
    rcases List.mem_append.mp hother with hother | hother
    · exact List.mem_cons_of_mem _ (h.outbox other hother)
    · rw [List.mem_singleton.mp hother]
      exact List.mem_cons_self
  queued := by
    intro other hother
    rcases List.mem_cons.mp hother with heq | hother
    · rwa [Entry.queued.inj heq]
    · exact h.queued other hother

theorem Accounted.queueLines (h : s.Accounted) {lines : List String}
    (hlines : ∀ line ∈ lines, Requested line) :
    (lines.foldl Session.queueLine s).Accounted := by
  induction lines generalizing s with
  | nil => exact h
  | cons line lines ih =>
    rw [List.forall_mem_cons] at hlines
    exact ih (h.queueLine hlines.1) hlines.2

/-- A note of anything but a line changes nothing about the lines. -/
theorem Accounted.note (h : s.Accounted) {entry : Entry} (hentry : ∀ line, entry ≠ .queued line)
    (memory : σ) (effects : List Effect) :
    Accounted { s with memory := memory, effects := effects, journal := entry :: s.journal } where
  outbox := fun line hline => List.mem_cons_of_mem _ (h.outbox line hline)
  queued := by
    intro line hline
    rcases List.mem_cons.mp hline with heq | hline
    · exact absurd heq.symm (hentry line)
    · exact h.queued line hline

theorem Accounted.callHandler (h : s.Accounted) (event : Event) (tags : List Tag) (seen : Engine) :
    (s.callHandler event tags seen).Accounted :=
  (h.note (fun line => by simp) _ s.effects).queueLines (Reaction.requested_settle seen _)

theorem Accounted.absorb (h : s.Accounted) {o : Output} (ho : o.Requested) :
    (s.absorb o).Accounted := by
  cases o with
  | line text => exact h.queueLine ho
  | dropLines => exact ⟨fun line hline => absurd hline List.not_mem_nil, h.queued⟩
  | effect effect => exact h.note (fun line => by simp) s.memory _
  | report event tags seen => exact h.callHandler event tags seen

theorem Accounted.absorbAll (h : s.Accounted) {outputs : List Output}
    (houtputs : ∀ o ∈ outputs, o.Requested) : (outputs.foldl Session.absorb s).Accounted := by
  induction outputs generalizing s with
  | nil => exact h
  | cons o outputs ih =>
    rw [List.forall_mem_cons] at houtputs
    exact ih (h.absorb houtputs.1) houtputs.2

theorem Accounted.perform (h : s.Accounted) {t : Turn} (ht : t.Puts Output.Requested) :
    (s.perform t).Accounted :=
  Accounted.absorbAll (s := { s with engine := t.engine }) ⟨h.outbox, h.queued⟩ ht

theorem Accounted.attempt (h : s.Accounted) (c : LifecycleCall) : (s.attempt c).Accounted := by
  rw [Session.attempt, Session.call]
  cases hcall : s.engine.call c with
  | error refusal => exact h
  | ok answer => exact h.perform (Engine.puts_call hcall)

theorem Accounted.handleLine (h : s.Accounted) (line : String) (now : Instant) :
    (s.handleLine line now).Accounted :=
  h.perform ((s.engine.puts_handleLine line now).mono fun _ => Output.Answering.requested)

/-- An operation queues lines of requests. -/
theorem Accounted.operate (h : s.Accounted) (op : Operation) : (s.operate op).Accounted := by
  cases op with
  | call c => exact h.attempt c
  | line line now => exact h.handleLine line now
  | message m now =>
    exact h.perform ((s.engine.puts_handleMessage m now).mono fun _ => Output.Answering.requested)
  | undecodable cause =>
    exact h.perform ((s.engine.puts_reportUndecodable cause).mono fun _ =>
      Output.Answering.requested)
  | send r =>
    rw [Session.operate, Session.send]
    cases hlines : s.engine.linesFor r with
    | error err => exact h
    | ok lines => exact h.queueLines (Engine.requested_of_linesFor hlines)
  | pollOutgoing =>
    rw [Session.operate, Session.pollOutgoing]
    cases houtbox : s.outbox with
    | nil => exact h
    | cons line rest =>
      refine ⟨fun other hother => h.outbox other ?_, h.queued⟩
      rw [houtbox]
      exact List.mem_cons_of_mem line hother
  | pollEffect =>
    rw [Session.operate, Session.pollEffect]
    cases s.effects with
    | nil => exact h
    | cons effect rest => exact ⟨h.outbox, h.queued⟩

theorem Accounted.run (h : s.Accounted) (ops : List Operation) : (s.run ops).Accounted := by
  induction ops generalizing s with
  | nil => exact h
  | cons op ops ih => exact ih (h.operate op)

theorem accounted_start (id : SessionId) (config : Config) (now : Instant) (handler : Handler σ)
    (memory : σ) : (start id config now handler memory).Accounted where
  outbox := fun _ hline => absurd hline List.not_mem_nil
  queued := fun _ hline => absurd hline List.not_mem_nil

/-- **Nobody can bring in a line.**  In every run of a session, whatever its
configuration, its handler and the operations, the lines in the outbox were queued, and
every line that was ever queued is the line of one command. -/
theorem wireLine_of_run (id : SessionId) (config : Config) (now : Instant) (handler : Handler σ)
    (memory : σ) (ops : List Operation) :
    (∀ line ∈ ((start id config now handler memory).run ops).outbox,
        .queued line ∈ ((start id config now handler memory).run ops).journal) ∧
      ∀ line, .queued line ∈ ((start id config now handler memory).run ops).journal →
        WireLine line := by
  have h := (accounted_start id config now handler memory).run ops
  exact ⟨h.outbox, fun line hline => (h.queued line hline).wireLine⟩

example : ((start ⟨1⟩ (Config.forServer "host" 6667 "me") ⟨0⟩ Handler.idle ()).run
    [.call .connect, .call (.connectFinished ⟨0⟩),
      .message { command := "PING", trailing := some "a\r\nQUIT" } ⟨0⟩,
      .line "PING a :b c\r\n" ⟨0⟩]).outbox =
        ["CAP LS 302\r\n", "NICK me\r\n", "USER me 0 * :me\r\n", "PONG :b c\r\n"] := by
  decide +kernel

end Session

end Irc
