/-
The end of a session.

A session ends with the answer `Progress.freed` to a call, and stays as that call has left it:
disconnected, with nothing to send and nothing sent any more.  Input is still handled, and the
handler may still be told of it, but it gets nothing out.

* **`Engine.ends_of_freed`** — what a call comes to that ends the session;
* **`Engine.Response.futile`** — what handling comes to once it is over;
* **`Session.Over.operate`** — no operation brings the session back;
* **`Session.freed_for_good`** — so nothing does.
-/
import Irc.Proofs.Answers
import Irc.Proofs.Intake

namespace Irc

open Outgoing Lifecycle

/-- What is put out once the session is over. -/
def Output.Futile : Output → Prop
  | .line _ | .dropLines => False
  | .effect order => ∃ period, order = .startKeepalive period
  | .report _ _ seen => seen.freed = true

/-- What a request comes to once the session is over: it is turned down, for that reason or for
one of its own. -/
def Declined (result : Except SendError Unit) : Prop :=
  result = .error .sessionFreed ∨
    ∃ (r : Request) (err : RequestError), r.command = .error err ∧ result = .error (.request err)

/-- What is noted once the session is over: no line, and no request of the handler that went
out. -/
def Entry.Futile : Entry → Prop
  | .queued _ => False
  | .ordered order => ∃ period, order = .startKeepalive period
  | .reported _ _ results => ∀ result ∈ results, Declined result

namespace Engine

variable {e : Engine} {t : Turn} {c : LifecycleCall} {a : Answer}

/-- Once the session is over, a request that is good in itself is turned down for that. -/
theorem linesFor_of_freed (hfreed : e.freed = true) {r : Request} {command : Command}
    (hr : r.command = .ok command) : e.linesFor r = .error .sessionFreed := by
  rw [linesFor, hr, hfreed]
  rfl

/-! ### The last call -/

theorem dropLines_mem_taken {action : Action} {row : Transition} (hfreed : row.freed = true) :
    .dropLines ∈ (e.taken action row).turn.outputs := by
  show _ ∈ _ ++ if row.freed then _ else _
  rw [if_pos hfreed]
  exact List.mem_append_right _ List.mem_cons_self

/-- Nothing is said after an action that ends the session. -/
theorem mute_afterword {b : Answer} (hprogress : b.progress = .freed)
    (hc : c.action? ≠ some .connectFinish) (e' : Engine) :
    (e.afterword b c e').Puts Output.Mute := by
  cases c with
  | connectFinished now => exact absurd rfl hc
  | connectFailed reason =>
    rw [afterword, hprogress]
    exact e'.puts_stay
  | disconnected reason =>
    rw [afterword, hprogress]
    exact e'.mute_resetLink
  | _ => exact e'.puts_stay

/-- A call that ends the session drops what was not sent, and puts out nothing more. -/
theorem ends_of_freed (h : e.call c = .ok a) (hprogress : a.progress = .freed) :
    a.turn.engine.freed = true ∧ a.turn.engine.state = .disconnected ∧
      a.turn.Puts Output.Mute ∧ .dropLines ∈ a.turn.outputs := by
  rcases call_cases h with ⟨action, row, hc, hrow, rfl⟩ | ⟨row, -, hrow, rfl⟩ | ⟨-, hongoing, -⟩
  · have htaken : (e.taken action row).progress = .freed := hprogress
    have hends : row.freed = true := (e.progress_taken action row).mp htaken
    obtain ⟨hnext, hstate, hfinish, -⟩ := row_of_freed hrow hends
    have hstanding := e.standing_answer c (e.taken action row)
    -- a farewell is said on a connection only, and no action there ends the session
    have hfore : e.foreword c = e.stay := by
      cases c with
      | quit reason => exact if_neg hstate
      | _ => rfl
    refine ⟨?_, ?_, ?_, ?_⟩
    · exact (congrArg (fun s => s.2.2.2) hstanding).trans hends
    · exact (congrArg Prod.fst hstanding).trans hnext
    · rw [e.answer_eq c _ hfore]
      refine (Turn.puts_andThen _ _).mpr ⟨e.mute_taken action row, mute_afterword htaken ?_ _⟩
      rw [hc]
      exact fun h => hfinish (Option.some_inj.mp h)
    · rw [e.answer_eq c _ hfore]
      exact List.mem_append_left _ (dropLines_mem_taken hends)
  · -- a session does not end when keepalive gives the server up
    have hends : row.freed = true := (e.progress_taken _ row).mp hprogress
    exact absurd rfl (row_of_freed hrow hends).2.2.2
  · exact absurd (hongoing.symm.trans hprogress) (by decide)

/-! ### Afterwards -/

theorem freed_of_life {e' : Engine} (h : e'.life = e.life) : e'.freed = e.freed :=
  congrArg Life.freed h

/-- Handling is futile once the session is over. -/
theorem Response.futile (h : Response e t) (hfreed : e.freed = true) : t.Puts Output.Futile := by
  induction h with
  | stay e => exact e.puts_stay
  | queue e r =>
    rw [queue_of_not_open (not_open_of_freed hfreed)]
    exact e.puts_stay
  | report e tags h => exact (e.puts_report _ tags).mpr hfreed
  | learn e change h => exact e.puts_stay
  | rename e nickname attempt => exact e.puts_stay
  | welcome e nickname now period =>
    exact (Turn.puts_order _ _).mpr ⟨(Turn.puts_update _ _).mpr e.puts_stay, period, rfl⟩
  | andThen first second ih₁ ih₂ =>
    exact (Turn.puts_andThen _ _).mpr ⟨ih₁ hfreed, ih₂ ((freed_of_life first.life).trans hfreed)⟩

end Engine

theorem Reaction.declined_settle {σ : Type} {e : Engine} (hfreed : e.freed = true)
    (reaction : Reaction σ) : ∀ result ∈ (reaction.settle e).results, Declined result := by
  induction reaction with
  | done memory => exact fun _ h => absurd h List.not_mem_nil
  | send request next ih =>
    rw [settle]
    cases hcommand : request.command with
    | error err =>
      have hlines : e.linesFor request = .error (.request err) := by rw [Engine.linesFor, hcommand]
      rw [hlines]
      exact List.forall_mem_cons.mpr ⟨.inr ⟨request, err, hcommand, rfl⟩, ih _⟩
    | ok command =>
      rw [Engine.linesFor_of_freed hfreed hcommand]
      exact List.forall_mem_cons.mpr ⟨.inl rfl, ih _⟩

namespace Session

variable {σ : Type} {s after : Session σ} {c : LifecycleCall}

/-- The session is over. -/
structure Over (s : Session σ) : Prop where
  freed : s.engine.freed = true
  state : s.engine.state = .disconnected
  outbox : s.outbox = []

/-- A call that is answered so ends the session. -/
theorem over_of_freed (h : s.call c = .ok (.freed, after)) : after.Over := by
  obtain ⟨answer, hanswer, hprogress, rfl⟩ := answer_of_call h
  obtain ⟨hfreed, hstate, hmute, hdropped⟩ := Engine.ends_of_freed hanswer hprogress
  have hengine : (s.perform answer.turn).engine = answer.turn.engine := (s.frame_perform _).1
  refine ⟨?_, ?_, ?_⟩
  · rw [hengine, hfreed]
  · rw [hengine, hstate]
  · rw [(s.mute_perform hmute).2, if_pos hdropped]

/-- What is taken in once the session is over leaves the outbox as it is. -/
theorem absorb_futile (s : Session σ) {o : Output} (ho : o.Futile) :
    (s.absorb o).outbox = s.outbox ∧
      ∃ entry : Entry, (s.absorb o).journal = entry :: s.journal ∧ entry.Futile := by
  cases o with
  | line text => exact ho.elim
  | dropLines => exact ho.elim
  | effect order => exact ⟨rfl, .ordered order, rfl, ho⟩
  | report event tags seen =>
    have hlines := Reaction.lines_settle_of_not_open (Engine.not_open_of_freed ho)
      (s.handler.react event ⟨s.id, seen, tags⟩ s.memory)
    rw [absorb, callHandler, hlines]
    exact ⟨rfl, _, rfl, Reaction.declined_settle ho _⟩

theorem absorbAll_futile (outputs : List Output) (s : Session σ)
    (houtputs : ∀ o ∈ outputs, o.Futile) :
    (outputs.foldl absorb s).outbox = s.outbox ∧
      ∃ notes : List Entry, (outputs.foldl absorb s).journal = notes ++ s.journal ∧
        ∀ entry ∈ notes, entry.Futile := by
  induction outputs generalizing s with
  | nil => exact ⟨rfl, [], rfl, fun _ h => absurd h List.not_mem_nil⟩
  | cons o outputs ih =>
    rw [List.forall_mem_cons] at houtputs
    obtain ⟨houtbox₁, entry, hjournal₁, hentry⟩ := s.absorb_futile houtputs.1
    obtain ⟨houtbox₂, notes, hjournal₂, hnotes⟩ := ih (s.absorb o) houtputs.2
    refine ⟨houtbox₂.trans houtbox₁, notes ++ [entry], ?_, ?_⟩
    · rw [List.foldl_cons, hjournal₂, hjournal₁, List.append_assoc, List.singleton_append]
    · exact List.forall_mem_append.mpr ⟨hnotes, List.forall_mem_singleton.mpr hentry⟩

namespace Over

/-- No call with an action is taken. -/
theorem call_eq_error (h : s.Over) {action : Action} (hc : c.action? = some action) :
    s.call c = .error ⟨.disconnected, action⟩ := by
  rw [Session.call, (Engine.call_eq_error_iff hc).mpr ⟨.inl h.freed, rfl⟩, h.state]

/-- The keepalive timer does nothing. -/
theorem call_keepaliveTick (h : s.Over) (now : Instant) :
    s.call (.keepaliveTick now) = .ok (.ongoing, s) := by
  have hnot : s.engine.state ≠ .connected := by
    rw [h.state]
    decide
  rw [Session.call, Engine.call, Engine.keepaliveTick, if_pos hnot]
  rfl

theorem attempt_eq (h : s.Over) (c : LifecycleCall) : s.attempt c = s := by
  rw [attempt]
  cases hc : c.action? with
  | some action => rw [h.call_eq_error hc]
  | none =>
    cases c with
    | keepaliveTick now => rw [h.call_keepaliveTick]
    | _ => exact absurd hc (by simp [LifecycleCall.action?])

/-- Nothing is sent. -/
theorem send_eq_error (h : s.Over) {r : Request} {command : Command}
    (hr : r.command = .ok command) : s.send r = .error .sessionFreed := by
  rw [send, Engine.linesFor_of_freed h.freed hr]

/-- The session `s'` is what became of `s` when it was over already. -/
structure Leads (s s' : Session σ) : Prop where
  ended : s'.Over
  life : s'.engine.life = s.engine.life
  notes : ∃ notes : List Entry, s'.journal = notes ++ s.journal ∧ ∀ entry ∈ notes, entry.Futile

theorem leads_self (h : s.Over) : Leads s s :=
  ⟨h, rfl, [], rfl, fun _ hentry => absurd hentry List.not_mem_nil⟩

theorem Leads.trans {s' s'' : Session σ} (h : Leads s s') (h' : Leads s' s'') : Leads s s'' := by
  obtain ⟨notes, hjournal, hnotes⟩ := h.notes
  obtain ⟨notes', hjournal', hnotes'⟩ := h'.notes
  refine ⟨h'.ended, h'.life.trans h.life, notes' ++ notes, ?_, ?_⟩
  · rw [hjournal', hjournal, List.append_assoc]
  · exact List.forall_mem_append.mpr ⟨hnotes', hnotes⟩

/-- Input is handled, but nothing comes of it. -/
theorem leads_perform (h : s.Over) {t : Turn} (ht : Engine.Response s.engine t) :
    Leads s (s.perform t) := by
  have hlife := ht.life
  have hengine : (s.perform t).engine = t.engine := (s.frame_perform t).1
  obtain ⟨houtbox, hnotes⟩ := absorbAll_futile t.outputs { s with engine := t.engine }
    (ht.futile h.freed)
  refine ⟨⟨?_, ?_, houtbox.trans h.outbox⟩, ?_, hnotes⟩
  · rw [hengine, Engine.freed_of_life hlife, h.freed]
  · rw [hengine, show t.engine.state = s.engine.state from congrArg Life.state hlife, h.state]
  · rw [hengine, hlife]

/-- No operation brings the session back. -/
theorem operate (h : s.Over) (op : Operation) : Leads s (s.operate op) := by
  cases op with
  | call c =>
    rw [Session.operate, h.attempt_eq]
    exact h.leads_self
  | line line now => exact h.leads_perform (s.engine.response_handleLine line now)
  | message m now => exact h.leads_perform (s.engine.response_handleMessage m now)
  | undecodable cause => exact h.leads_perform (s.engine.response_reportUndecodable cause)
  | send r =>
    rw [operate_send, Engine.queue_of_not_open (Engine.not_open_of_freed h.freed)]
    exact h.leads_self
  | pollOutgoing =>
    rw [Session.operate, pollOutgoing, h.outbox]
    exact h.leads_self
  | pollEffect =>
    rw [Session.operate, pollEffect]
    cases s.effects with
    | nil => exact h.leads_self
    | cons effect rest =>
      exact ⟨⟨h.freed, h.state, h.outbox⟩, rfl, [], rfl, fun _ hn => absurd hn List.not_mem_nil⟩

theorem run (h : s.Over) (ops : List Operation) : Leads s (s.run ops) := by
  induction ops generalizing s with
  | nil => exact h.leads_self
  | cons op ops ih => exact (h.operate op).trans (ih (h.operate op).ended)

end Over

/-- **A session that is over stays over.**  Once a call has been answered with the end of the
session, the session is disconnected and has nothing to send, whatever is done with it.  Calls
are refused, the keepalive timer does nothing, and a request that is good in itself is turned
down because the session is over, be it the caller's or the handler's. -/
theorem freed_for_good (h : s.call c = .ok (.freed, after)) (ops : List Operation) :
    let later := after.run ops
    later.engine.freed = true ∧ later.engine.state = .disconnected ∧ later.outbox = [] ∧
      later.engine.lastAction = after.engine.lastAction ∧
        later.engine.backoff.current = after.engine.backoff.current ∧
          (∀ c action, c.action? = some action → later.call c = .error ⟨.disconnected, action⟩) ∧
            (∀ now, later.call (.keepaliveTick now) = .ok (.ongoing, later)) ∧
              (∀ r command, r.command = .ok command → later.send r = .error .sessionFreed) ∧
                ∃ notes, later.journal = notes ++ after.journal ∧
                  ∀ entry ∈ notes, entry.Futile := by
  intro later
  have hlater := (over_of_freed h).run ops
  have hover := hlater.ended
  refine ⟨hover.freed, hover.state, hover.outbox, congrArg Life.lastAction hlater.life,
    congrArg (fun l : Life => l.backoff.current) hlater.life,
    fun c action hc => hover.call_eq_error hc, hover.call_keepaliveTick,
    fun r command hr => hover.send_eq_error hr, hlater.notes⟩

/-- A client that was told to quit while it was connected.  The socket gone, it is greeted again
and its keepalive timer runs out, but it says nothing and cannot be told to quit again. -/
theorem freed_for_good_of_quit :
    let s : Session Unit := (start ⟨1⟩ (Config.forServer "host" 6667 "me") ⟨0⟩ .idle ()).run
      [.call .connect, .call (.connectFinished ⟨0⟩), .call (.quit (some "bye"))]
    ∃ after, s.call (.disconnected "closed") = .ok (.freed, after) ∧
      let later := after.run
        [.line ":irc.example 001 me :welcome" ⟨1⟩, .call (.keepaliveTick ⟨2⟩)]
      s.outbox.length = 4 ∧ later.engine.freed = true ∧ later.outbox = [] ∧
        later.call (.quit none) = .error ⟨.disconnected, .quit⟩ := by
  intro s
  have hcall : s.call (.disconnected "closed") = .ok (.freed, s.attempt (.disconnected "closed")) :=
    rfl
  obtain ⟨hfreed, -, houtbox, -, -, hcalls, -⟩ := freed_for_good hcall
    [.line ":irc.example 001 me :welcome" ⟨1⟩, .call (.keepaliveTick ⟨2⟩)]
  exact ⟨_, hcall, by decide +kernel, hfreed, houtbox, hcalls (.quit none) .quit rfl⟩

end Session

end Irc
