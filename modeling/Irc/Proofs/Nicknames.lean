/-
Which nickname a client asks for.

As long as a client is not registered, every refusal of its nickname makes it ask for another one:
its alternates in order, and then the last of them with an underscore more each time.  So the
nickname is a function of how often one was turned down.  Once the server has welcomed the client,
refusals no longer count.

* **`Config.nicknameAfter`** — the nickname after so many refusals;
* **`Session.Connection.naming`** — it is the nickname of the client all along;
* **`Session.nicknames_of_connection`** — what every refusal on a connection comes to;
* **`Session.renamed_after_loss`** — a refusal that is handled when the connection is gone.
-/
import Irc.Proofs.Keepalive

namespace Irc

open Outgoing Lifecycle

/-! ### Nicknames to ask for -/

/-- The nickname of a client that had `k` turned down. -/
def Config.nicknameAfter (c : Config) : Nat → String
  | 0 => c.nickname
  | k + 1 =>
    match c.alternates[k]? with
    | some alternate => alternate
    | none =>
      c.alternates.getLast?.getD c.nickname ++
        String.ofList (List.replicate (k + 1 - c.alternates.length) '_')

/-- Behind the alternates there are only underscores. -/
theorem Config.nicknameAfter_of_le {c : Config} {k : Nat} (hk : c.alternates.length ≤ k) :
    c.nicknameAfter k = c.alternates.getLast?.getD c.nickname ++
      String.ofList (List.replicate (k - c.alternates.length) '_') := by
  cases k with
  | zero =>
    have hnone : c.alternates = [] := List.length_eq_zero_iff.mp (Nat.le_zero.mp hk)
    simp [nicknameAfter, hnone]
  | succ k =>
    rw [nicknameAfter]
    cases hnext : c.alternates[k]? with
    | none => rfl
    | some alternate =>
      -- the last alternate, with no underscore yet
      obtain ⟨hlt, -⟩ := List.getElem?_eq_some_iff.mp hnext
      have hlength : c.alternates.length = k + 1 := by omega
      have hlast : c.alternates.getLast? = some alternate := by
        rw [List.getLast?_eq_getElem?, hlength]
        exact hnext
      simp [hlast, hlength]

/-- One refusal more brings the next alternate, or another underscore. -/
theorem Config.nicknameAfter_succ (c : Config) (k : Nat) :
    c.nicknameAfter (k + 1) =
      match c.alternates[k]? with
      | some alternate => alternate
      | none => c.nicknameAfter k ++ "_" := by
  cases hnext : c.alternates[k]? with
  | some alternate => simp only [nicknameAfter, hnext]
  | none =>
    have hk : c.alternates.length ≤ k := List.getElem?_eq_none_iff.mp hnext
    have hmore : String.ofList (List.replicate (k + 1 - c.alternates.length) '_') =
        String.ofList (List.replicate (k - c.alternates.length) '_') ++ "_" := by
      rw [show k + 1 - c.alternates.length = k - c.alternates.length + 1 by omega,
        List.replicate_succ', String.ofList_append]
    rw [nicknameAfter_of_le (by omega), hmore, ← String.append_assoc, ← nicknameAfter_of_le hk]

/-- The request for a nickname is accepted, and there is room for it in a line. -/
def Outgoing.CanAsk (nickname : String) : Prop :=
  (∃ c, (Request.nick nickname).command = .ok c) ∧
    (paramLine "NICK" nickname).utf8ByteSize ≤ Limits.outgoing

theorem Outgoing.canAsk_iff {nickname : String} :
    CanAsk nickname ↔
      Placeable nickname ∧ (paramLine "NICK" nickname).utf8ByteSize ≤ Limits.outgoing := by
  refine and_congr_left fun _ => ?_
  show (∃ c, (checkMiddle nickname _ >>= fun nickname => _) = .ok c) ↔ _
  constructor
  · rintro ⟨c, hc⟩
    cases hcheck : checkMiddle nickname "nickname" with
    | error err =>
      rw [hcheck] at hc
      exact absurd hc (by simp [bind, Except.bind])
    | ok param => exact (checkMiddle_eq_ok_iff.mp hcheck).1
  · intro hplace
    rw [checkMiddle_eq_ok_iff.mpr ⟨hplace, rfl⟩]
    exact ⟨_, rfl⟩

/-- A nickname that can be asked for is asked for in one line. -/
theorem Outgoing.lines_of_canAsk {nickname : String} (h : CanAsk nickname) :
    (Request.nick nickname).lines = [paramLine "NICK" nickname] := by
  rw [Request.lines_of_checkMiddle "NICK" rfl, if_pos (canAsk_iff.mp h)]

theorem Outgoing.lines_of_not_canAsk {nickname : String} (h : ¬ CanAsk nickname) :
    (Request.nick nickname).lines = [] := by
  rw [Request.lines_of_checkMiddle "NICK" rfl, if_neg fun hplace => h (canAsk_iff.mpr hplace)]

/-! ### Refusals -/

/-- The server says that a nickname is taken, and which. -/
def Message.TurnsDown (m : Message) : Prop := m.numeric? = some 433 ∧ 2 ≤ m.argCount

instance (m : Message) : Decidable m.TurnsDown := inferInstanceAs (Decidable (_ ∧ _))

/-- A nickname is turned down in an act. -/
def Act.turnsDown (a : Act) : Bool := a.op.message?.any fun m => m.TurnsDown

namespace Engine

variable {e : Engine} {m : Message} {t : Turn}

/-- After so many refusals the next nickname is the one after another refusal. -/
theorem nextNickname_of_naming {k : Nat} (hattempt : e.nickAttempt = k)
    (hnickname : e.nickname = e.config.nicknameAfter k) :
    e.nextNickname = e.config.nicknameAfter (k + 1) := by
  subst hattempt
  rw [Config.nicknameAfter_succ, ← hnickname]
  rfl

/-- What becomes of a refusal.  A client that is registered does not mind. -/
theorem handleMessage_of_taken (hm : m.numeric? = some 433) (e : Engine) (now : Instant) :
    e.handleMessage m now =
      if e.link.registered then e.report (.numeric (Actor.ofMessage m) 433 m.args) m.tags
      else if m.argCount < 2 then
        e.report (.anomaly (.violation ⟨m.command, 2, m.argCount⟩)) []
      else e.retryNickname.report (.numeric (Actor.ofMessage m) 433 m.args) m.tags := by
  have hreply : Reply.ofCode? 433 = some .nicknameInUse := rfl
  rw [handleMessage, Route.ofMessage, hm]
  simp only [Route.arity, route, numeric, react, hreply, Message.require]
  cases hregistered : e.link.registered with
  | true => rfl
  | false =>
    simp only [Bool.false_eq_true, if_false]
    split_ifs <;> rfl

/-- Handling anything but a welcome leaves the client registered or not. -/
theorem Upshot.registered (h : Upshot e m t) (hwelcome : ¬ m.IsWelcome) :
    t.engine.link.registered = e.link.registered := by
  induction h with
  | remark h => exact congrArg Vitals.registered h.vitals
  | welcome now hm hcount => exact absurd ⟨hm, hcount⟩ hwelcome
  | answer now trip hm hcount => rfl
  | nick hm hself => rfl
  | retry hm hregistered => rfl
  | thenRemark first second ih => exact (congrArg Vitals.registered second.vitals).trans ih

/-- A client is registered once the server has welcomed it. -/
theorem registered_handleMessage (e : Engine) (m : Message) (now : Instant) :
    (e.handleMessage m now).engine.link.registered =
      (decide m.IsWelcome || e.link.registered) := by
  by_cases hwelcome : m.IsWelcome
  · rw [engine_of_welcome hwelcome, decide_eq_true hwelcome, Bool.true_or]
    rfl
  · rw [decide_eq_false hwelcome, Bool.false_or]
    exact (e.upshot_handleMessage m now).registered hwelcome

/-- Nothing but a welcome, a change of nickname and a refusal has to do with the nickname. -/
theorem Upshot.naming (h : Upshot e m t) (hwelcome : ¬ m.IsWelcome) (hnick : m.command ≠ "NICK")
    (htaken : m.numeric? ≠ some 433) :
    (t.engine.nickname, t.engine.nickAttempt) = (e.nickname, e.nickAttempt) := by
  induction h with
  | remark h => exact h.naming
  | welcome now hm hcount => exact absurd ⟨hm, hcount⟩ hwelcome
  | answer now trip hm hcount => rfl
  | nick hm hself => exact absurd hm hnick
  | retry hm hregistered => exact absurd hm htaken
  | thenRemark first second ih => exact second.naming.trans ih

/-- What is said in answer to a refusal: as long as the client is not registered, it asks for
another nickname. -/
theorem lines_of_taken (hm : m.numeric? = some 433) (e : Engine) (now : Instant) :
    (e.handleMessage m now).lines =
      if e.Open ∧ e.link.registered = false ∧ 2 ≤ m.argCount then
        (Request.nick e.nextNickname).lines else [] := by
  rw [handleMessage_of_taken hm]
  cases hregistered : e.link.registered with
  | true => rw [if_pos rfl, if_neg fun h => absurd h.2.1 (by decide), lines_report]
  | false =>
    rw [if_neg Bool.false_ne_true]
    by_cases hfew : m.argCount < 2
    · rw [if_pos hfew, if_neg fun h => absurd h.2.2 (Nat.not_le.mpr hfew), lines_report]
    · rw [if_neg hfew, Turn.lines_report, retryNickname, Turn.lines_queue, lines_queue]
      exact if_congr (iff_self_and.mpr fun _ => ⟨rfl, Nat.le_of_not_lt hfew⟩) rfl rfl

/-- What a message does to the nickname of a client that is not registered. -/
theorem naming_handleMessage (hregistered : e.link.registered = false) (hwelcome : ¬ m.IsWelcome)
    (hnick : m.command ≠ "NICK") (now : Instant) :
    (e.handleMessage m now).engine.link.registered = false ∧
      ((e.handleMessage m now).engine.nickname, (e.handleMessage m now).engine.nickAttempt) =
        if m.TurnsDown then (e.nextNickname, e.nickAttempt + 1)
        else (e.nickname, e.nickAttempt) := by
  have hupshot := e.upshot_handleMessage m now
  refine ⟨(hupshot.registered hwelcome).trans hregistered, ?_⟩
  by_cases htaken : m.numeric? = some 433
  · rw [handleMessage_of_taken htaken, hregistered, if_neg Bool.false_ne_true]
    by_cases hfew : m.argCount < 2
    · rw [if_pos hfew, if_neg fun h => absurd h.2 (Nat.not_le.mpr hfew)]
      rfl
    · rw [if_neg hfew, if_pos ⟨htaken, Nat.le_of_not_lt hfew⟩, Turn.engine_report, retryNickname,
        Turn.engine_queue]
      rfl
  · rw [if_neg fun h => htaken h.1]
    exact hupshot.naming hwelcome hnick htaken

/-- A call that opens no connection has nothing to do with the nickname. -/
theorem naming_call {c : LifecycleCall} {a : Answer} (h : e.call c = .ok a)
    (hopens : c.opens? = none) :
    (a.turn.engine.nickname, a.turn.engine.nickAttempt) = (e.nickname, e.nickAttempt) := by
  cases hc : c.action? with
  | some action =>
    obtain ⟨-, row, -, rfl⟩ := (call_eq_ok_iff hc).mp h
    show ((e.afterword _ c _).engine.nickname, (e.afterword _ c _).engine.nickAttempt) = _
    rcases e.engine_afterword (e.taken action row) c (e.taken action row).turn.engine with
      ⟨now, hnow, -⟩ | ⟨-, hengine | hengine⟩
    · exact absurd (hnow.symm.trans hopens) (by simp)
    · rw [hengine]
      rfl
    · rw [hengine]
      rfl
  | none =>
    rcases call_of_no_action hc h with hengine | ⟨row, -, -, rfl⟩
    · rw [hengine]
    · rfl

/-- What an operation without a message does to it on a connection. -/
theorem naming_of_no_message {op : Operation} (hstate : e.state = .connected)
    (hregistered : e.link.registered = false) (hop : op.message? = none) :
    (e.turn op).engine.link.registered = false ∧
      ((e.turn op).engine.nickname, (e.turn op).engine.nickAttempt) =
        (e.nickname, e.nickAttempt) := by
  rcases engine_turn_of_no_message hop e with hsame | ⟨c, a, rfl, ha, hturn⟩
  · rw [hsame]
    exact ⟨hregistered, rfl⟩
  · have hopens : c.opens? = none := by
      cases c with
      | connectFinished now =>
        obtain ⟨-, hconnecting, -⟩ := connectFinished_eq_ok_iff.mp ha
        exact absurd (hstate.symm.trans hconnecting) (by decide)
      | _ => rfl
    rw [hturn]
    refine ⟨?_, naming_call ha hopens⟩
    rw [link_call ha]
    split_ifs
    · rfl
    · exact hregistered

/-! ### Clients that are registered -/

/-- A call that opens no connection leads to one only from one. -/
theorem open_of_call {c : LifecycleCall} {a : Answer} (h : e.call c = .ok a)
    (hc : c.action? ≠ some .connectFinish) (hopen : a.turn.engine.Open) : e.Open := by
  cases haction : c.action? with
  | some action =>
    obtain ⟨hfreed, row, hrow, rfl⟩ := (call_eq_ok_iff haction).mp h
    have hnext : row.next = .connected :=
      (congrArg Prod.fst (e.standing_answer c _)).symm.trans hopen.1
    rcases row_of_connected hrow hnext with hstate | rfl
    · exact ⟨hstate, hfreed⟩
    · exact absurd haction hc
  | none =>
    rcases call_of_no_action haction h with hengine | ⟨row, hfreed, hrow, rfl⟩
    · rwa [hengine] at hopen
    · rcases row_of_connected hrow hopen.1 with hstate | hopens
      · exact ⟨hstate, hfreed⟩
      · exact absurd hopens (by decide)

/-- Without another connection a client that is registered while lines can be sent stays so. -/
theorem registered_turn {op : Operation} (h : e.Open → e.link.registered = true)
    (hop : Act.action? ⟨e, op⟩ ≠ some .connectFinish) (hopen : (e.turn op).engine.Open) :
    (e.turn op).engine.link.registered = true := by
  cases hm : op.message? with
  | some m =>
    obtain ⟨now, hturn⟩ := turn_of_message hm e
    rw [hturn] at hopen ⊢
    rw [registered_handleMessage, h ((open_of_life (e.life_handleMessage m now)).mp hopen),
      Bool.or_true]
  | none =>
    rcases engine_turn_of_no_message hm e with hsame | ⟨c, a, rfl, ha, hturn⟩
    · rw [hsame] at hopen ⊢
      exact h hopen
    · rw [hturn] at hopen ⊢
      have hbefore : e.Open := open_of_call ha ((Act.after_of_call ha).2 ▸ hop) hopen
      rw [((call_of_open hbefore ha).2 hopen.1).1, h hbefore]

end Engine

/-- The loss of the connection is reported. -/
def Act.IsLoss (a : Act) : Prop :=
  ∃ reason b, a.op = .call (.disconnected reason) ∧ a.engine.call (.disconnected reason) = .ok b

/-- A client that is registered stays so until it loses its connection or gets another one. -/
theorem Engine.registered_turn_of_kept {e : Engine} {op : Operation}
    (h : e.link.registered = true) (hop : Act.action? ⟨e, op⟩ ≠ some .connectFinish)
    (hkept : ¬ Act.IsLoss ⟨e, op⟩) : (e.turn op).engine.link.registered = true := by
  cases hm : op.message? with
  | some m =>
    obtain ⟨now, hturn⟩ := turn_of_message hm e
    rw [hturn, registered_handleMessage, h, Bool.or_true]
  | none =>
    rcases engine_turn_of_no_message hm e with hsame | ⟨c, a, rfl, ha, hturn⟩
    · rw [hsame, h]
    · have hforgets : c.forgets = false := by
        cases c with
        | connectFinished now => exact absurd (Act.after_of_call ha).2 hop
        | disconnected reason => exact absurd ⟨reason, a, rfl, ha⟩ hkept
        | _ => rfl
      rw [hturn, link_call ha, hforgets, if_neg Bool.false_ne_true, h]

namespace Session

variable {σ : Type} {s : Session σ} {acts : List Act}

/-- **The nickname of a client all along a connection**, as long as the server neither welcomes it
nor has anything to say about a change of nickname. -/
theorem Connection.naming (h : s.Connection acts)
    (hacts : ∀ a ∈ acts, ∀ m, a.op.message? = some m → ¬ m.IsWelcome ∧ m.command ≠ "NICK") :
    s.engine.link.registered = false ∧ s.engine.nickAttempt = acts.countP Act.turnsDown ∧
      s.engine.nickname = s.engine.config.nicknameAfter (acts.countP Act.turnsDown) := by
  induction h with
  | opened h =>
    rw [(engine_of_opened h).1]
    exact ⟨rfl, rfl, rfl⟩
  | @step s acts h hstate op ih =>
    rw [List.forall_mem_append] at hacts
    obtain ⟨hregistered, hattempt, hnickname⟩ := ih hacts.1
    have hop := hacts.2 _ (List.mem_singleton_self _)
    rw [engine_operate, Engine.config_turn, List.countP_append, List.countP_singleton]
    cases hm : op.message? with
    | none =>
      have hnone : Act.turnsDown ⟨s.engine, op⟩ = false := by
        rw [Act.turnsDown, hm]
        rfl
      obtain ⟨hregistered', hnaming⟩ := Engine.naming_of_no_message hstate hregistered hm
      obtain ⟨hnickname', hattempt'⟩ := Prod.mk.inj hnaming
      rw [hnone, hnickname', hattempt']
      exact ⟨hregistered', hattempt, hnickname⟩
    | some m =>
      have hturns : Act.turnsDown ⟨s.engine, op⟩ = decide m.TurnsDown := by
        rw [Act.turnsDown, hm]
        rfl
      obtain ⟨hwelcome, hnick⟩ := hop m hm
      obtain ⟨now, hturn⟩ := Engine.turn_of_message hm s.engine
      obtain ⟨hregistered', hnaming⟩ :=
        Engine.naming_handleMessage hregistered hwelcome hnick now
      rw [hturn, hturns]
      by_cases hdown : m.TurnsDown
      · rw [if_pos hdown] at hnaming
        obtain ⟨hnickname', hattempt'⟩ := Prod.mk.inj hnaming
        rw [hnickname', hattempt', decide_eq_true hdown, if_pos rfl, hattempt,
          Engine.nextNickname_of_naming hattempt hnickname]
        exact ⟨hregistered', rfl, rfl⟩
      · rw [if_neg hdown] at hnaming
        obtain ⟨hnickname', hattempt'⟩ := Prod.mk.inj hnaming
        rw [hnickname', hattempt', decide_eq_false hdown, if_neg Bool.false_ne_true]
        exact ⟨hregistered', hattempt, hnickname⟩

/-- A client that is registered while lines can be sent stays so until it gets another
connection. -/
theorem registered_run (h : s.engine.Open → s.engine.link.registered = true)
    {ops : List Operation} (hops : ∀ a ∈ s.acts ops, a.action? ≠ some .connectFinish)
    (hopen : (s.run ops).engine.Open) : (s.run ops).engine.link.registered = true := by
  induction ops generalizing s with
  | nil => exact h hopen
  | cons op ops ih =>
    rw [Session.acts, List.forall_mem_cons] at hops
    refine ih (s := s.operate op) (fun hnext => ?_) hops.2 hopen
    rw [engine_operate] at hnext ⊢
    exact Engine.registered_turn h hops.1 hnext

/-- A client that is registered stays so until it loses its connection or gets another one. -/
theorem registered_run_of_kept (h : s.engine.link.registered = true) {ops : List Operation}
    (hops : ∀ a ∈ s.acts ops, a.action? ≠ some .connectFinish)
    (hkept : ∀ a ∈ s.acts ops, ¬ a.IsLoss) : (s.run ops).engine.link.registered = true := by
  induction ops generalizing s with
  | nil => exact h
  | cons op ops ih =>
    rw [Session.acts, List.forall_mem_cons] at hops hkept
    refine ih (s := s.operate op) ?_ hops.2 hkept.2
    rw [engine_operate]
    exact Engine.registered_turn_of_kept h hops.1 hkept.1

/-- What a message does to a session with a silent handler. -/
theorem operate_of_message (hs : s.handler.Silent) {op : Operation} {m : Message}
    (hm : op.message? = some m) :
    ∃ now, (s.operate op).engine = (s.engine.handleMessage m now).engine ∧
      (s.operate op).queued = s.queued ++ (s.engine.handleMessage m now).lines ∧
      (s.operate op).outbox = s.outbox ++ (s.engine.handleMessage m now).lines := by
  obtain ⟨now, hturn⟩ := Engine.turn_of_message hm s.engine
  have hop : op.isTurn = true := by
    cases op <;> first | rfl | exact absurd hm (by simp [Operation.message?, Operation.received?])
  have hdrop : Output.dropLines ∉ (s.engine.handleMessage m now).outputs :=
    fun hmem => (s.engine.response_handleMessage m now).heard _ hmem
  refine ⟨now, by rw [engine_operate, hturn], ?_, ?_⟩
  · rw [s.operate_eq_perform hop, hturn, queued_perform hs]
  · rw [s.operate_eq_perform hop, hturn, outbox_perform hs hdrop]

/-- **Which nickname a client asks for.**  On a connection on which it is not welcomed and hears
of no change of nickname, the nickname follows from how many were turned down: the alternates in
order, and then the last of them, or the configured nickname if there are none, with an
underscore for every further one.  Another refusal queues one line that asks for the next nickname
if that can be asked for, and nothing otherwise.  Once the client is welcomed no refusal queues
anything until it gets another connection, and as long as it does not lose the one it has no
refusal changes its nickname. -/
theorem nicknames_of_connection (hs : s.handler.Silent) :
    (∀ acts, s.Connection acts → s.engine.state = .connected →
      (∀ a ∈ acts, ∀ m, a.op.message? = some m → ¬ m.IsWelcome ∧ m.command ≠ "NICK") →
        let k := acts.countP Act.turnsDown
        s.engine.nickname = s.engine.config.nicknameAfter k ∧
        ∀ op m, op.message? = some m → m.TurnsDown →
          let next := s.engine.config.nicknameAfter (k + 1)
          let after := s.operate op
          after.engine.nickname = next ∧
          (CanAsk next → after.queued = s.queued ++ [paramLine "NICK" next] ∧
            after.outbox = s.outbox ++ [paramLine "NICK" next]) ∧
          (¬ CanAsk next → after.queued = s.queued ∧ after.outbox = s.outbox)) ∧
    ∀ op m, op.message? = some m → m.IsWelcome →
      let welcomed := s.operate op
      ∀ ops, (∀ a ∈ welcomed.acts ops, a.action? ≠ some .connectFinish) →
        ∀ op' m', op'.message? = some m' → m'.numeric? = some 433 →
          let later := welcomed.run ops
          let after := later.operate op'
          after.queued = later.queued ∧ after.outbox = later.outbox ∧
          ((∀ a ∈ welcomed.acts ops, ¬ a.IsLoss) →
            after.engine.nickname = later.engine.nickname) := by
  constructor
  · intro acts h hstate hacts k
    obtain ⟨hregistered, hattempt, hnickname⟩ := h.naming hacts
    refine ⟨hnickname, ?_⟩
    intro op m hm hdown next after
    have hnext : s.engine.nextNickname = next :=
      Engine.nextNickname_of_naming hattempt hnickname
    obtain ⟨now, hengine, hqueued, houtbox⟩ := operate_of_message hs hm
    have hlines : (s.engine.handleMessage m now).lines = (Request.nick next).lines := by
      rw [Engine.lines_of_taken hdown.1, if_pos ⟨h.open_of_connected hstate, hregistered, hdown.2⟩,
        hnext]
    have hwelcome : ¬ m.IsWelcome := fun hwelcome =>
      absurd (hdown.1.symm.trans hwelcome.1) (by decide)
    have hnick : m.command ≠ "NICK" := by
      intro hnick
      have hnone : m.numeric? = none := by
        rw [Message.numeric?, hnick]
        rfl
      exact absurd (hdown.1.symm.trans hnone) (by simp)
    obtain ⟨-, hnaming⟩ := Engine.naming_handleMessage hregistered hwelcome hnick now
    rw [if_pos hdown, hnext] at hnaming
    refine ⟨?_, fun hask => ?_, fun hask => ?_⟩
    · rw [hengine]
      exact (Prod.mk.inj hnaming).1
    · rw [hqueued, houtbox, hlines, lines_of_canAsk hask]
      exact ⟨rfl, rfl⟩
    · rw [hqueued, houtbox, hlines, lines_of_not_canAsk hask, List.append_nil, List.append_nil]
      exact ⟨rfl, rfl⟩
  · intro op m hm hwelcome welcomed ops hops op' m' hm' htaken later after
    have hregistered : welcomed.engine.link.registered = true := by
      obtain ⟨now, hengine, -, -⟩ := operate_of_message hs hm
      rw [hengine, Engine.registered_handleMessage, decide_eq_true hwelcome, Bool.true_or]
    have hsilent : later.handler.Silent := by
      rw [handler_run, (s.frame_operate op).2]
      exact hs
    obtain ⟨now, hengine, hqueued, houtbox⟩ := operate_of_message hsilent hm'
    have hlines : (later.engine.handleMessage m' now).lines = [] := by
      rw [Engine.lines_of_taken htaken, if_neg]
      rintro ⟨hopen, hnot, -⟩
      have hstill := registered_run (fun _ => hregistered) hops hopen
      exact absurd (hnot.symm.trans hstill) Bool.false_ne_true
    refine ⟨by rw [hqueued, hlines, List.append_nil], by rw [houtbox, hlines, List.append_nil], ?_⟩
    intro hkept
    rw [hengine, Engine.handleMessage_of_taken htaken,
      if_pos (registered_run_of_kept hregistered hops hkept), Engine.engine_report]

/-- A client whose nickname and only alternate are taken asks for the alternate with an underscore.
Once it is welcomed it does not mind. -/
theorem nicknames_of_connection_of_alternate :
    let config : Config := { Config.forServer "host" 6667 "me" with alternates := ["you"] }
    let taken (nickname : String) : Operation :=
      .message { command := "433", middles := ["*", nickname] } ⟨0⟩
    let welcome : Operation := .message { command := "001", middles := ["you"] } ⟨0⟩
    let s := (dialing config).run [.call (.connectFinished ⟨0⟩), taken "me"]
    let later := (s.operate welcome).run [.pollOutgoing]
    s.handler.Silent ∧ s.engine.nickname = "you" ∧
      (s.operate (taken "you")).engine.nickname = "you_" ∧
      (s.operate (taken "you")).queued = s.queued ++ ["NICK you_\r\n"] ∧
      (later.operate (taken "you")).queued = later.queued ∧
      (later.operate (taken "you")).engine.nickname = later.engine.nickname := by
  intro config taken welcome s
  have hsilent : s.handler.Silent := by
    rw [handler_run]
    exact fun event context memory => ⟨(), rfl⟩
  have h : s.Connection ((dialing config).acts [.call (.connectFinished ⟨0⟩), taken "me"]) :=
    connection_dialing config [taken "me"] (by decide +kernel)
  have hacts : ∀ a ∈ (dialing config).acts [.call (.connectFinished ⟨0⟩), taken "me"],
      ∀ m, a.op.message? = some m → ¬ m.IsWelcome ∧ m.command ≠ "NICK" := by
    intro a ha m hm
    rcases List.mem_pair.mp ha with rfl | rfl
    · exact absurd hm (by simp [Operation.message?, Operation.received?])
    · obtain rfl := Option.some_inj.mp hm
      decide +kernel
  have hdown : ((dialing config).acts [.call (.connectFinished ⟨0⟩), taken "me"]).countP
      Act.turnsDown = 1 := by decide +kernel
  have hyou : s.engine.config.nicknameAfter 1 = "you" := by decide +kernel
  have hnext : s.engine.config.nicknameAfter (1 + 1) = "you_" := by decide +kernel
  have hasked : paramLine "NICK" "you_" = "NICK you_\r\n" := by decide +kernel
  obtain ⟨hrefused, hregistered⟩ := nicknames_of_connection hsilent
  obtain ⟨hnickname, hnicknames⟩ := hrefused _ h (by decide +kernel) hacts
  rw [hdown, hyou] at hnickname
  obtain ⟨hnickname', hasks, -⟩ := hnicknames (taken "you") _ rfl (by decide +kernel)
  rw [hdown, hnext] at hnickname' hasks
  have hqueued := (hasks (canAsk_iff.mpr (by decide +kernel))).1
  rw [hasked] at hqueued
  have hpolled : ∀ a ∈ (s.operate welcome).acts [.pollOutgoing], a.op = .pollOutgoing := by
    intro a ha
    rw [List.mem_singleton.mp ha]
  obtain ⟨hquiet, -, hkept⟩ := hregistered welcome _ rfl (by decide +kernel) [.pollOutgoing]
    (fun a ha => by rw [Act.action?, hpolled a ha]; simp) (taken "you") _ rfl (by decide +kernel)
  refine ⟨hsilent, hnickname, hnickname', hqueued, hquiet, hkept ?_⟩
  rintro a ha ⟨reason, b, hlost, -⟩
  exact absurd ((hpolled a ha).symm.trans hlost) (by simp)

/-- A client that has lost its connection is renamed by a refusal, though it was welcomed and has
no other connection yet. -/
theorem renamed_after_loss :
    let welcomed := (dialing (Config.forServer "host" 6667 "me")).run
      [.call (.connectFinished ⟨0⟩), .line ":irc.host 001 me :Welcome" ⟨0⟩]
    let lost := welcomed.operate (.call (.disconnected "reset"))
    let after := lost.operate (.line ":irc.host 433 me me :In use" ⟨0⟩)
    welcomed.engine.link.registered = true ∧ welcomed.engine.nickname = "me" ∧
      (∀ a ∈ welcomed.acts [.call (.disconnected "reset")], a.opened? = none) ∧
      lost.engine.nickname = "me" ∧ after.engine.nickname = "me_" := by
  decide +kernel

end Session

end Irc
