/-
How long the server takes to answer.

The token of a request for a sign of life is the age of the connection in milliseconds, and an
answer is taken to bring such a token back if its last parameter can be read as an age that the
connection has reached.  So an answer to a request measures the time in between.  The engine keeps
no list of what it has asked, though: any such number measures something, whoever thought of it.

* **`Engine.pong_mem_events_iff`** — when an answer is reported, and with which latency;
* **`Session.latency_of_run`** — what a latency is measured from, in every run;
* **`Session.latency_unasked`** — an answer to nothing measures a latency as well;
* **`Session.latency_of_echo`** — an answer to a request measures the time in between.
-/
import Irc.Proofs.Keepalive
import Irc.Proofs.Reports

namespace Irc

open Outgoing Message

/-- An operation brings an answer with a token that measures a latency, on a connection that was
made at `epoch`: the token can be read as an age that the connection has reached. -/
def Operation.Measures (op : Operation) (epoch : Instant) (actor : Actor) (token : String)
    (trip : Duration) : Prop :=
  ∃ m now sent, op.received? = some (m, now) ∧ m.IsAnswer ∧
    actor = Actor.ofMessage m ∧ token = m.lastArg ∧
      Text.word? token = some sent ∧ sent ≤ now.millisSince epoch ∧
        trip = Duration.ofMillis (now.millisSince epoch - sent)

/-! ### What an answer measures -/

namespace Engine

variable {e : Engine} {op : Operation} {m : Message} {now : Instant} {actor : Actor}
  {token : String} {trip : Duration}

/-- An operation that brings no message reports no answer. -/
theorem pong_notMem_events_of_no_message (h : op.received? = none) (trip? : Option Duration) :
    .pong actor token trip? ∉ (e.turn op).events := by
  intro hevent
  rcases turn_cases_of_no_message (Operation.message?_eq_none_of_received h) e with
    ⟨c, rfl⟩ | hstay | ⟨anomaly, hremark⟩
  · rw [turn] at hevent
    cases ha : e.call c with
    | error refusal =>
      rw [ha] at hevent
      exact absurd hevent List.not_mem_nil
    | ok a =>
      rw [ha] at hevent
      exact events_call ha _ hevent trivial
  · rw [hstay] at hevent
    exact absurd hevent List.not_mem_nil
  · rw [hremark] at hevent
    exact absurd (List.mem_singleton.mp hevent) (by simp)

/-- **When an answer is reported**, and with which latency. -/
theorem pong_mem_events_iff {trip? : Option Duration} :
    .pong actor token trip? ∈ (e.turn op).events ↔
      ∃ m now, op.received? = some (m, now) ∧ m.IsAnswer ∧ actor = Actor.ofMessage m ∧
        token = m.lastArg ∧ trip? = e.roundTrip? m.lastArg now := by
  constructor
  · intro hevent
    cases hreceived : op.received? with
    | none => exact absurd hevent (pong_notMem_events_of_no_message hreceived trip?)
    | some received =>
      obtain ⟨m, now⟩ := received
      rw [turn_of_received hreceived] at hevent
      have hanswer : m.IsAnswer := by
        rcases e.handleMessage_cases m now with ⟨-, hturn⟩ | ⟨henough, hturn⟩
        · rw [hturn] at hevent
          exact absurd (List.mem_singleton.mp hevent) (by simp)
        · rw [hturn] at hevent
          have hroute : Route.ofMessage m = .pong := (e.follows_route m now _).follows _ hevent
          rw [← Route.arity_ofMessage, hroute] at henough
          exact ⟨Message.command_of_route hroute rfl, henough⟩
      rw [handleMessage_of_answer hanswer] at hevent
      obtain ⟨rfl, rfl, rfl⟩ := Event.pong.inj (List.mem_singleton.mp hevent)
      exact ⟨m, now, rfl, hanswer, rfl, rfl, rfl⟩
  · rintro ⟨m, now, hreceived, hanswer, rfl, rfl, rfl⟩
    rw [turn_of_received hreceived, handleMessage_of_answer hanswer]
    exact List.mem_singleton_self _

theorem roundTrip?_eq_some_iff :
    e.roundTrip? token now = some trip ↔
      ∃ sent, Text.word? token = some sent ∧ sent ≤ now.millisSince e.epoch ∧
        trip = Duration.ofMillis (now.millisSince e.epoch - sent) := by
  rw [roundTrip?]
  cases hsent : Text.word? token with
  | none => simp
  | some sent =>
    show (if sent ≤ now.millisSince e.epoch then _ else _) = some trip ↔ _
    split_ifs with hpast
    · rw [Option.some_inj, eq_comm]
      simp [hpast]
    · simp [hpast]

theorem measures_iff :
    op.Measures e.epoch actor token trip ↔ .pong actor token (some trip) ∈ (e.turn op).events := by
  rw [pong_mem_events_iff]
  constructor
  · rintro ⟨m, now, sent, hreceived, hanswer, hactor, rfl, hmeasured⟩
    exact ⟨m, now, hreceived, hanswer, hactor, rfl,
      (roundTrip?_eq_some_iff.mpr ⟨sent, hmeasured⟩).symm⟩
  · rintro ⟨m, now, hreceived, hanswer, hactor, rfl, htrip⟩
    obtain ⟨sent, hmeasured⟩ := roundTrip?_eq_some_iff.mp htrip.symm
    exact ⟨m, now, sent, hreceived, hanswer, hactor, rfl, hmeasured⟩

/-- A latency that is measured is noted. -/
theorem latency_of_measures (h : op.Measures e.epoch actor token trip) :
    (e.turn op).engine.link.latency = some trip := by
  obtain ⟨m, now, sent, hreceived, hanswer, -, rfl, hmeasured⟩ := h
  rw [turn_of_received hreceived, engine_of_answer hanswer, noteAnswer,
    roundTrip?_eq_some_iff.mpr ⟨sent, hmeasured⟩]
  rfl

/-- It is reported, and nothing else is. -/
theorem events_of_measures (h : op.Measures e.epoch actor token trip) :
    (e.turn op).events = [.pong actor token (some trip)] := by
  obtain ⟨m, now, sent, hreceived, hanswer, rfl, rfl, hmeasured⟩ := h
  rw [turn_of_received hreceived, handleMessage_of_answer hanswer, pong,
    roundTrip?_eq_some_iff.mpr ⟨sent, hmeasured⟩]
  rfl

/-- Without a measurement the latency stays as it is, or is forgotten with the connection. -/
theorem latency_of_not_measures (h : ∀ actor token trip, ¬ op.Measures e.epoch actor token trip) :
    (e.turn op).engine.link.latency = e.link.latency ∨ (e.turn op).engine.link.latency = none := by
  cases hreceived : op.received? with
  | some received =>
    obtain ⟨m, now⟩ := received
    rw [turn_of_received hreceived]
    left
    by_cases hanswer : m.IsAnswer
    · have hnone : e.roundTrip? m.lastArg now = none := by
        refine Option.eq_none_iff_forall_ne_some.mpr fun trip htrip => ?_
        obtain ⟨sent, hmeasured⟩ := roundTrip?_eq_some_iff.mp htrip
        exact h _ _ trip ⟨m, now, sent, hreceived, hanswer, rfl, rfl, hmeasured⟩
      rw [engine_of_answer hanswer, noteAnswer, hnone]
      rfl
    · by_cases hwelcome : m.IsWelcome
      · rw [engine_of_welcome hwelcome]
        rfl
      · exact congrArg Vitals.latency ((e.upshot_handleMessage m now).vitals hwelcome hanswer)
  | none =>
    rcases engine_turn_of_no_message (Operation.message?_eq_none_of_received hreceived) e with
      hsame | ⟨c, a, rfl, ha, hturn⟩
    · exact .inl (by rw [hsame])
    · rw [hturn, link_call ha]
      split_ifs
      · exact .inr rfl
      · exact .inl rfl

end Engine

/-! ### What a session notes of it -/

namespace Session

variable {σ : Type} {s : Session σ}

/-- What an operation reports is what the engine's own turn in it reports. -/
theorem reported_operate (s : Session σ) (op : Operation) :
    (s.operate op).reported = s.reported ++ (s.engine.turn op).events := by
  cases op with
  | send r =>
    rw [operate_send, reported_perform, Engine.events_queue]
    rfl
  | pollOutgoing =>
    rw [operate, pollOutgoing]
    cases s.outbox <;> exact (List.append_nil _).symm
  | pollEffect =>
    rw [operate, pollEffect]
    cases s.effects <;> exact (List.append_nil _).symm
  | _ => rw [s.operate_eq_perform rfl, reported_perform]

/-- **What a latency is measured from.**  In every run an answer is reported with a latency just
when its last parameter can be read as an age, in milliseconds, that the connection that was opened
last has reached; the latency is what the age has grown by since then.  Such an answer sets the
latency of the session, and nothing else does: otherwise it stays as it was or is forgotten. -/
theorem latency_of_run (id : SessionId) (config : Config) (begun : Instant)
    (handler : Handler σ) (memory : σ) (ops : List Operation) (op : Operation) :
    let fresh := start id config begun handler memory
    let s := fresh.run ops
    let epoch := (((fresh.acts ops).filterMap Act.opened?).getLast?).getD begun
    ∃ events, (s.operate op).reported = s.reported ++ events ∧
      (∀ actor token trip,
        .pong actor token (some trip) ∈ events ↔ op.Measures epoch actor token trip) ∧
      (∀ actor token trip, op.Measures epoch actor token trip →
        (s.operate op).engine.link.latency = some trip) ∧
      ((∀ actor token trip, ¬ op.Measures epoch actor token trip) →
        (s.operate op).engine.link.latency = s.engine.link.latency ∨
          (s.operate op).engine.link.latency = none) := by
  intro fresh s epoch
  have hepoch : s.engine.epoch = epoch := epoch_run fresh ops
  rw [← hepoch, engine_operate]
  refine ⟨(s.engine.turn op).events, s.reported_operate op, ?_, ?_, ?_⟩
  · intro actor token trip
    exact Engine.measures_iff.symm
  · intro actor token trip h
    exact Engine.latency_of_measures h
  · exact Engine.latency_of_not_measures

/-- A number with a sign that comes after seven milliseconds measures what is left of them. -/
theorem latency_of_run_of_number :
    let s : Session Unit := (start ⟨1⟩ (Config.forServer "host" 6667 "me") ⟨0⟩ .idle ()).run
      [.call .connect, .call (.connectFinished ⟨0⟩)]
    let op : Operation := .line "PONG irc.host :+5" ⟨7 * nanosPerMilli⟩
    op.Measures ⟨0⟩ ⟨"", none, none⟩ "+5" (Duration.ofMillis 2) ∧
      (s.operate op).engine.link.latency = some (Duration.ofMillis 2) := by
  intro s op
  have hmeasures : op.Measures ⟨0⟩ ⟨"", none, none⟩ "+5" (Duration.ofMillis 2) :=
    ⟨{ command := "PONG", middles := ["irc.host"], trailing := some "+5" }, ⟨7 * nanosPerMilli⟩, 5,
      by decide +kernel, by decide +kernel, by decide +kernel, by decide +kernel,
      by decide +kernel, by decide +kernel, by decide +kernel⟩
  have hepoch : ((((start ⟨1⟩ (Config.forServer "host" 6667 "me") ⟨0⟩ Handler.idle ()).acts
      [.call .connect, .call (.connectFinished ⟨0⟩)]).filterMap Act.opened?).getLast?).getD ⟨0⟩ =
        (⟨0⟩ : Instant) := by
    decide +kernel
  obtain ⟨-, -, -, hnoted, -⟩ := latency_of_run ⟨1⟩ (Config.forServer "host" 6667 "me") ⟨0⟩ .idle ()
    [.call .connect, .call (.connectFinished ⟨0⟩)] op
  rw [hepoch] at hnoted
  exact ⟨hmeasures, hnoted _ _ _ hmeasures⟩

/-- Keepalive never ran and nothing was asked, but the server answers. -/
theorem latency_unasked :
    let before : Session Unit := (start ⟨1⟩ (Config.forServer "host" 6667 "me") ⟨0⟩ .idle ()).run
      [.call .connect, .call (.connectFinished ⟨0⟩)]
    let after := before.operate (.line ":irc.host PONG irc.host :0" ⟨7 * nanosPerMilli⟩)
    before.engine.link.keepalive = none ∧
      before.queued = ["CAP LS 302\r\n", "NICK me\r\n", "USER me 0 * :me\r\n"] ∧
      after.reported = before.reported ++
        [.pong ⟨"irc.host", none, none⟩ "0" (some (Duration.ofMillis 7))] ∧
      after.engine.link.latency = some (Duration.ofMillis 7) := by
  decide +kernel

end Session

/-! ### Whole milliseconds -/

/-- As long as the age fits a word, it is the whole milliseconds that have passed. -/
theorem Instant.millisSince_of_lt {t earlier : Instant}
    (h : t.nanos - earlier.nanos < UInt64.size * nanosPerMilli) :
    t.millisSince earlier = (t.nanos - earlier.nanos) / nanosPerMilli := by
  have hword : UInt64.size = 18446744073709551616 := rfl
  have hmilli : nanosPerMilli = 1000000 := rfl
  have hsecond : nanosPerSecond = 1000000000 := rfl
  rw [hword, hmilli] at h
  rw [millisSince, since, Duration.nanos_ofNanos, Duration.maxNanos, hword, hmilli, hsecond]
  omega

theorem Duration.nanos_ofMillis {n : Nat} (h : n < UInt64.size) :
    (ofMillis n).nanos = n * nanosPerMilli := by
  have hword : UInt64.size = 18446744073709551616 := rfl
  have hmilli : nanosPerMilli = 1000000 := rfl
  have hsecond : nanosPerSecond = 1000000000 := rfl
  rw [hword] at h
  rw [ofMillis, nanos_ofNanos, maxNanos, hword, hmilli, hsecond]
  omega

/-! ### A request and its answer -/

namespace Session

variable {σ : Type} {s : Session σ}

/-- The one line that keepalive ever queues asks for a sign of life, with the age of the
connection. -/
theorem pingLine_of_queued {asked : Session σ} {progress : Progress} {now : Instant}
    {line : String} (h : s.call (.keepaliveTick now) = .ok (progress, asked))
    (hline : asked.queued = s.queued ++ [line]) :
    line = pingLine (now.millisSince s.engine.epoch) ∧ asked.engine = s.engine := by
  have hqueues : asked.queued ≠ s.queued := by
    intro hsame
    have hlength := congrArg List.length (hsame.symm.trans hline)
    rw [List.length_append, List.length_singleton] at hlength
    omega
  obtain ⟨a, ha, -, rfl⟩ := answer_of_call h
  rw [Engine.call, Engine.keepaliveTick] at ha
  split_ifs at ha with hstate
  · obtain rfl := Except.ok.inj ha
    exact absurd rfl hqueues
  split at ha
  · obtain rfl := Except.ok.inj ha
    exact absurd rfl hqueues
  split_ifs at ha
  · obtain ⟨-, row, -, rfl⟩ := Engine.apply_eq_ok_iff.mp ha
    exact absurd (s.mute_perform (s.engine.mute_taken _ row)).1 hqueues
  · obtain rfl := Except.ok.inj ha
    by_cases hopen : s.engine.Open
    · rw [Engine.ongoing, Engine.queue_of_open hopen,
        lines_ping (now.millisSince_lt s.engine.epoch)] at hline ⊢
      have hqueued := (s.queued_queueLine _).symm.trans hline
      exact ⟨(List.singleton_inj.mp (List.append_cancel_left hqueued)).symm, rfl⟩
    · rw [Engine.ongoing, Engine.queue_of_not_open hopen] at hqueues
      exact absurd rfl hqueues

/-- Without another connection the epoch stays as it is. -/
theorem epoch_run_of_no_opening {ops : List Operation} (h : ∀ a ∈ s.acts ops, a.opened? = none) :
    (s.run ops).engine.epoch = s.engine.epoch := by
  rw [epoch_run, List.filterMap_eq_nil_iff.mpr h]
  rfl

/-- **An answer to a request measures the time in between.**  On a connection that was made at `e`,
keepalive has asked for a sign of life at `t₁`.  The line is read as a request with a token, and
an answer with this token that is handled at `t₂` on the same connection is reported with a
latency, which is noted as well: what the age of the connection has grown by, in whole
milliseconds.  From the time in between it differs by less than a millisecond. -/
theorem latency_of_echo {before opened asked : Session σ} {e t₁ : Instant}
    {progress progress' : Progress} {first : List Operation} {line : String}
    (hopened : before.call (.connectFinished e) = .ok (progress, opened))
    (hfirst : ∀ a ∈ opened.acts first, a.opened? = none)
    (hasked : (opened.run first).call (.keepaliveTick t₁) = .ok (progress', asked))
    (hline : asked.queued = (opened.run first).queued ++ [line]) (he : e.nanos ≤ t₁.nanos) :
    ∃ token, parse line = .ok { command := "PING", trailing := some token } ∧
      ∀ (second : List Operation) (op : Operation) (pong : Message) (t₂ : Instant),
        (∀ a ∈ asked.acts second, a.opened? = none) →
        op.received? = some (pong, t₂) → pong.command = "PONG" → pong.lastArg? = some token →
        t₁.nanos ≤ t₂.nanos → t₂.nanos - e.nanos < UInt64.size * nanosPerMilli →
        let later := asked.run second
        let after := later.operate op
        ∃ trip : Duration,
          after.reported = later.reported ++ [.pong (Actor.ofMessage pong) token (some trip)] ∧
          after.engine.link.latency = some trip ∧
          trip.nanos = ((t₂.nanos - e.nanos) / nanosPerMilli -
            (t₁.nanos - e.nanos) / nanosPerMilli) * nanosPerMilli ∧
          trip.nanos < (t₂.nanos - t₁.nanos) + nanosPerMilli ∧
          t₂.nanos - t₁.nanos < trip.nanos + nanosPerMilli := by
  have hepoch : (opened.run first).engine.epoch = e := by
    rw [epoch_run_of_no_opening hfirst, (engine_of_opened hopened).1]
    rfl
  obtain ⟨rfl, hengine⟩ := pingLine_of_queued hasked hline
  rw [hepoch]
  refine ⟨toString (t₁.millisSince e), parse_pingLine (t₁.millisSince_lt e), ?_⟩
  intro second op pong t₂ hsecond hop hcommand htoken hlater hage later after
  have hepoch' : later.engine.epoch = e := by
    rw [epoch_run_of_no_opening hsecond, hengine, hepoch]
  have hanswer : pong.IsAnswer := by
    refine ⟨hcommand, ?_⟩
    rw [Message.argCount, Nat.one_le_iff_ne_zero, ne_eq, List.length_eq_zero_iff]
    intro hnone
    rw [Message.lastArg?, hnone] at htoken
    exact absurd htoken (by simp)
  have hlast : pong.lastArg = toString (t₁.millisSince e) := by
    rw [Message.lastArg, htoken]
    rfl
  -- the age at either time, in whole milliseconds
  have hmilli : nanosPerMilli = 1000000 := rfl
  have hasked₁ : t₁.millisSince e = (t₁.nanos - e.nanos) / nanosPerMilli :=
    Instant.millisSince_of_lt (by omega)
  have hanswered : t₂.millisSince e = (t₂.nanos - e.nanos) / nanosPerMilli :=
    Instant.millisSince_of_lt hage
  have hgrown : t₁.millisSince e ≤ t₂.millisSince e := by
    rw [hasked₁, hanswered]
    exact Nat.div_le_div_right (by omega)
  have hmeasures : op.Measures later.engine.epoch (Actor.ofMessage pong)
      (toString (t₁.millisSince e))
      (Duration.ofMillis (t₂.millisSince e - t₁.millisSince e)) := by
    rw [hepoch']
    exact ⟨pong, t₂, t₁.millisSince e, hop, hanswer, rfl, hlast.symm,
      Text.word?_number (t₁.millisSince_lt e), hgrown, rfl⟩
  have htrip : (Duration.ofMillis (t₂.millisSince e - t₁.millisSince e)).nanos =
      ((t₂.nanos - e.nanos) / nanosPerMilli - (t₁.nanos - e.nanos) / nanosPerMilli) *
        nanosPerMilli := by
    rw [Duration.nanos_ofMillis (lt_of_le_of_lt (Nat.sub_le _ _) (t₂.millisSince_lt e)), hasked₁,
      hanswered]
  refine ⟨_, ?_, ?_, htrip, ?_, ?_⟩
  · rw [reported_operate, Engine.events_of_measures hmeasures]
  · rw [engine_operate]
    exact Engine.latency_of_measures hmeasures
  · rw [htrip, hmilli]
    omega
  · rw [htrip, hmilli]
    omega

/-- A server that is asked after a minute and answers some forty milliseconds later. -/
theorem latency_of_echo_of_delay :
    let before : Session Unit :=
      (start ⟨1⟩ (Config.forServer "host" 6667 "me") ⟨0⟩ .idle ()).attempt .connect
    let opened := before.attempt (.connectFinished ⟨1 * nanosPerMilli + 700⟩)
    let welcomed := opened.operate (.line ":irc.host 001 me" ⟨20 * nanosPerMilli⟩)
    let asked := welcomed.attempt (.keepaliveTick ⟨60000 * nanosPerMilli⟩)
    let after := asked.operate (.line "PONG irc.host :59998" ⟨60041 * nanosPerMilli + 900⟩)
    asked.queued = welcomed.queued ++ ["PING :59998\r\n"] ∧
      ∃ trip : Duration, after.engine.link.latency = some trip ∧ trip.nanos = 42 * nanosPerMilli := by
  intro before opened welcomed asked after
  have hopened : before.call (.connectFinished ⟨1 * nanosPerMilli + 700⟩) =
      .ok (.ongoing, opened) := rfl
  have hfirst : ∀ a ∈ opened.acts [.line ":irc.host 001 me" ⟨20 * nanosPerMilli⟩],
      a.opened? = none := by
    intro a ha
    obtain rfl := List.mem_singleton.mp ha
    rfl
  have hopen : welcomed.engine.Open := by decide +kernel
  have hheard : welcomed.engine.link.keepalive = some ⟨20 * nanosPerMilli⟩ := by decide +kernel
  have hasked : welcomed.call (.keepaliveTick ⟨60000 * nanosPerMilli⟩) =
      .ok (.ongoing, asked) := by
    show _ = Except.ok (Progress.ongoing, welcomed.attempt _)
    rw [attempt, call_keepaliveTick hopen hheard]
  have hline : asked.queued = welcomed.queued ++ ["PING :59998\r\n"] := by decide +kernel
  have hread : parse "PING :59998\r\n" = .ok { command := "PING", trailing := some "59998" } := by
    decide +kernel
  obtain ⟨token, hparse, hanswered⟩ := latency_of_echo hopened hfirst hasked hline (by decide)
  obtain rfl : "59998" = token :=
    Option.some_inj.mp (congrArg Message.trailing (Except.ok.inj (hread.symm.trans hparse)))
  obtain ⟨trip, -, hnoted, htrip, -, -⟩ := hanswered []
    (.line "PONG irc.host :59998" ⟨60041 * nanosPerMilli + 900⟩)
    { command := "PONG", middles := ["irc.host"], trailing := some "59998" }
    ⟨60041 * nanosPerMilli + 900⟩ (fun a ha => absurd ha List.not_mem_nil) (by decide +kernel)
    rfl rfl (by decide) (by decide)
  exact ⟨hline, trip, hnoted, htrip.trans (by decide)⟩

end Session

end Irc
