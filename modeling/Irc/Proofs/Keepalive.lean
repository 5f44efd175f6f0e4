/-
When keepalive gives the server up.

Keepalive starts when the server welcomes the client, and only an answer of the server puts off
the moment at which it is given up: of all that was received, the instant that keepalive counts
from is that of the last welcome or answer.  When keepalive runs out, the server is given up if
it was silent for longer than the timeout, and asked for a sign of life if it was not.

* **`Message.IsAnswer`**, **`Operation.sign?`** — the signs of life;
* **`Engine.keepalive_turn`** — what an operation does to keepalive;
* **`Session.lastHeard_run`** — keepalive counts from the last sign of life;
* **`Session.call_keepaliveTick`** — what keepalive does when it runs out;
* **`Engine.GaveUp`** — a connection whose server was given up;
* **`Session.keepalive_of_run`** — when that is, and what it comes to.
-/
import Irc.Proofs.Backoff
import Irc.Proofs.Negotiation
import Irc.Proofs.Registration

namespace Irc

open Outgoing Lifecycle

/-! ### Signs of life -/

/-- The age of a connection fits a word. -/
theorem Instant.millisSince_lt (t earlier : Instant) : t.millisSince earlier < UInt64.size := by
  have hword : UInt64.size = 18446744073709551616 := rfl
  rw [millisSince, hword]
  omega

/-- The server answers a request for a sign of life. -/
def Message.IsAnswer (m : Message) : Prop := m.command = "PONG" ∧ 1 ≤ m.argCount

instance (m : Message) : Decidable m.IsWelcome := inferInstanceAs (Decidable (_ ∧ _))

instance (m : Message) : Decidable m.IsAnswer := inferInstanceAs (Decidable (_ ∧ _))

/-- A sign of life of the server that matters to keepalive, and when it came. -/
inductive Sign where
  | welcome (now : Instant)
  | answer (now : Instant)
deriving DecidableEq

namespace Sign

/-- When it came. -/
def now : Sign → Instant
  | welcome now | answer now => now

/-- What it does to keepalive: a welcome starts it, and an answer keeps it going. -/
def note : Sign → Option Instant → Option Instant
  | welcome now, _ => some now
  | answer now, keepalive => keepalive.map fun _ => now

end Sign

/-- The sign of life that a message is, if it is one. -/
def Message.sign? (m : Message) (now : Instant) : Option Sign :=
  if m.IsWelcome then some (.welcome now)
  else if m.IsAnswer then some (.answer now)
  else none

/-- The sign of life that an operation brings, if it brings one. -/
def Operation.sign? : Operation → Option Sign
  | .message m now => m.sign? now
  | .line text now => (Message.parse text).toOption.bind (·.sign? now)
  | _ => none

/-- Of the signs of life since keepalive was last started the last one came at `t`. -/
def LastHeard (signs : List Sign) (t : Instant) : Prop :=
  ∃ earlier start later, signs = earlier ++ .welcome start :: later ∧
    (∀ sign ∈ later, ∀ now, sign ≠ .welcome now) ∧ signs.getLast?.map Sign.now = some t

/-- With a call of this kind all that was learnt on a connection is forgotten. -/
def LifecycleCall.forgets : LifecycleCall → Bool
  | .connectFinished _ | .disconnected _ => true
  | _ => false

namespace Engine

variable {e : Engine} {m : Message} {t : Turn}

/-! ### What handling does to keepalive -/

/-- What is no sign of life tells nothing of one. -/
theorem Upshot.vitals (h : Upshot e m t) (hwelcome : ¬ m.IsWelcome) (hanswer : ¬ m.IsAnswer) :
    t.engine.link.vitals = e.link.vitals := by
  induction h with
  | remark h => exact h.vitals
  | welcome now hm hcount => exact absurd ⟨hm, hcount⟩ hwelcome
  | answer now trip hm hcount => exact absurd ⟨hm, hcount⟩ hanswer
  | nick hm hself => rfl
  | retry hm hregistered => rfl
  | thenRemark first second ih => exact second.vitals.trans ih

/-- The server welcomes the client. -/
theorem engine_of_welcome (hm : m.IsWelcome) (now : Instant) :
    (e.handleMessage m now).engine = registeredAs (m.arg 0) now e := by
  have hrequired : m.require ((Route.numeric 1).arity e.link.registered) = .ok () :=
    Message.require_eq_ok_iff.mpr hm.2
  rw [handleMessage, hm.route, hrequired]
  rfl

/-- An answer is handled as one. -/
theorem handleMessage_of_answer (hm : m.IsAnswer) (e : Engine) (now : Instant) :
    e.handleMessage m now = e.pong m now := by
  have hroute : Route.ofMessage m = .pong := Message.route_of_command hm.1 rfl
  have hrequired : m.require (Route.pong.arity e.link.registered) = .ok () :=
    Message.require_eq_ok_iff.mpr hm.2
  rw [handleMessage, hroute, hrequired]
  rfl

/-- The server answers. -/
theorem engine_of_answer (hm : m.IsAnswer) (now : Instant) :
    (e.handleMessage m now).engine =
      { e with link := noteAnswer now (e.roundTrip? m.lastArg now) e.link } := by
  rw [handleMessage_of_answer hm]
  rfl

/-- A message does to keepalive what the sign of life does that it is. -/
theorem keepalive_handleMessage (e : Engine) (m : Message) (now : Instant) :
    (e.handleMessage m now).engine.link.keepalive =
      ((m.sign? now).map (·.note e.link.keepalive)).getD e.link.keepalive := by
  rw [Message.sign?]
  split_ifs with hwelcome hanswer
  · rw [engine_of_welcome hwelcome]
    rfl
  · rw [engine_of_answer hanswer]
    rfl
  · exact congrArg Vitals.keepalive ((e.upshot_handleMessage m now).vitals hwelcome hanswer)

/-! ### What calls do to it -/

theorem link_afterword (e : Engine) (b : Answer) (c : LifecycleCall) (e' : Engine) :
    (e.afterword b c e').engine.link = if c.forgets then {} else e'.link := by
  cases c with
  | connectFinished now => exact congrArg Engine.link (e'.engine_beginConnection now)
  | connectFailed reason =>
    rw [afterword]
    cases b.progress <;> rfl
  | disconnected reason =>
    rw [afterword]
    cases b.progress <;> rfl
  | _ => rfl

/-- A call leaves what was learnt on the connection, or the connection is over with all of it. -/
theorem link_call {c : LifecycleCall} {a : Answer} (h : e.call c = .ok a) :
    a.turn.engine.link = if c.forgets then {} else e.link := by
  cases hc : c.action? with
  | some action =>
    obtain ⟨-, row, -, rfl⟩ := (call_eq_ok_iff hc).mp h
    exact e.link_afterword (e.taken action row) c _
  | none =>
    have hforgets : c.forgets = false := by
      cases c <;> first | rfl | exact absurd hc (by simp [LifecycleCall.action?])
    rw [hforgets, if_neg Bool.false_ne_true]
    rcases call_of_no_action hc h with hengine | ⟨row, -, -, rfl⟩
    · rw [hengine]
    · rfl

/-- An operation does to keepalive what the sign of life does that it brings; without one it
leaves keepalive as it is or stops it. -/
theorem keepalive_turn (e : Engine) (op : Operation) :
    (e.turn op).engine.link.keepalive =
        (op.sign?.map (·.note e.link.keepalive)).getD e.link.keepalive ∨
      op.sign? = none ∧ (e.turn op).engine.link.keepalive = none := by
  cases op with
  | call c =>
    rw [turn]
    cases hcall : e.call c with
    | error refusal => exact .inl rfl
    | ok a =>
      have hlink := link_call hcall
      split_ifs at hlink
      · exact .inr ⟨rfl, congrArg Link.keepalive hlink⟩
      · exact .inl (congrArg Link.keepalive hlink)
  | message m now => exact .inl (e.keepalive_handleMessage m now)
  | line text now =>
    rw [turn, handleLine, Operation.sign?]
    cases Message.parse text with
    | error cause => exact .inl rfl
    | ok m => exact .inl (e.keepalive_handleMessage m now)
  | undecodable cause => exact .inl rfl
  | send r => exact .inl rfl
  | pollOutgoing => exact .inl rfl
  | pollEffect => exact .inl rfl

/-! ### The epoch of a connection -/

theorem epoch_afterword (e : Engine) (b : Answer) (c : LifecycleCall) (e' : Engine) :
    (e.afterword b c e').engine.epoch = c.opens?.getD e'.epoch := by
  rcases e.engine_afterword b c e' with ⟨now, hopens, h⟩ | ⟨hopens, h | h⟩
  · rw [h, hopens, Option.getD_some]
  · rw [h, hopens, Option.getD_none]
  · rw [h, hopens, Option.getD_none]

/-- Only the call that opens a connection sets the epoch. -/
theorem epoch_call {c : LifecycleCall} {a : Answer} (h : e.call c = .ok a) :
    a.turn.engine.epoch = c.opens?.getD e.epoch := by
  have hopens : c.action? = none → c.opens? = none := by
    intro hc
    cases c with
    | connectFinished now => exact absurd hc (by simp [LifecycleCall.action?])
    | _ => rfl
  rcases call_cases h with ⟨action, row, -, -, rfl⟩ | ⟨row, hc, -, rfl⟩ | ⟨hc, -, hresponse⟩
  · exact e.epoch_afterword (e.taken action row) c _
  · rw [hopens hc]
    rfl
  · rw [hopens hc]
    exact congrArg Life.epoch hresponse.life

end Engine

/-- When the connection was made that an act opens, if it opens one. -/
def Act.opened? (a : Act) : Option Instant :=
  match a.op with
  | .call c => (a.engine.call c).toOption.bind fun _ => c.opens?
  | _ => none

/-- The epoch is that of the connection that was opened last. -/
theorem Act.epoch_after (a : Act) : a.after.epoch = a.opened?.getD a.engine.epoch := by
  obtain ⟨e, op⟩ := a
  cases op with
  | call c =>
    cases hcall : e.call c with
    | error refusal =>
      have hopened : opened? ⟨e, .call c⟩ = none := by
        simp only [opened?, hcall, Except.toOption, Option.bind_none]
      rw [(after_of_refused hcall).1, hopened]
      rfl
    | ok a =>
      have hopened : opened? ⟨e, .call c⟩ = c.opens? := by
        simp only [opened?, hcall, Except.toOption, Option.bind_some]
      rw [(after_of_call hcall).1, hopened]
      exact Engine.epoch_call hcall
  | line line now => exact congrArg Life.epoch (e.life_handleLine line now)
  | message m now => exact congrArg Life.epoch (e.life_handleMessage m now)
  | _ => rfl

/-! ### The last sign of life -/

theorem lastHeard_welcome (signs : List Sign) (now : Instant) :
    LastHeard (signs ++ [.welcome now]) now :=
  ⟨signs, now, [], rfl, fun sign hsign => absurd hsign List.not_mem_nil, by simp [Sign.now]⟩

theorem LastHeard.answer {signs : List Sign} {t : Instant} (h : LastHeard signs t)
    (now : Instant) : LastHeard (signs ++ [.answer now]) now := by
  obtain ⟨earlier, start, later, rfl, hlater, -⟩ := h
  refine ⟨earlier, start, later ++ [.answer now], by simp, ?_, ?_⟩
  · rw [List.forall_mem_append]
    exact ⟨hlater, by simp⟩
  · rw [List.getLast?_append]
    rfl

namespace Session

variable {σ : Type} {s : Session σ}

/-- As long as keepalive runs, it counts from the last sign of life. -/
theorem lastHeard_run {signs : List Sign}
    (h : ∀ t, s.engine.link.keepalive = some t → LastHeard signs t) (ops : List Operation)
    {t : Instant} (ht : (s.run ops).engine.link.keepalive = some t) :
    LastHeard (signs ++ ops.filterMap Operation.sign?) t := by
  induction ops generalizing s signs with
  | nil =>
    rw [List.filterMap_nil, List.append_nil]
    exact h t ht
  | cons op ops ih =>
    have hop := s.engine.keepalive_turn op
    rw [← s.engine_operate op] at hop
    cases hsign : op.sign? with
    | none =>
      rw [List.filterMap_cons_none hsign]
      refine ih (s := s.operate op) (fun t ht => ?_) ht
      rcases hop with hop | ⟨-, hop⟩
      · rw [hop, hsign] at ht
        exact h t ht
      · exact absurd (hop.symm.trans ht) (by simp)
    | some sign =>
      rw [List.filterMap_cons_some hsign, List.append_cons]
      refine ih (s := s.operate op) (fun t ht => ?_) ht
      rcases hop with hop | ⟨hnone, -⟩
      · rw [hop, hsign] at ht
        cases sign with
        | welcome now =>
          obtain rfl := Option.some_inj.mp ht
          exact lastHeard_welcome signs now
        | answer now =>
          obtain ⟨t', ht', rfl⟩ := Option.map_eq_some_iff.mp ht
          exact (h t' ht').answer now
      · exact absurd (hsign.symm.trans hnone) (by simp)

/-- The epoch of a session is that of the connection that was opened last. -/
theorem epoch_run (s : Session σ) (ops : List Operation) :
    (s.run ops).engine.epoch =
      (((s.acts ops).filterMap Act.opened?).getLast?).getD s.engine.epoch := by
  induction ops generalizing s with
  | nil => rfl
  | cons op ops ih =>
    have hop : (s.operate op).engine.epoch = _ :=
      (congrArg Engine.epoch (s.engine_operate op)).trans (Act.epoch_after ⟨s.engine, op⟩)
    have hrest : (s.run (op :: ops)).engine.epoch = ((s.operate op).run ops).engine.epoch := rfl
    rw [hrest, ih, hop, acts]
    cases hopened : Act.opened? ⟨s.engine, op⟩ with
    | none => rw [List.filterMap_cons_none hopened, Option.getD_none]
    | some now =>
      rw [List.filterMap_cons_some hopened, List.getLast?_cons, Option.getD_some, Option.getD_some]

/-! ### When keepalive runs out -/

/-- The server is given up. -/
def abandoned (s : Session σ) : Session σ :=
  { s with engine := { s.engine with lastAction := some .reconnect } }.queueEffect .forceClose

/-- What keepalive does when it runs out on a connection. -/
theorem call_keepaliveTick {t : Instant} (hs : s.engine.Open)
    (ht : s.engine.link.keepalive = some t) (now : Instant) :
    s.call (.keepaliveTick now) = .ok (.ongoing,
      if s.engine.config.timing.pingTimeout.nanos < (now.since t).nanos then s.abandoned
      else s.queueLine (pingLine (now.millisSince s.engine.epoch))) := by
  rw [Session.call, Engine.call, Engine.keepaliveTick, if_neg (not_not.mpr hs.1), ht]
  dsimp only
  by_cases hsilent : s.engine.config.timing.pingTimeout.nanos < (now.since t).nanos
  · have hrow : transition? s.engine.state .reconnect =
        some ⟨.connected, some .forceClose, false⟩ := by
      rw [hs.1]
      rfl
    rw [if_pos hsilent, if_pos hsilent, Engine.apply_eq_ok_iff.mpr ⟨hs.2, _, hrow, rfl⟩]
    have hturn : (s.engine.taken .reconnect ⟨.connected, some .forceClose, false⟩).turn =
        ⟨{ s.engine with lastAction := some .reconnect }, [.effect .forceClose]⟩ := by
      show Turn.mk (Engine.mk _ .connected _ s.engine.backoff _ _ _ _ false)
        [.effect .forceClose] = _
      rw [← hs.1, ← hs.2]
    dsimp only
    rw [hturn]
    rfl
  · rw [if_neg hsilent, if_neg hsilent, Engine.ongoing, Engine.queue_of_open hs,
      lines_ping (now.millisSince_lt s.engine.epoch)]
    rfl

/-- Without a connection or without keepalive, nothing happens. -/
theorem call_keepaliveTick_of_idle (h : s.engine.state ≠ .connected ∨ s.engine.link.keepalive = none)
    (now : Instant) : s.call (.keepaliveTick now) = .ok (.ongoing, s) := by
  have hstay : s.engine.keepaliveTick now = .ok (Engine.ongoing s.engine.stay) := by
    rw [Engine.keepaliveTick]
    split_ifs with hstate
    · rfl
    · rw [h.resolve_left hstate]
  rw [Session.call, Engine.call, hstay]
  rfl

end Session

/-! ### A server that was given up -/

/-- There is a connection, and its server was given up. -/
structure Engine.GaveUp (e : Engine) : Prop where
  isOpen : e.Open
  last : e.lastAction = some .reconnect

/-- As long as no other action is taken, a server that was given up stays given up. -/
theorem Engine.GaveUp.turn {e : Engine} (h : e.GaveUp) {op : Operation}
    (hop : Act.action? ⟨e, op⟩ = none) : (e.turn op).engine.GaveUp := by
  have hkept : ∀ {t : Turn}, Response e t → t.engine.GaveUp := fun ht =>
    ⟨(open_of_life ht.life).mpr h.isOpen, (congrArg Life.lastAction ht.life).trans h.last⟩
  rcases e.turn_cases op with ⟨c, a, rfl, ha, hturn⟩ | hresponse
  · rw [hturn]
    rcases call_cases ha with ⟨action, row, hc, -, rfl⟩ | ⟨row, -, hrow, rfl⟩ | ⟨-, -, hresponse⟩
    · exact absurd ((Act.after_of_call ha).2.symm.trans hop) (by simp [hc])
    · rw [h.isOpen.1] at hrow
      obtain rfl := Option.some_inj.mp hrow
      exact ⟨⟨rfl, rfl⟩, rfl⟩
    · exact hkept hresponse
  · exact hkept hresponse

namespace Session

variable {σ : Type} {s : Session σ}

theorem gaveUp_run (h : s.engine.GaveUp) {ops : List Operation}
    (hops : ∀ a ∈ s.acts ops, a.action? = none) : (s.run ops).engine.GaveUp := by
  induction ops generalizing s with
  | nil => exact h
  | cons op ops ih =>
    rw [acts, List.forall_mem_cons] at hops
    have hop : (s.operate op).engine.GaveUp := by
      rw [engine_operate]
      exact h.turn hops.1
    exact ih hop hops.2

/-- The loss of a connection whose server was given up is put down to that. -/
theorem lost_of_gaveUp (h : s.engine.GaveUp) (reason : String) :
    ∃ retryIn after, s.call (.disconnected reason) = .ok (.ongoing, after) ∧
      after.reported = s.reported ++ [.disconnected "Ping timed out" retryIn] := by
  have hrow : transition? s.engine.state .disconnectFinish =
      some ⟨.reconnecting, some .armBackoff, false⟩ := by
    rw [h.isOpen.1]
    rfl
  have hcall := call_of_row (c := .disconnected reason) rfl h.isOpen.2 hrow
  obtain ⟨b, hb, hongoing, hafter⟩ := answer_of_call hcall
  have htold := (Engine.tells_of_news rfl hb hongoing).1
  rw [Engine.lossReason, if_pos h.last] at htold
  refine ⟨b.retryIn, _, hcall, ?_⟩
  rw [hafter, reported_perform, htold]

/-- **When keepalive gives the server up, and what it comes to.**  Without a connection, or while
keepalive does not run, nothing happens when it runs out.  Otherwise it counts from the last sign
of life since it was started.  If the server was silent for longer than the timeout it is given
up, with one order and no line, and if no other action comes before the loss of the connection
the handler is told that the server did not answer.  If it was not, one line is queued that asks
for a sign of life, with the milliseconds since the connection was made, and nothing else
changes. -/
theorem keepalive_of_run (id : SessionId) (config : Config) (begun : Instant)
    (handler : Handler σ) (memory : σ) (ops : List Operation) (now : Instant) :
    let fresh := start id config begun handler memory
    let s := fresh.run ops
    (s.engine.state ≠ .connected ∨ s.engine.link.keepalive = none →
      s.call (.keepaliveTick now) = .ok (.ongoing, s)) ∧
    s.engine.epoch = (((fresh.acts ops).filterMap Act.opened?).getLast?).getD begun ∧
    ∀ t, s.engine.state = .connected → s.engine.link.keepalive = some t →
      LastHeard (ops.filterMap Operation.sign?) t ∧
      s.call (.keepaliveTick now) = .ok (.ongoing,
        if config.timing.pingTimeout.nanos < (now.since t).nanos then s.abandoned
        else s.queueLine (pingLine (now.millisSince s.engine.epoch))) ∧
      ∀ later reason, (∀ a ∈ s.abandoned.acts later, a.action? = none) →
        ∃ retryIn after,
          (s.abandoned.run later).call (.disconnected reason) = .ok (.ongoing, after) ∧
          after.reported =
            (s.abandoned.run later).reported ++ [.disconnected "Ping timed out" retryIn] := by
  intro fresh s
  refine ⟨fun hidle => call_keepaliveTick_of_idle hidle now, epoch_run fresh ops, ?_⟩
  intro t hstate ht
  have hreachable : s.Reachable config := ⟨id, begun, handler, memory, ops, rfl⟩
  have hopen : s.engine.Open := by
    refine ⟨hstate, Bool.eq_false_iff.mpr fun hfreed => ?_⟩
    exact absurd (hstate.symm.trans (hreachable.disconnected_of_freed hfreed)) (by decide)
  have hconfig : s.engine.config = config := congrArg Prod.fst hreachable.settings_eq
  have hgaveUp : s.abandoned.engine.GaveUp := ⟨hopen, rfl⟩
  refine ⟨?_, ?_, fun later reason hlater => lost_of_gaveUp (gaveUp_run hgaveUp hlater) reason⟩
  · have hfresh : ∀ t, fresh.engine.link.keepalive = some t → LastHeard [] t :=
      fun t hnone => absurd hnone (by simp [fresh, start, Engine.start])
    exact lastHeard_run hfresh ops ht
  · have hcall := call_keepaliveTick hopen ht now
    rw [hconfig] at hcall
    exact hcall

/-- A server that last gave a sign of life after ten seconds.  A minute later it is asked for one,
and a moment after that it is given up. -/
theorem keepalive_of_run_of_silence :
    let ops : List Operation := [.call .connect, .call (.connectFinished ⟨0⟩),
      .message { command := "001", middles := ["me"] } ⟨1 * nanosPerSecond⟩,
      .message { command := "PONG", middles := ["1000"] } ⟨10 * nanosPerSecond⟩]
    let s : Session Unit := (start ⟨1⟩ (Config.forServer "host" 6667 "me") ⟨0⟩ .idle ()).run ops
    LastHeard (ops.filterMap Operation.sign?) ⟨10 * nanosPerSecond⟩ ∧
      s.call (.keepaliveTick ⟨70 * nanosPerSecond⟩) =
        .ok (.ongoing, s.queueLine "PING :70000\r\n") ∧
      s.call (.keepaliveTick ⟨70 * nanosPerSecond + 1⟩) = .ok (.ongoing, s.abandoned) ∧
      ∃ retryIn after, s.abandoned.call (.disconnected "closed") = .ok (.ongoing, after) ∧
        after.reported = s.abandoned.reported ++ [.disconnected "Ping timed out" retryIn] := by
  intro ops s
  have hstate : s.engine.state = .connected := by decide +kernel
  have ht : s.engine.link.keepalive = some ⟨10 * nanosPerSecond⟩ := by decide +kernel
  obtain ⟨-, -, hpatient⟩ := keepalive_of_run ⟨1⟩ (Config.forServer "host" 6667 "me") ⟨0⟩ .idle ()
    ops ⟨70 * nanosPerSecond⟩
  obtain ⟨-, -, hsilent⟩ := keepalive_of_run ⟨1⟩ (Config.forServer "host" 6667 "me") ⟨0⟩ .idle ()
    ops ⟨70 * nanosPerSecond + 1⟩
  obtain ⟨hheard, hasks, -⟩ := hpatient _ hstate ht
  obtain ⟨-, hgives, hlost⟩ := hsilent _ hstate ht
  rw [if_neg (by decide +kernel)] at hasks
  rw [if_pos (by decide +kernel)] at hgives
  refine ⟨hheard, ?_, hgives, hlost [] "closed" fun a ha => absurd ha List.not_mem_nil⟩
  have hline : pingLine (Instant.millisSince ⟨70 * nanosPerSecond⟩ s.engine.epoch) =
      "PING :70000\r\n" := by decide +kernel
  rw [← hline]
  exact hasks

end Session

end Irc
