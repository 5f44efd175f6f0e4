/-
What a message is reported as.

A message is handled by its route, and nothing is reported about it but events of that route.
A message that lacks a parameter of its route is not handled: it is reported as such, and that
is all that is done about it.

* **`Message.required`**, **`Route.arity_ofMessage`** — how many parameters a message needs;
* **`Route.Reports`** — the events of a route;
* **`Engine.follows_route`** — what is handled is reported as an event of its route;
* **`Engine.handleMessage_cases`** — what becomes of a message;
* **`Engine.events_call`** — lifecycle calls report nothing received.
-/
import Irc.Proofs.Answers

namespace Irc

open Outgoing Capability

/-! ### Parameters -/

/-- How many parameters a message needs.  A nickname that is turned down matters only to a client
that is not registered yet. -/
def Message.required (registered : Bool) (m : Message) : Nat :=
  if m.command ∈ ["PRIVMSG", "NOTICE", "TOPIC", "KICK", "INVITE", "CAP"] ∨
      m.numeric? = some 221 ∨ (m.numeric? = some 433 ∧ registered = false) then 2
  else if m.command ∈ ["JOIN", "PART", "NICK", "MODE", "AUTHENTICATE", "PING", "PONG", "TAGMSG"] ∨
      m.numeric? = some 1 then 1
  else 0

theorem Reply.ofCode?_eq_some_iff {code : Nat} {r : Reply} :
    ofCode? code = some r ↔ code = r.code := by
  constructor
  · exact fun h => (code_of_ofCode? h).symm
  · rintro rfl
    cases r <;> rfl

theorem Reply.ne_code_of_ofCode? {code : Nat} (h : ofCode? code = none) (r : Reply) :
    code ≠ r.code := fun hcode =>
  absurd (h.symm.trans (ofCode?_eq_some_iff.mpr hcode)) (by simp)

/-- A numeric reply is no command with a word. -/
theorem Message.command_ne_of_numeric {m : Message} {code : Nat} {word : String} {route : Route}
    (h : m.numeric? = some code) (hword : route.word? = some word) : m.command ≠ word := by
  intro hcommand
  have hroute := route_of_command hcommand hword
  rw [Route.ofMessage, h] at hroute
  subst hroute
  exact absurd hword (by simp [Route.word?])

/-- The parameters that a route needs are those that its messages need. -/
theorem Route.arity_ofMessage (registered : Bool) (m : Message) :
    (ofMessage m).arity registered = m.required registered := by
  rw [ofMessage, Message.required]
  cases hcode : m.numeric? with
  | none =>
    simp only [ofWord]
    split <;> simp_all [arity]
  | some code =>
    have htwo : ∀ word ∈ ["PRIVMSG", "NOTICE", "TOPIC", "KICK", "INVITE", "CAP"],
        (ofWord word).word? = some word := by decide
    have hone : ∀ word ∈ ["JOIN", "PART", "NICK", "MODE", "AUTHENTICATE", "PING", "PONG", "TAGMSG"],
        (ofWord word).word? = some word := by decide
    have hword : ∀ {words : List String}, (∀ word ∈ words, (ofWord word).word? = some word) →
        m.command ∉ words :=
      fun h hmem => Message.command_ne_of_numeric hcode (h _ hmem) rfl
    simp only [hword htwo, hword hone, false_or, Option.some_inj, arity]
    cases hreply : Reply.ofCode? code with
    | none =>
      have hcodes := Reply.ne_code_of_ofCode? hreply
      have h₁ := hcodes .welcome
      have h₂ := hcodes .userModeIs
      have h₃ := hcodes .nicknameInUse
      simp_all [Reply.code]
    | some reply =>
      obtain rfl := Reply.ofCode?_eq_some_iff.mp hreply
      cases reply <;> cases registered <;> rfl

/-! ### What is reported -/

/-- The events of a route. -/
def Route.Reports (route : Route) : Event → Prop
  | .connected | .connectFailed .. | .disconnected .. => False
  | .welcome .. => route = .numeric 1
  | .numeric _ code _ => route = .numeric code
  | .sasl _ => route = .cap ∨ ∃ code, route = .numeric code
  | .capability .. => route = .cap
  | .anomaly (.unknownCapability _) => route = .cap
  | .anomaly _ => False
  | .unknown .. => route = .cap ∨ route = .unknown
  | .userMode .. => route = .mode ∨ route = .numeric 221
  | .channelMode .. => route = .mode
  | .channelMessage .. | .privateMessage .. | .ctcpRequest .. => route = .privmsg
  | .channelNotice .. | .privateNotice .. | .ctcpResponse .. => route = .notice
  | .nick .. => route = .nick
  | .quit .. => route = .quit
  | .join .. => route = .join
  | .part .. => route = .part
  | .topic .. => route = .topic
  | .kick .. => route = .kick
  | .invite .. => route = .invite
  | .ping .. => route = .ping
  | .pong .. => route = .pong
  | .error _ => route = .error
  | .tagMessage .. => route = .tagmsg

/-- If the output is a report, its event is one of the route. -/
def Output.Follows (route : Route) : Output → Prop
  | .report event _ _ => route.Reports event
  | _ => True

section Follows

variable {route : Route}

@[simp] theorem Output.follows_report (event : Event) (tags : List Tag) (seen : Engine) :
    (Output.report event tags seen).Follows route ↔ route.Reports event := Iff.rfl

@[simp] theorem Output.follows_effect (effect : Effect) :
    (Output.effect effect).Follows route := trivial

@[simp] theorem Engine.puts_queue_follows (e : Engine) (r : Request) :
    (e.queue r).Puts (Output.Follows route) := puts_queue (fun _ _ => trivial) e r

@[simp] theorem Turn.puts_queue_follows (t : Turn) (r : Request) :
    (t.queue r).Puts (Output.Follows route) ↔ t.Puts (Output.Follows route) := by
  rw [queue, puts_andThen, and_iff_left (t.engine.puts_queue_follows r)]

theorem Turn.Puts.follows {t : Turn} (h : t.Puts (Output.Follows route)) :
    ∀ event ∈ t.events, route.Reports event := by
  intro event hevent
  obtain ⟨tags, seen, ho⟩ := mem_events.mp hevent
  exact h _ ho

namespace Engine

/-! ### Negotiation and login -/

theorem follows_finishNegotiation (e : Engine) :
    e.finishNegotiation.Puts (Output.Follows route) := by
  rw [finishNegotiation]
  split_ifs <;> simp

/-- The end of the negotiation may be reported as the end of the login. -/
theorem follows_endNegotiation (hroute : ∀ outcome, route.Reports (.sasl outcome)) (e : Engine) :
    e.endNegotiation.Puts (Output.Follows route) := by
  rw [endNegotiation]
  split_ifs
  · exact e.puts_stay
  · exact e.follows_finishNegotiation
  · simp [hroute, follows_finishNegotiation]
  · exact e.follows_finishNegotiation
  · exact e.puts_stay

theorem follows_requestPending (e : Engine) : e.requestPending.Puts (Output.Follows route) := by
  rw [requestPending]
  split <;> simp

theorem follows_startSasl (e : Engine) : e.startSasl.Puts (Output.Follows route) := by
  rw [startSasl]
  split_ifs <;> simp

theorem follows_acknowledge (e : Engine) (entry : String) :
    (e.acknowledge entry).Puts (Output.Follows .cap) := by
  rw [acknowledge]
  split
  · exact (e.puts_report _ _).mpr rfl
  · dsimp only
    split_ifs <;> simp [follows_startSasl]

theorem follows_deny (e : Engine) (name : String) :
    (e.deny name).Puts (Output.Follows .cap) := by
  rw [deny]
  split
  · exact (e.puts_report _ _).mpr rfl
  · simp

theorem follows_revoke (e : Engine) (name : String) :
    (e.revoke name).Puts (Output.Follows .cap) := by
  rw [revoke]
  split
  · exact (e.puts_report _ _).mpr rfl
  · simp

theorem puts_forNames {P : Output → Prop} {turn : Engine → String → Turn}
    (h : ∀ e name, (turn e name).Puts P) (e : Engine) (list : String) :
    (e.forNames list turn).Puts P := by
  rw [forNames_eq]
  induction parseNames list generalizing e with
  | nil => exact e.puts_stay
  | cons name names ih => exact (Turn.puts_andThen _ _).mpr ⟨h e name, ih _⟩

theorem follows_negotiate (e : Engine) (sub : Subcommand) (list : String) (continued : Bool) :
    (e.negotiate sub list continued).1.Puts (Output.Follows .cap) := by
  cases sub with
  | ls =>
    rw [negotiate]
    split_ifs <;> simp [follows_requestPending]
  | new => simp [negotiate, follows_requestPending]
  | ack => exact puts_forNames follows_acknowledge e list
  | nak => exact puts_forNames follows_deny e list
  | del => exact puts_forNames follows_revoke e list
  | list => exact e.puts_stay
  | req => exact e.puts_stay
  | fin => exact e.puts_stay

theorem follows_capability (e : Engine) (m : Message) :
    (e.capability m).Puts (Output.Follows .cap) := by
  rw [capability]
  split
  · exact (e.puts_report _ _).mpr (.inl rfl)
  · rename_i sub _
    have htold : ∀ list continued,
        ((e.negotiate sub list continued).1.report (.capability sub list continued) m.tags).Puts
          (Output.Follows .cap) := fun list continued =>
      (Turn.puts_report _ _ _).mpr ⟨e.follows_negotiate sub list continued, rfl⟩
    dsimp only
    generalize (if isContinued sub m = true then m.arg 3 else m.arg 2) = list
    split_ifs
    · exact (Turn.puts_andThen _ _).mpr
        ⟨htold _ _, follows_endNegotiation (fun _ => .inl rfl) _⟩
    · exact htold _ _

theorem follows_authenticate (e : Engine) (m : Message) :
    (e.authenticate m).Puts (Output.Follows route) := by
  rw [authenticate]
  split_ifs
  · exact e.puts_stay
  · split
    · exact e.puts_stay
    · -- one request for every payload
      have hqueued : ∀ (payloads : List String) (t : Turn), t.Puts (Output.Follows route) →
          (payloads.foldl (fun t payload => t.queue (.authenticate payload)) t).Puts
            (Output.Follows route) := by
        intro payloads
        induction payloads with
        | nil => exact fun t ht => ht
        | cons payload payloads ih =>
          exact fun t ht => ih _ ((t.puts_queue_follows _).mpr ht)
      exact (Turn.puts_learn _ _).mpr (hqueued _ _ e.puts_stay)

/-! ### Replies -/

theorem follows_finishSasl {code : Nat} (e : Engine) (loggedIn : Bool) (outcome : Sasl.Outcome)
    (tags : List Tag) :
    (e.finishSasl loggedIn outcome tags).Puts (Output.Follows (.numeric code)) := by
  have hsasl : ∀ outcome, (Route.numeric code).Reports (.sasl outcome) :=
    fun outcome => .inr ⟨code, rfl⟩
  simp [finishSasl, hsasl, follows_endNegotiation hsasl]

theorem follows_react (e : Engine) (m : Message) (now : Instant) (reply : Reply) :
    (e.react m now reply).Puts (Output.Follows (.numeric reply.code)) := by
  have hsasl : ∀ outcome, (Route.numeric reply.code).Reports (.sasl outcome) :=
    fun outcome => .inr ⟨reply.code, rfl⟩
  have hfinished : ∀ loggedIn outcome, (e.finishSasl loggedIn outcome m.tags).Puts
      (Output.Follows (.numeric reply.code)) :=
    fun loggedIn outcome => e.follows_finishSasl loggedIn outcome m.tags
  cases reply with
  | welcome => simp [react, welcome, Route.Reports, Reply.code]
  | nicknameInUse =>
    rw [react]
    split_ifs
    · exact e.puts_stay
    · simp [retryNickname]
  | loggedIn => exact hfinished _ _
  | loggedOut => simp [react, hsasl]
  | saslSuccess => exact hfinished _ _
  | nickLocked => exact hfinished _ _
  | saslFail => exact hfinished _ _
  | saslTooLong => exact hfinished _ _
  | saslAborted => exact hfinished _ _
  | saslMechanisms => exact hfinished _ _
  | saslAlready => simp [react, hsasl]
  | _ => exact e.puts_stay

theorem follows_numeric (e : Engine) (m : Message) (code : Nat) (now : Instant) :
    (e.numeric m code now).Puts (Output.Follows (.numeric code)) := by
  rw [numeric]
  split
  · rename_i hreply
    obtain rfl := Reply.ofCode?_eq_some_iff.mp hreply
    exact (e.puts_report _ _).mpr (.inr rfl)
  · rename_i reply _ hreply
    obtain rfl := Reply.ofCode?_eq_some_iff.mp hreply
    exact (Turn.puts_report _ _ _).mpr ⟨e.follows_react m now reply, rfl⟩
  · exact (e.puts_report _ _).mpr rfl

/-! ### All routes -/

theorem reports_textEvent (e : Engine) (m : Message) {ctcp : Actor → String → Ctcp → Event}
    {channel direct : Actor → String → String → Event}
    (hctcp : ∀ actor target text, route.Reports (ctcp actor target text))
    (hchannel : ∀ actor target text, route.Reports (channel actor target text))
    (hdirect : ∀ actor target text, route.Reports (direct actor target text)) :
    route.Reports (e.textEvent m ctcp channel direct) := by
  rw [textEvent]
  split
  · exact hctcp _ _ _
  · split_ifs
    · exact hchannel _ _ _
    · exact hdirect _ _ _

/-- **What is handled is reported as an event of its route.** -/
theorem follows_route (e : Engine) (m : Message) (now : Instant) (route : Route) :
    (e.route m now route).Puts (Output.Follows route) := by
  cases route with
  | numeric code => exact e.follows_numeric m code now
  | privmsg =>
    exact (e.puts_report _ _).mpr (e.reports_textEvent m (fun _ _ _ => rfl) (fun _ _ _ => rfl)
      fun _ _ _ => rfl)
  | notice =>
    exact (e.puts_report _ _).mpr (e.reports_textEvent m (fun _ _ _ => rfl) (fun _ _ _ => rfl)
      fun _ _ _ => rfl)
  | mode =>
    refine (e.puts_report _ _).mpr ?_
    rw [Output.follows_report, modeEvent]
    split_ifs
    · exact rfl
    · exact .inl rfl
  | cap => exact e.follows_capability m
  | authenticate => exact e.follows_authenticate m
  | nick => simp [route, nick, Route.Reports]
  | ping => simp [route, ping, Route.Reports]
  | pong => simp [route, pong, Route.Reports]
  | unknown => exact (e.puts_report _ _).mpr (.inr rfl)
  | _ => exact (e.puts_report _ _).mpr rfl

end Engine

end Follows

namespace Engine

/-- **What becomes of a message.**  One that lacks parameters is reported as such, and that is
all; any other takes its route. -/
theorem handleMessage_cases (e : Engine) (m : Message) (now : Instant) :
    (m.argCount < m.required e.link.registered ∧
      e.handleMessage m now =
        e.report (.anomaly (.violation
          ⟨m.command, m.required e.link.registered, m.argCount⟩)) []) ∨
    (m.required e.link.registered ≤ m.argCount ∧
      e.handleMessage m now = e.route m now (Route.ofMessage m)) := by
  rw [handleMessage, Route.arity_ofMessage, Message.require]
  split_ifs with hfew
  · exact .inl ⟨hfew, rfl⟩
  · exact .inr ⟨Nat.le_of_not_lt hfew, rfl⟩

/-! ### Calls -/

@[simp] theorem events_queue (e : Engine) (r : Request) : (e.queue r).events = [] := by
  rw [Turn.events, outputs_queue, List.filterMap_map, List.filterMap_eq_nil_iff]
  exact fun _ _ => rfl

end Engine

@[simp] theorem Turn.events_queue (t : Turn) (r : Request) : (t.queue r).events = t.events := by
  rw [queue, events_andThen, Engine.events_queue, List.append_nil]

theorem Turn.events_foldl_queue {α : Type} (request : α → Request) (items : List α) (t : Turn) :
    (items.foldl (fun t item => t.queue (request item)) t).events = t.events := by
  induction items generalizing t with
  | nil => rfl
  | cons item items ih => rw [List.foldl_cons, ih, events_queue]

namespace Engine

theorem events_register (e : Engine) : e.register.events = [] := by
  rw [register]
  cases e.config.password <;> simp

theorem events_beginConnection (e : Engine) (now : Instant) :
    (e.beginConnection now).events = [.connected] := by
  rw [beginConnection, Turn.events_report, Turn.events_andThen, events_register, List.append_nil]
  exact congrArg (· ++ [Event.connected]) e.events_resetLink

/-- What a call reports is never something received. -/
theorem events_call {e : Engine} {c : LifecycleCall} {a : Answer} (h : e.call c = .ok a) :
    ∀ event ∈ a.turn.events, ¬ event.IsReceived := by
  have hfore : (e.foreword c).events = [] := by
    cases c with
    | quit reason =>
      rw [foreword]
      split_ifs
      · exact e.events_queue _
      · rfl
    | _ => rfl
  have hafter : ∀ b e', ∀ event ∈ (e.afterword b c e').events, ¬ event.IsReceived := by
    intro b e' event hevent
    cases c with
    | connectFinished now =>
      rw [afterword, events_beginConnection, List.mem_singleton] at hevent
      exact hevent ▸ id
    | connectFailed reason =>
      rw [afterword] at hevent
      cases hprogress : b.progress with
      | freed =>
        rw [hprogress] at hevent
        exact absurd hevent List.not_mem_nil
      | ongoing =>
        rw [hprogress] at hevent
        exact List.mem_singleton.mp hevent ▸ id
    | disconnected reason =>
      rw [afterword] at hevent
      cases hprogress : b.progress with
      | freed =>
        rw [hprogress] at hevent
        exact absurd (e'.events_resetLink ▸ hevent) List.not_mem_nil
      | ongoing =>
        rw [hprogress] at hevent
        dsimp only at hevent
        rw [Turn.events_report, events_resetLink, List.nil_append] at hevent
        exact List.mem_singleton.mp hevent ▸ id
    | _ => exact absurd hevent List.not_mem_nil
  cases hc : c.action? with
  | some action =>
    obtain ⟨-, row, -, rfl⟩ := (call_eq_ok_iff hc).mp h
    rw [answer, Turn.events_andThen, hfore, Turn.events_andThen, events_taken]
    exact hafter _ _
  | none =>
    cases c with
    | keepaliveTick now =>
      rcases keepaliveTick_eq_ok h with rfl | ⟨token, rfl⟩ | hgave
      · exact fun _ hevent => absurd hevent List.not_mem_nil
      · rw [ongoing, events_queue]
        exact fun _ hevent => absurd hevent List.not_mem_nil
      · obtain ⟨-, row, -, rfl⟩ := apply_eq_ok_iff.mp hgave
        rw [events_taken]
        exact fun _ hevent => absurd hevent List.not_mem_nil
    | _ => exact absurd hc (by simp [LifecycleCall.action?])

end Engine

end Irc
