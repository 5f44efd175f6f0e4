/-
What a line is told by.

The handler is called once for every received line: with an anomaly if the line is dropped, and
otherwise with the one event that tells of the message.  `Message.Tells` is the list of these
events, by the command of the message and by what the connection calls a channel; the credentials
of a login alone are asked for without a word to the handler.

A few more calls may stand around that event.  A welcome is told before its number, the names of a
capability message that are not known are told before the message, each by itself, and the outcome
of a login may be told on either side.

* **`Message.Tells`**, **`Engine.tells_iff`** — the event that tells of a message;
* **`Engine.events_react`** — what a reply is told by, besides its number;
* **`Engine.events_negotiate`** — the names that are not known;
* **`Message.Told`**, **`Engine.told_route`** — the events around it;
* **`Session.reported_once`** — so it is with every line.
-/
import Irc.Proofs.Backoff
import Irc.Proofs.CapHistory
import Irc.Proofs.Reports

namespace Irc

open Outgoing Capability

variable {m : Message} {e : Engine} {now : Instant} {event : Event} {route : Route}

/-! ### The event that tells of a message -/

/-- A target starts like the name of a channel. -/
def Link.StartsChannel (l : Link) (target : String) : Prop :=
  ∃ c ∈ l.chantypes.toList, target.toList.head? = some c

namespace Message

/-- The events of a text for a target. -/
inductive TellsText (m : Message) (l : Link) (ctcp : Actor → String → Ctcp → Event)
    (channel direct : Actor → String → String → Event) : Event → Prop where
  | ctcp {inner : Ctcp} (h : Ctcp.parse? m.lastArg = some inner) :
      m.TellsText l ctcp channel direct (ctcp (Actor.ofMessage m) (m.arg 0) inner)
  | channel (hplain : Ctcp.parse? m.lastArg = none) (hchannel : l.StartsChannel (m.arg 0)) :
      m.TellsText l ctcp channel direct (channel (Actor.ofMessage m) (m.arg 0) m.lastArg)
  | direct (hplain : Ctcp.parse? m.lastArg = none) (hdirect : ¬ l.StartsChannel (m.arg 0)) :
      m.TellsText l ctcp channel direct (direct (Actor.ofMessage m) (m.arg 0) m.lastArg)

/-- The event that tells of a message with all the parameters it needs. -/
inductive Tells (m : Message) (e : Engine) (now : Instant) : Event → Prop where
  /-- The client's own modes are told as a mode change and not as a number. -/
  | ownModes (h : m.numeric? = some 221) :
      m.Tells e now (.userMode (Actor.ofMessage m) (m.arg 0) (m.argsFrom 1))
  | numeric {code : Nat} (h : m.numeric? = some code) (hcode : code ≠ 221) :
      m.Tells e now (.numeric (Actor.ofMessage m) code m.args)
  | privmsg {event : Event} (h : m.command = "PRIVMSG")
      (htext : m.TellsText e.link .ctcpRequest .channelMessage .privateMessage event) :
      m.Tells e now event
  | notice {event : Event} (h : m.command = "NOTICE")
      (htext : m.TellsText e.link .ctcpResponse .channelNotice .privateNotice event) :
      m.Tells e now event
  | join (h : m.command = "JOIN") : m.Tells e now (.join (Actor.ofMessage m) (m.arg 0))
  | part (h : m.command = "PART") :
      m.Tells e now (.part (Actor.ofMessage m) (m.arg 0) (m.arg? 1))
  | quit (h : m.command = "QUIT") : m.Tells e now (.quit (Actor.ofMessage m) (m.arg? 0))
  | nick (h : m.command = "NICK") : m.Tells e now (.nick (Actor.ofMessage m) (m.arg 0))
  | channelMode (h : m.command = "MODE") (hchannel : e.link.StartsChannel (m.arg 0)) :
      m.Tells e now (.channelMode (Actor.ofMessage m) (m.arg 0) (m.argsFrom 1))
  | userMode (h : m.command = "MODE") (huser : ¬ e.link.StartsChannel (m.arg 0)) :
      m.Tells e now (.userMode (Actor.ofMessage m) (m.arg 0) (m.argsFrom 1))
  | topic (h : m.command = "TOPIC") :
      m.Tells e now (.topic (Actor.ofMessage m) (m.arg 0) (m.arg 1))
  | kick (h : m.command = "KICK") :
      m.Tells e now (.kick (Actor.ofMessage m) (m.arg 0) (m.arg 1) (m.arg? 2))
  | invite (h : m.command = "INVITE") :
      m.Tells e now (.invite (Actor.ofMessage m) (m.arg 0) (m.arg 1))
  | capability {sub : Subcommand} (h : m.command = "CAP")
      (hsub : Subcommand.parse? (m.arg 1) = some sub) :
      m.Tells e now (.capability sub
        (if Engine.isContinued sub m then m.arg 3 else m.arg 2) (Engine.isContinued sub m))
  | ping (h : m.command = "PING") : m.Tells e now (.ping (Actor.ofMessage m) m.lastArg)
  | pong (h : m.command = "PONG") :
      m.Tells e now (.pong (Actor.ofMessage m) m.lastArg (e.roundTrip? m.lastArg now))
  | error (h : m.command = "ERROR") : m.Tells e now (.error m.lastArg)
  | tagmsg (h : m.command = "TAGMSG") :
      m.Tells e now (.tagMessage (Actor.ofMessage m) (m.arg 0))
  | strange (h : m.command = "CAP") (hsub : Subcommand.parse? (m.arg 1) = none) :
      m.Tells e now (.unknown (Actor.ofMessage m) m.command m.args)
  | unknown (hnumeric : m.numeric? = none)
      (hword : m.command ∉ ["PRIVMSG", "NOTICE", "JOIN", "PART", "QUIT", "NICK", "MODE", "TOPIC",
        "KICK", "INVITE", "CAP", "AUTHENTICATE", "PING", "PONG", "ERROR", "TAGMSG"]) :
      m.Tells e now (.unknown (Actor.ofMessage m) m.command m.args)

/-- The messages without a route are those with an unknown word. -/
theorem route_eq_unknown_iff :
    Route.ofMessage m = .unknown ↔ m.numeric? = none ∧
      m.command ∉ ["PRIVMSG", "NOTICE", "JOIN", "PART", "QUIT", "NICK", "MODE", "TOPIC", "KICK",
        "INVITE", "CAP", "AUTHENTICATE", "PING", "PONG", "ERROR", "TAGMSG"] := by
  rw [Route.ofMessage]
  cases m.numeric? with
  | some code => simp
  | none =>
    simp only [Route.ofWord]
    split <;> simp_all

end Message

namespace Engine

theorem isChannel_iff {target : String} :
    e.isChannel target = true ↔ e.link.StartsChannel target := by
  rw [isChannel, Link.StartsChannel]
  cases target.toList with
  | nil => simp
  | cons c rest => simp

theorem tellsText_iff {ctcp : Actor → String → Ctcp → Event}
    {channel direct : Actor → String → String → Event} :
    m.TellsText e.link ctcp channel direct event ↔
      e.textEvent m ctcp channel direct = event := by
  rw [textEvent]
  constructor
  · rintro (hinner | ⟨hplain, hchannel⟩ | ⟨hplain, hdirect⟩)
    · rw [hinner]
    · rw [hplain]
      exact if_pos (isChannel_iff.mpr hchannel)
    · rw [hplain]
      exact if_neg (mt isChannel_iff.mp hdirect)
  · rintro rfl
    split
    · exact .ctcp ‹_›
    · split_ifs with hchannel
      · exact .channel ‹_› (isChannel_iff.mp hchannel)
      · exact .direct ‹_› (mt isChannel_iff.mpr hchannel)

/-- The event that tells of a message on a route; there is none for the credentials of a login. -/
def told? (e : Engine) (m : Message) (now : Instant) : Route → Option Event
  | .numeric code =>
    if code = 221 then some (.userMode (Actor.ofMessage m) (m.arg 0) (m.argsFrom 1))
    else some (.numeric (Actor.ofMessage m) code m.args)
  | .privmsg => some (e.textEvent m .ctcpRequest .channelMessage .privateMessage)
  | .notice => some (e.textEvent m .ctcpResponse .channelNotice .privateNotice)
  | .join => some (.join (Actor.ofMessage m) (m.arg 0))
  | .part => some (.part (Actor.ofMessage m) (m.arg 0) (m.arg? 1))
  | .quit => some (.quit (Actor.ofMessage m) (m.arg? 0))
  | .nick => some (.nick (Actor.ofMessage m) (m.arg 0))
  | .mode => some (e.modeEvent m)
  | .topic => some (.topic (Actor.ofMessage m) (m.arg 0) (m.arg 1))
  | .kick => some (.kick (Actor.ofMessage m) (m.arg 0) (m.arg 1) (m.arg? 2))
  | .invite => some (.invite (Actor.ofMessage m) (m.arg 0) (m.arg 1))
  | .cap =>
    match Subcommand.parse? (m.arg 1) with
    | none => some (.unknown (Actor.ofMessage m) m.command m.args)
    | some sub =>
      some (.capability sub (if isContinued sub m then m.arg 3 else m.arg 2) (isContinued sub m))
  | .authenticate => none
  | .ping => some (.ping (Actor.ofMessage m) m.lastArg)
  | .pong => some (.pong (Actor.ofMessage m) m.lastArg (e.roundTrip? m.lastArg now))
  | .error => some (.error m.lastArg)
  | .tagmsg => some (.tagMessage (Actor.ofMessage m) (m.arg 0))
  | .unknown => some (.unknown (Actor.ofMessage m) m.command m.args)

theorem told?_of_command {word : String} (route : Route) (h : m.command = word)
    (hword : route.word? = some word) :
    e.told? m now (Route.ofMessage m) = e.told? m now route := by
  rw [Message.route_of_command h hword]

theorem told?_of_numeric {code : Nat} (h : m.numeric? = some code) :
    e.told? m now (Route.ofMessage m) = e.told? m now (.numeric code) := by
  rw [Route.ofMessage, h]

theorem told?_of_tells (h : m.Tells e now event) :
    e.told? m now (Route.ofMessage m) = some event := by
  cases h with
  | ownModes h => rw [told?_of_numeric h, told?, if_pos rfl]
  | numeric h hcode => rw [told?_of_numeric h, told?, if_neg hcode]
  | privmsg h htext =>
    exact (told?_of_command .privmsg h rfl).trans (congrArg some (tellsText_iff.mp htext))
  | notice h htext =>
    exact (told?_of_command .notice h rfl).trans (congrArg some (tellsText_iff.mp htext))
  | join h => exact told?_of_command .join h rfl
  | part h => exact told?_of_command .part h rfl
  | quit h => exact told?_of_command .quit h rfl
  | nick h => exact told?_of_command .nick h rfl
  | channelMode h hchannel =>
    exact (told?_of_command .mode h rfl).trans
      (congrArg some (if_pos (isChannel_iff.mpr hchannel)))
  | userMode h huser =>
    exact (told?_of_command .mode h rfl).trans (congrArg some (if_neg (mt isChannel_iff.mp huser)))
  | topic h => exact told?_of_command .topic h rfl
  | kick h => exact told?_of_command .kick h rfl
  | invite h => exact told?_of_command .invite h rfl
  | capability h hsub =>
    rw [told?_of_command .cap h rfl, told?, hsub]
  | ping h => exact told?_of_command .ping h rfl
  | pong h => exact told?_of_command .pong h rfl
  | error h => exact told?_of_command .error h rfl
  | tagmsg h => exact told?_of_command .tagmsg h rfl
  | strange h hsub => rw [told?_of_command .cap h rfl, told?, hsub]
  | unknown hnumeric hword =>
    rw [Message.route_eq_unknown_iff.mpr ⟨hnumeric, hword⟩, told?]

theorem tells_of_told? (hroute : Route.ofMessage m = route)
    (h : e.told? m now route = some event) : m.Tells e now event := by
  have hcommand : ∀ {word : String}, route.word? = some word → m.command = word :=
    fun hword => Message.command_of_route hroute hword
  cases route with
  | numeric code =>
    have hnumeric := Message.numeric?_of_route hroute
    rw [told?] at h
    split_ifs at h with hcode
    · exact Option.some.inj h ▸ .ownModes (hcode ▸ hnumeric)
    · exact Option.some.inj h ▸ .numeric hnumeric hcode
  | privmsg => exact .privmsg (hcommand rfl) (tellsText_iff.mpr (Option.some.inj h))
  | notice => exact .notice (hcommand rfl) (tellsText_iff.mpr (Option.some.inj h))
  | mode =>
    rw [told?, modeEvent] at h
    split_ifs at h with hchannel
    · exact Option.some.inj h ▸ .channelMode (hcommand rfl) (isChannel_iff.mp hchannel)
    · exact Option.some.inj h ▸ .userMode (hcommand rfl) (mt isChannel_iff.mpr hchannel)
  | cap =>
    rw [told?] at h
    split at h
    · exact Option.some.inj h ▸ .strange (hcommand rfl) ‹_›
    · exact Option.some.inj h ▸ .capability (hcommand rfl) ‹_›
  | authenticate => exact absurd h (by simp [told?])
  | unknown =>
    obtain ⟨hnumeric, hword⟩ := Message.route_eq_unknown_iff.mp hroute
    exact Option.some.inj h ▸ .unknown hnumeric hword
  | join => exact Option.some.inj h ▸ .join (hcommand rfl)
  | part => exact Option.some.inj h ▸ .part (hcommand rfl)
  | quit => exact Option.some.inj h ▸ .quit (hcommand rfl)
  | nick => exact Option.some.inj h ▸ .nick (hcommand rfl)
  | topic => exact Option.some.inj h ▸ .topic (hcommand rfl)
  | kick => exact Option.some.inj h ▸ .kick (hcommand rfl)
  | invite => exact Option.some.inj h ▸ .invite (hcommand rfl)
  | ping => exact Option.some.inj h ▸ .ping (hcommand rfl)
  | pong => exact Option.some.inj h ▸ .pong (hcommand rfl)
  | error => exact Option.some.inj h ▸ .error (hcommand rfl)
  | tagmsg => exact Option.some.inj h ▸ .tagmsg (hcommand rfl)

/-- **One event tells of a message, or none.** -/
theorem tells_iff : m.Tells e now event ↔ e.told? m now (Route.ofMessage m) = some event :=
  ⟨told?_of_tells, tells_of_told? rfl⟩

/-- Only the credentials of a login are asked for without a word to the handler. -/
theorem told?_eq_none_iff : e.told? m now route = none ↔ route = .authenticate := by
  cases route with
  | numeric code =>
    rw [told?]
    split_ifs <;> simp
  | cap =>
    rw [told?]
    split <;> simp
  | _ => simp [told?]

end Engine

/-! ### Names that are not known -/

/-- The names in a list of the server that the client has to know. -/
def Capability.Subcommand.names (sub : Subcommand) (list : String) : List String :=
  match sub with
  | .ack => (parseNames list).map Registry.unmarked
  | .nak | .del => parseNames list
  | _ => []

/-- An anomaly for every name that is not known, in order. -/
def Event.unknownNames (names : List String) : List Event :=
  (names.filter fun name => (ofName? name).isNone).map fun name =>
    .anomaly (.unknownCapability ⟨name⟩)

theorem Event.unknownNames_append (names names' : List String) :
    unknownNames (names ++ names') = unknownNames names ++ unknownNames names' := by
  rw [unknownNames, List.filter_append, List.map_append]
  rfl

namespace Engine

theorem events_finishNegotiation (e : Engine) : e.finishNegotiation.events = [] := by
  rw [finishNegotiation]
  split_ifs <;> simp

/-- The end of the negotiation may tell that there will be no login. -/
theorem events_endNegotiation (e : Engine) :
    e.endNegotiation.events = [] ∨ e.endNegotiation.events = [.sasl .unavailable] := by
  rw [endNegotiation]
  split_ifs <;> simp [events_finishNegotiation]

theorem events_requestPending (e : Engine) : e.requestPending.events = [] := by
  rw [requestPending]
  split <;> simp

theorem events_startSasl (e : Engine) : e.startSasl.events = [] := by
  rw [startSasl]
  split_ifs <;> simp

theorem events_acknowledge (e : Engine) (entry : String) :
    (e.acknowledge entry).events = Event.unknownNames [Registry.unmarked entry] := by
  rw [acknowledge, Registry.acknowledge, Registry.lookup, ← Registry.unmarked, Event.unknownNames]
  cases hname : ofName? (Registry.unmarked entry) with
  | none => simp [hname, reportUnknown]
  | some cap =>
    by_cases hsasl : cap = .sasl
    · split_ifs <;> simp [hname, hsasl, events_startSasl]
    · split_ifs <;> simp [hname, hsasl]

theorem events_deny (e : Engine) (name : String) :
    (e.deny name).events = Event.unknownNames [name] := by
  rw [deny, Registry.deny, Registry.lookup, Event.unknownNames]
  cases hname : ofName? name <;> simp [hname, reportUnknown]

theorem events_revoke (e : Engine) (name : String) :
    (e.revoke name).events = Event.unknownNames [name] := by
  rw [revoke, Registry.revoke, Registry.lookup, Event.unknownNames]
  cases hname : ofName? name <;> simp [hname, reportUnknown]

/-- What every name of a list tells, the list tells in order. -/
theorem events_forNames {turn : Engine → String → Turn} {read : String → String}
    (h : ∀ e name, (turn e name).events = Event.unknownNames [read name]) (e : Engine)
    (list : String) :
    (e.forNames list turn).events = Event.unknownNames ((parseNames list).map read) := by
  rw [forNames_eq]
  -- a name changes the engine for the names behind it, but not what they tell
  induction parseNames list generalizing e with
  | nil => rfl
  | cons name names ih =>
    rw [inTurn, Turn.events_andThen, h, ih, List.map_cons, ← Event.unknownNames_append,
      List.singleton_append]

/-- **The names that are not known** are all that a capability message tells of on the way. -/
theorem events_negotiate (e : Engine) (sub : Subcommand) (list : String) (continued : Bool) :
    (e.negotiate sub list continued).1.events = Event.unknownNames (sub.names list) := by
  cases sub with
  | ls =>
    rw [negotiate]
    split_ifs <;> simp [events_requestPending, Subcommand.names, Event.unknownNames]
  | new => simp [negotiate, events_requestPending, Subcommand.names, Event.unknownNames]
  | ack => exact events_forNames events_acknowledge e list
  | nak =>
    have hread : ∀ e name, (deny e name).events = Event.unknownNames [id name] := events_deny
    rw [Subcommand.names, ← List.map_id (parseNames list)]
    exact events_forNames hread e list
  | del =>
    have hread : ∀ e name, (revoke e name).events = Event.unknownNames [id name] := events_revoke
    rw [Subcommand.names, ← List.map_id (parseNames list)]
    exact events_forNames hread e list
  | list => rfl
  | req => rfl
  | fin => rfl

example : Event.unknownNames (Subcommand.ack.names "-foo sasl ~bar") =
    [.anomaly (.unknownCapability ⟨"foo"⟩), .anomaly (.unknownCapability ⟨"bar"⟩)] := by
  decide +kernel

/-- Then the message is told, and maybe that there will be no login. -/
theorem events_capability (e : Engine) {sub : Subcommand} {list : String}
    (hsub : Subcommand.parse? (m.arg 1) = some sub)
    (hlist : (if isContinued sub m then m.arg 3 else m.arg 2) = list) :
    ∃ after : List Sasl.Outcome,
      (e.capability m).events = Event.unknownNames (sub.names list) ++
        .capability sub list (isContinued sub m) :: after.map .sasl ∧
      (after ≠ [] → after = [.unavailable]) := by
  rw [capability, hsub]
  dsimp only
  rw [hlist]
  split_ifs
  · rw [Turn.events_andThen, Turn.events_report, events_negotiate, List.append_assoc]
    rcases events_endNegotiation _ with hend | hend <;> rw [hend]
    · exact ⟨[], rfl, fun hne => absurd rfl hne⟩
    · exact ⟨[.unavailable], rfl, fun _ => rfl⟩
  · rw [Turn.events_report, events_negotiate]
    exact ⟨[], rfl, fun hne => absurd rfl hne⟩

/-- The credentials are sent without a word to the handler. -/
theorem events_authenticate (e : Engine) (m : Message) : (e.authenticate m).events = [] := by
  rw [authenticate]
  split_ifs
  · rfl
  · split
    · rfl
    · rw [Turn.events_learn, Turn.events_foldl_queue, events_stay]

end Engine

/-! ### Replies -/

/-- A welcome is told before its number. -/
def Message.welcomes (m : Message) : List Event :=
  if m.numeric? = some 1 then [.welcome (Actor.ofMessage m) (m.arg 0) (m.arg? 1)] else []

namespace Engine

theorem events_finishSasl (e : Engine) (loggedIn : Bool) (outcome : Sasl.Outcome)
    (tags : List Tag) :
    ∃ outcomes : List Sasl.Outcome,
      (e.finishSasl loggedIn outcome tags).events = outcomes.map .sasl := by
  rw [finishSasl, Turn.events_andThen, Turn.events_report, Turn.events_learn, events_stay,
    List.nil_append]
  rcases events_endNegotiation _ with hend | hend <;> rw [hend]
  · exact ⟨[outcome], rfl⟩
  · exact ⟨[outcome, .unavailable], rfl⟩

/-- **What a reply is told by, besides its number.** -/
theorem events_react (e : Engine) {reply : Reply} (hm : m.numeric? = some reply.code)
    (now : Instant) :
    ∃ outcomes : List Sasl.Outcome,
      (e.react m now reply).events = m.welcomes ++ outcomes.map .sasl ∧
        (outcomes ≠ [] → 900 ≤ reply.code ∧ reply.code ≤ 908) := by
  -- the replies that tell of a login are those from 900 to 908, and so none of them is the welcome
  have hlogin : ∀ {t : Turn}, reply.code ≠ 1 → 900 ≤ reply.code ∧ reply.code ≤ 908 →
      (∃ outcomes : List Sasl.Outcome, t.events = outcomes.map .sasl) →
        ∃ outcomes : List Sasl.Outcome, t.events = m.welcomes ++ outcomes.map .sasl ∧
          (outcomes ≠ [] → 900 ≤ reply.code ∧ reply.code ≤ 908) := by
    intro t hcode hrange houtcomes
    obtain ⟨outcomes, ht⟩ := houtcomes
    refine ⟨outcomes, ?_, fun _ => hrange⟩
    rw [ht, Message.welcomes, hm, if_neg (by simpa using hcode), List.nil_append]
  cases reply with
  | welcome =>
    exact ⟨[], by simp [react, welcome, Message.welcomes, hm, Reply.code], fun h => absurd rfl h⟩
  | loggedIn | saslSuccess | nickLocked | saslFail | saslTooLong | saslAborted | saslMechanisms =>
    exact hlogin (by decide) (by decide) (events_finishSasl ..)
  | loggedOut => exact hlogin (by decide) (by decide) ⟨[.loggedOut], rfl⟩
  | saslAlready => exact hlogin (by decide) (by decide) ⟨[.failed 907 m.lastArg], rfl⟩
  | nicknameInUse =>
    refine ⟨[], ?_, fun h => absurd rfl h⟩
    rw [react]
    split_ifs <;> simp [retryNickname, Message.welcomes, hm, Reply.code]
  | _ => exact ⟨[], by simp [react, Message.welcomes, hm, Reply.code], fun h => absurd rfl h⟩

end Engine

/-! ### The events around it -/

namespace Message

/-- The names of a capability message that are not known are told before the message. -/
def unknowns (m : Message) : List Event :=
  if m.command = "CAP" then
    match Subcommand.parse? (m.arg 1) with
    | some sub => Event.unknownNames (sub.names (m.arg 2))
    | none => []
  else []

/-- The events that a message is told by: the one that tells of it and, around that one, a welcome,
the names that are not known, and how a login has gone. -/
def Told (m : Message) (event : Event) (events : List Event) : Prop :=
  ∃ before after : List Sasl.Outcome,
    events = m.welcomes ++ m.unknowns ++ before.map .sasl ++ event :: after.map .sasl ∧
      (before ≠ [] → ∃ code, m.numeric? = some code ∧ 900 ≤ code ∧ code ≤ 908) ∧
      (after ≠ [] → m.command = "CAP" ∧ after = [.unavailable])

theorem welcomes_of_route (hroute : Route.ofMessage m = route) (hne : route ≠ .numeric 1) :
    m.welcomes = [] := by
  refine if_neg fun hnumeric => hne ?_
  rw [← hroute, Route.ofMessage, hnumeric]

theorem unknowns_of_route (hroute : Route.ofMessage m = route) (hne : route ≠ .cap) :
    m.unknowns = [] :=
  if_neg fun hcommand => hne (hroute ▸ route_of_command hcommand rfl)

/-- A list that goes on in the next line is none whose names the client has to know. -/
theorem unknowns_of_subcommand {sub : Subcommand} (hcommand : m.command = "CAP")
    (hsub : Subcommand.parse? (m.arg 1) = some sub) :
    Event.unknownNames (sub.names (if Engine.isContinued sub m then m.arg 3 else m.arg 2)) =
      m.unknowns := by
  rw [unknowns, if_pos hcommand, hsub]
  cases sub <;> rfl

theorem Told.alone (hroute : Route.ofMessage m = route) (hwelcome : route ≠ .numeric 1)
    (hcap : route ≠ .cap) : m.Told event [event] := by
  refine ⟨[], [], ?_, fun h => absurd rfl h, fun h => absurd rfl h⟩
  rw [welcomes_of_route hroute hwelcome, unknowns_of_route hroute hcap]
  rfl

end Message

namespace Engine

theorem told_numeric {code : Nat} (hroute : Route.ofMessage m = .numeric code)
    (h : e.told? m now (.numeric code) = some event) :
    m.Told event (e.numeric m code now).events := by
  have hm := Message.numeric?_of_route hroute
  rw [told?] at h
  rw [numeric]
  split
  · -- the modes of the client, which are told and no more
    rename_i hreply
    obtain rfl := Reply.ofCode?_eq_some_iff.mp hreply
    have hcode : Reply.userModeIs.code = 221 := rfl
    rw [if_pos hcode] at h
    exact Option.some.inj h ▸ .alone hroute (by simp [Reply.code]) (by simp)
  · -- a reply with a name, which the engine takes its part from first
    rename_i reply hother hreply
    have hcode : code ≠ 221 := by
      rintro rfl
      exact hother (Option.some.inj hreply).symm
    rw [if_neg hcode] at h
    obtain rfl := Reply.ofCode?_eq_some_iff.mp hreply
    obtain ⟨outcomes, hreact, hrange⟩ := e.events_react hm now
    refine ⟨outcomes, [], ?_, fun hne => ⟨_, hm, hrange hne⟩, fun hne => absurd rfl hne⟩
    rw [Turn.events_report, hreact, Message.unknowns_of_route hroute (by simp), List.append_nil,
      Option.some.inj h]
    rfl
  · -- a code without a name, so neither the modes nor the welcome
    rename_i hreply
    have hnamed := Reply.ne_code_of_ofCode? hreply
    have hcode : code ≠ 221 := hnamed .userModeIs
    rw [if_neg hcode] at h
    have hwelcome : Route.numeric code ≠ .numeric 1 := fun hcode =>
      hnamed .welcome (Route.numeric.inj hcode)
    exact Option.some.inj h ▸ .alone hroute hwelcome (by simp)

theorem told_capability (hroute : Route.ofMessage m = .cap)
    (h : e.told? m now .cap = some event) : m.Told event (e.capability m).events := by
  have hcommand : m.command = "CAP" := Message.command_of_route hroute rfl
  have hwelcomes := Message.welcomes_of_route hroute (by simp)
  rw [told?] at h
  cases hsub : Subcommand.parse? (m.arg 1) with
  | none =>
    rw [hsub] at h
    refine ⟨[], [], ?_, fun hne => absurd rfl hne, fun hne => absurd rfl hne⟩
    rw [capability, hsub, hwelcomes, Message.unknowns, if_pos hcommand, hsub, ← Option.some.inj h]
    rfl
  | some sub =>
    rw [hsub] at h
    obtain ⟨after, hevents, hafter⟩ := e.events_capability hsub rfl
    refine ⟨[], after, ?_, fun hne => absurd rfl hne, fun hne => ⟨hcommand, hafter hne⟩⟩
    rw [hevents, Message.unknowns_of_subcommand hcommand hsub, hwelcomes, Option.some.inj h,
      List.nil_append]
    exact congrArg (· ++ _) (List.append_nil _).symm

theorem events_route (hnumeric : ∀ code, route ≠ .numeric code) (hcap : route ≠ .cap)
    (h : e.told? m now route = some event) : (e.route m now route).events = [event] := by
  cases route with
  | numeric code => exact absurd rfl (hnumeric code)
  | cap => exact absurd rfl hcap
  | authenticate => exact absurd h (by simp [told?])
  | nick => simp [route, nick, Option.some.inj h]
  | ping =>
    obtain rfl := Option.some.inj h
    simp [route, ping]
  | pong =>
    obtain rfl := Option.some.inj h
    simp [route, pong]
  | _ =>
    obtain rfl := Option.some.inj h
    rfl

/-- **What a message on a route is told by.** -/
theorem told_route (hroute : Route.ofMessage m = route)
    (h : e.told? m now route = some event) : m.Told event (e.route m now route).events := by
  cases route with
  | numeric code => exact told_numeric hroute h
  | cap => exact told_capability hroute h
  | _ =>
    rw [events_route (by simp) (by simp) h]
    exact .alone hroute (by simp) (by simp)

end Engine

namespace Session

variable {σ : Type}

/-- **Every received line is reported once.**  A line that is no message and a message that lacks
parameters are told as such.  The credentials of a login are asked for without a word.  Any other
message is told by the one event that tells of it, and by the few that may stand around that. -/
theorem reported_once (s : Session σ) (line : String) (now : Instant) :
    let after := s.handleLine line now
    (∃ cause, Message.parse line = .error cause ∧
        after.reported = s.reported ++ [.anomaly (.unparsable line cause)]) ∨
      ∃ m, Message.parse line = .ok m ∧
        let required := m.required s.engine.link.registered
        (m.argCount < required ∧ after.reported =
            s.reported ++ [.anomaly (.violation ⟨m.command, required, m.argCount⟩)]) ∨
          (required ≤ m.argCount ∧
            if m.command = "AUTHENTICATE" then after.reported = s.reported
            else ∃ event events, (∀ other, m.Tells s.engine now other ↔ other = event) ∧
              m.Told event events ∧ after.reported = s.reported ++ events) := by
  intro after
  have hafter : after.reported = s.reported ++ (s.engine.handleLine line now).events :=
    s.reported_perform _
  rw [Engine.handleLine] at hafter
  cases hparse : Message.parse line with
  | error cause =>
    rw [hparse] at hafter
    exact .inl ⟨cause, rfl, hafter⟩
  | ok m =>
    rw [hparse] at hafter
    refine .inr ⟨m, rfl, ?_⟩
    dsimp only at hafter ⊢
    rcases s.engine.handleMessage_cases m now with ⟨hfew, hturn⟩ | ⟨henough, hturn⟩
    · rw [hturn] at hafter
      exact .inl ⟨hfew, hafter⟩
    refine .inr ⟨henough, ?_⟩
    rw [hturn] at hafter
    split_ifs with hcommand
    · have hroute : Route.ofMessage m = .authenticate := Message.route_of_command hcommand rfl
      rw [hroute, Engine.route, Engine.events_authenticate, List.append_nil] at hafter
      exact hafter
    · have hroute : Route.ofMessage m ≠ .authenticate := fun h =>
        hcommand (Message.command_of_route h rfl)
      obtain ⟨event, htold⟩ :=
        Option.ne_none_iff_exists'.mp (mt (Engine.told?_eq_none_iff (e := s.engine)).mp hroute)
      refine ⟨event, _, fun other => ?_, Engine.told_route rfl htold, hafter⟩
      rw [Engine.tells_iff, htold, Option.some_inj, eq_comm]

end Session

end Irc
