/-
What handling input is made of.

Whatever is done about a line of the server is put together from a few elementary turns,
and `Engine.Response` is the list of them.  What holds of each and is kept by putting two
together holds of all handling, so a property of handling takes seven cases to prove.  Most
handling is a mere remark, without a new nickname and without a sign of life.

* **`Engine.Remark`** — turns that say, report and learn, and nothing else;
* **`Engine.remark_route`** — all handling but that of numeric replies, of nicknames and of signs
  of life;
* **`Engine.response_handleLine`**, **`Engine.response_reportUndecodable`** — the list of
  responses is complete;
* **`Engine.life_handleLine`**, **`Engine.life_handleMessage`** — the server moves nothing that
  the lifecycle calls decide;
* **`Engine.puts_handleLine`**, **`Engine.puts_handleMessage`** — what handling puts out;
* **`Engine.Response.heard`** — handling drops no lines, gives no order but to start the
  keepalive, and tells of nothing but what was received.
-/
import Irc.Proofs.Turns
import Irc.Proofs.Lines

namespace Irc

open Outgoing Capability

/-- An event that tells of what was received, and not of the connection itself. -/
def Event.IsReceived : Event → Prop
  | .connected | .connectFailed .. | .disconnected .. => False
  | _ => True

/-- What handling input may put out. -/
def Output.Heard : Output → Prop
  | .line _ => True
  | .report event .. => event.IsReceived
  | .effect (.startKeepalive _) => True
  | _ => False

/-- What the signs of life of the server have told. -/
structure Vitals where
  registered : Bool
  keepalive : Option Instant
  latency : Option Duration

/-- What the signs of life of the server have told on a connection. -/
def Link.vitals (l : Link) : Vitals := ⟨l.registered, l.keepalive, l.latency⟩

/-! ### Replies and routes -/

theorem Reply.code_of_ofCode? {code : Nat} {r : Reply} (h : ofCode? code = some r) :
    r.code = code := by
  rw [ofCode?] at h
  simpa using List.find?_some h

/-- The command word of a route; numeric replies and unknown commands have none. -/
def Route.word? : Route → Option String
  | .numeric _ | .unknown => none
  | .privmsg => some "PRIVMSG"
  | .notice => some "NOTICE"
  | .join => some "JOIN"
  | .part => some "PART"
  | .quit => some "QUIT"
  | .nick => some "NICK"
  | .mode => some "MODE"
  | .topic => some "TOPIC"
  | .kick => some "KICK"
  | .invite => some "INVITE"
  | .cap => some "CAP"
  | .authenticate => some "AUTHENTICATE"
  | .ping => some "PING"
  | .pong => some "PONG"
  | .error => some "ERROR"
  | .tagmsg => some "TAGMSG"

namespace Message

variable {m : Message} {route : Route}

theorem numeric?_of_route {code : Nat} (h : Route.ofMessage m = .numeric code) :
    m.numeric? = some code := by
  rw [Route.ofMessage] at h
  split at h
  · rename_i code' hcode
    rw [hcode, Route.numeric.inj h]
  · unfold Route.ofWord at h
    split at h <;> exact absurd h (by simp)

/-- A message that takes a route has the command word of the route. -/
theorem command_of_route {word : String} (h : Route.ofMessage m = route)
    (hword : route.word? = some word) : m.command = word := by
  rw [Route.ofMessage] at h
  split at h
  · subst h
    cases hword
  · unfold Route.ofWord at h
    split at h <;> subst h <;> cases hword <;> assumption

/-- A message with the command word of a route takes the route. -/
theorem route_of_command {word : String} (h : m.command = word)
    (hword : route.word? = some word) : Route.ofMessage m = route := by
  rw [Route.ofMessage, numeric?, h]
  cases route <;> cases hword <;> rfl

/-- Enough parameters are there. -/
theorem require_eq_ok_iff {n : Nat} : m.require n = .ok () ↔ n ≤ m.argCount := by
  rw [require]
  split_ifs with hfew
  · simp [hfew]
  · simpa using hfew

end Message

namespace Engine

/-! ### What handling is put together from -/

/-- A turn that says, reports and learns, starting from an engine. -/
inductive Remark : Engine → Turn → Prop where
  | stay (e : Engine) : Remark e e.stay
  | queue (e : Engine) (r : Request) : Remark e (e.queue r)
  | report (e : Engine) (tags : List Tag) {event : Event} (h : event.IsReceived) :
      Remark e (e.report event tags)
  /-- Something is learnt on the connection, but not from a sign of life. -/
  | learn (e : Engine) (change : Link → Link) (h : (change e.link).vitals = e.link.vitals) :
      Remark e (e.stay.learn change)
  | andThen {e : Engine} {t : Turn} {next : Engine → Turn} (first : Remark e t)
      (second : Remark t.engine (next t.engine)) : Remark e (t.andThen next)

/-- A turn that handling input may come to, starting from an engine. -/
inductive Response : Engine → Turn → Prop where
  | stay (e : Engine) : Response e e.stay
  | queue (e : Engine) (r : Request) : Response e (e.queue r)
  | report (e : Engine) (tags : List Tag) {event : Event} (h : event.IsReceived) :
      Response e (e.report event tags)
  /-- Something is learnt on the connection, with keepalive as it is. -/
  | learn (e : Engine) (change : Link → Link)
      (h : (change e.link).keepalive.isSome = e.link.keepalive.isSome) :
      Response e (e.stay.learn change)
  | rename (e : Engine) (nickname : String) (attempt : Nat) :
      Response e (e.stay.update fun e => { e with nickname := nickname, nickAttempt := attempt })
  | welcome (e : Engine) (nickname : String) (now : Instant) (period : Duration) :
      Response e ((e.stay.update (registeredAs nickname now)).order (.startKeepalive period))
  | andThen {e : Engine} {t : Turn} {next : Engine → Turn} (first : Response e t)
      (second : Response t.engine (next t.engine)) : Response e (t.andThen next)

/-- What handling a message may come to, starting from an engine: a remark, or a sign of life or
something about the nickname of the client and then a remark. -/
inductive Upshot (e : Engine) (m : Message) : Turn → Prop where
  | remark {t : Turn} (h : Remark e t) : Upshot e m t
  /-- The server welcomes the client. -/
  | welcome (now : Instant) (hm : m.numeric? = some 1) (hcount : 1 ≤ m.argCount) :
      Upshot e m ((e.stay.update (registeredAs (m.arg 0) now)).order
        (.startKeepalive e.config.timing.pingInterval))
  /-- The server answers. -/
  | answer (now : Instant) (trip : Option Duration) (hm : m.command = "PONG")
      (hcount : 1 ≤ m.argCount) : Upshot e m (e.stay.learn (noteAnswer now trip))
  /-- The client itself has changed nickname. -/
  | nick (hm : m.command = "NICK")
      (hself : CaseMapping.same (Actor.ofMessage m).name e.nickname = true) :
      Upshot e m (e.stay.update fun e => { e with nickname := m.arg 0 })
  /-- The nickname is taken, and there is another one to try. -/
  | retry (hm : m.numeric? = some 433) (hregistered : e.link.registered = false) :
      Upshot e m (e.stay.update fun e =>
        { e with nickname := e.nextNickname, nickAttempt := e.nickAttempt + 1 })
  | thenRemark {t : Turn} {next : Engine → Turn} (first : Upshot e m t)
      (second : Remark t.engine (next t.engine)) : Upshot e m (t.andThen next)

variable {e : Engine} {t : Turn} {m : Message}

namespace Remark

theorem thenQueue (h : Remark e t) (r : Request) : Remark e (t.queue r) :=
  h.andThen (.queue t.engine r)

theorem thenReport (h : Remark e t) (tags : List Tag) {event : Event}
    (hevent : event.IsReceived) : Remark e (t.report event tags) :=
  h.andThen (.report t.engine tags hevent)

theorem thenLearn (h : Remark e t) (change : Link → Link)
    (hchange : (change t.engine.link).vitals = t.engine.link.vitals) :
    Remark e (t.learn change) := by
  have hturn : t.learn change = t.andThen fun e => e.stay.learn change := by
    simp [Turn.learn, Turn.update, Turn.andThen, Engine.stay]
  rw [hturn]
  exact h.andThen (.learn t.engine change hchange)

theorem response (h : Remark e t) : Response e t := by
  induction h with
  | stay e => exact .stay e
  | queue e r => exact .queue e r
  | report e tags h => exact .report e tags h
  | learn e change h =>
    exact .learn e change (congrArg (fun vitals => vitals.keepalive.isSome) h)
  | andThen first second ih₁ ih₂ => exact ih₁.andThen ih₂

/-- A remark leaves the nickname as it is, and how many were turned down. -/
theorem naming (h : Remark e t) :
    (t.engine.nickname, t.engine.nickAttempt) = (e.nickname, e.nickAttempt) := by
  induction h with
  | queue e r => rw [engine_queue]
  | andThen first second ih₁ ih₂ => exact ih₂.trans ih₁
  | _ => rfl

theorem nickname (h : Remark e t) : t.engine.nickname = e.nickname := congrArg Prod.fst h.naming

/-- A remark tells nothing of signs of life. -/
theorem vitals (h : Remark e t) : t.engine.link.vitals = e.link.vitals := by
  induction h with
  | queue e r => rw [engine_queue]
  | learn e change h => exact h
  | andThen first second ih₁ ih₂ => exact ih₂.trans ih₁
  | _ => rfl

end Remark

namespace Response

/-- Handling moves nothing of the life of the connection. -/
theorem life (h : Response e t) : t.engine.life = e.life := by
  induction h with
  | queue e r => rw [engine_queue]
  | andThen first second ih₁ ih₂ => exact ih₂.trans ih₁
  | _ => rfl

/-- What handling puts out has a property that lines of requests, reports of what was received
and the order to start the keepalive have. -/
theorem puts {P : Output → Prop} (hline : ∀ line, Requested line → P (.line line))
    (hreport : ∀ event tags seen, event.IsReceived → P (.report event tags seen))
    (hkeepalive : ∀ period, P (.effect (.startKeepalive period))) (h : Response e t) :
    t.Puts P := by
  induction h with
  | stay e => exact e.puts_stay
  | queue e r => exact puts_queue hline e r
  | report e tags h => exact (e.puts_report _ tags).mpr (hreport _ _ _ h)
  | learn e change h => exact e.puts_stay
  | rename e nickname attempt => exact e.puts_stay
  | welcome e nickname now period =>
    exact (Turn.puts_order _ _).mpr ⟨(Turn.puts_update _ _).mpr e.puts_stay, hkeepalive period⟩
  | andThen first second ih₁ ih₂ => exact (Turn.puts_andThen _ _).mpr ⟨ih₁, ih₂⟩

theorem heard (h : Response e t) : t.Puts Output.Heard :=
  h.puts (fun _ _ => trivial) (fun _ _ _ hevent => hevent) fun _ => trivial

theorem answering (h : Response e t) : t.Puts Output.Answering :=
  h.puts (fun _ hline => hline) (fun _ _ _ _ => trivial) fun _ => trivial

end Response

theorem Upshot.response (h : Upshot e m t) : Response e t := by
  induction h with
  | remark h => exact h.response
  | welcome now hm hcount => exact .welcome e _ now _
  | answer now trip hm hcount => exact .learn e _ Option.isSome_map
  | nick hm hself => exact .rename e (m.arg 0) e.nickAttempt
  | retry hm hregistered => exact .rename e e.nextNickname (e.nickAttempt + 1)
  | thenRemark first second ih => exact ih.andThen second.response

theorem Upshot.thenQueue (h : Upshot e m t) (r : Request) : Upshot e m (t.queue r) :=
  h.thenRemark (.queue t.engine r)

theorem Upshot.thenReport (h : Upshot e m t) (tags : List Tag) {event : Event}
    (hevent : event.IsReceived) : Upshot e m (t.report event tags) :=
  h.thenRemark (.report t.engine tags hevent)

/-! ### Negotiation and login -/

theorem remark_finishNegotiation (e : Engine) : Remark e e.finishNegotiation := by
  rw [finishNegotiation]
  split_ifs
  · exact .stay e
  · exact ((Remark.stay e).thenLearn _ rfl).thenQueue _

theorem remark_endNegotiation (e : Engine) : Remark e e.endNegotiation := by
  rw [endNegotiation]
  split_ifs
  · exact .stay e
  · exact e.remark_finishNegotiation
  · have hreported : Remark e (e.report (.sasl .unavailable) []) := .report e [] trivial
    exact hreported.andThen (remark_finishNegotiation _)
  · exact e.remark_finishNegotiation
  · exact .stay e

theorem remark_requestPending (e : Engine) : Remark e e.requestPending := by
  rw [requestPending]
  split
  · exact .stay e
  · exact ((Remark.stay e).thenLearn _ rfl).thenQueue _

theorem remark_startSasl (e : Engine) : Remark e e.startSasl := by
  rw [startSasl]
  split_ifs
  · exact .stay e
  · exact ((Remark.stay e).thenLearn _ rfl).thenQueue _

theorem remark_acknowledge (e : Engine) (entry : String) :
    Remark e (e.acknowledge entry) := by
  rw [acknowledge]
  split
  · exact .report e [] trivial
  · dsimp only
    split_ifs
    · exact ((Remark.stay e).thenLearn _ rfl).andThen (remark_startSasl _)
    · exact .learn e _ rfl

theorem remark_deny (e : Engine) (name : String) : Remark e (e.deny name) := by
  rw [deny]
  split
  · exact .report e [] trivial
  · exact .learn e _ rfl

theorem remark_revoke (e : Engine) (name : String) : Remark e (e.revoke name) := by
  rw [revoke]
  split
  · exact .report e [] trivial
  · exact .learn e _ rfl

theorem remark_forNames {turn : Engine → String → Turn}
    (h : ∀ e name, Remark e (turn e name)) (e : Engine) (list : String) :
    Remark e (e.forNames list turn) := by
  rw [forNames_eq]
  induction parseNames list generalizing e with
  | nil => exact .stay e
  | cons name names ih => exact (h e name).andThen (ih _)

theorem remark_negotiate (e : Engine) (sub : Subcommand) (list : String) (continued : Bool) :
    Remark e (e.negotiate sub list continued).1 := by
  cases sub with
  | ls =>
    rw [negotiate]
    split_ifs
    · exact .learn e _ rfl
    · exact (Remark.learn e _ rfl).andThen (remark_requestPending _)
  | new => exact (Remark.learn e _ rfl).andThen (remark_requestPending _)
  | ack => exact remark_forNames remark_acknowledge e list
  | nak => exact remark_forNames remark_deny e list
  | del => exact remark_forNames remark_revoke e list
  | list => exact .stay e
  | req => exact .stay e
  | fin => exact .stay e

theorem remark_capability (e : Engine) (m : Message) : Remark e (e.capability m) := by
  rw [capability]
  split
  · exact .report e _ trivial
  · rename_i sub _
    have htold : ∀ list continued, Remark e
        ((e.negotiate sub list continued).1.report (.capability sub list continued) m.tags) :=
      fun list continued => (e.remark_negotiate sub list continued).thenReport m.tags trivial
    dsimp only
    generalize (if isContinued sub m = true then m.arg 3 else m.arg 2) = list
    split_ifs
    · exact (htold _ _).andThen (remark_endNegotiation _)
    · exact htold _ _

theorem remark_authenticate (e : Engine) (m : Message) : Remark e (e.authenticate m) := by
  rw [authenticate]
  split_ifs
  · exact .stay e
  · split
    · exact .stay e
    · -- one request for every payload
      have hqueued : ∀ (payloads : List String) (t : Turn), Remark e t →
          Remark e (payloads.foldl (fun t payload => t.queue (.authenticate payload)) t) := by
        intro payloads
        induction payloads with
        | nil => exact fun t ht => ht
        | cons payload payloads ih => exact fun t ht => ih _ (ht.thenQueue _)
      exact (hqueued _ _ (.stay e)).thenLearn _ rfl

/-! ### Replies -/

theorem remark_finishSasl (e : Engine) (loggedIn : Bool) (outcome : Sasl.Outcome)
    (tags : List Tag) : Remark e (e.finishSasl loggedIn outcome tags) := by
  have htold : Remark e ((e.stay.learn fun l =>
      { l with loggedIn := loggedIn, sasl := .finished }).report (.sasl outcome) tags) :=
    (Remark.learn e _ rfl).thenReport tags trivial
  exact htold.andThen (remark_endNegotiation _)

theorem vitals_noteFeatures (m : Message) (l : Link) : (noteFeatures m l).vitals = l.vitals := by
  rw [noteFeatures]
  split <;> rfl

theorem upshot_react {code : Nat} {reply : Reply} (hm : m.numeric? = some code)
    (hcount : (Route.numeric code).arity e.link.registered ≤ m.argCount)
    (hreply : Reply.ofCode? code = some reply) (now : Instant) :
    Upshot e m (e.react m now reply) := by
  obtain rfl := Reply.code_of_ofCode? hreply
  cases reply with
  | welcome => exact (Upshot.welcome now hm hcount).thenReport m.tags trivial
  | isupport => exact .remark (.learn e _ (vitals_noteFeatures m e.link))
  | nicknameInUse =>
    rw [react]
    split_ifs with hregistered
    · exact .remark (.stay e)
    · exact (Upshot.retry hm (Bool.eq_false_iff.mpr hregistered)).thenQueue _
  | loggedIn => exact .remark (e.remark_finishSasl ..)
  | loggedOut => exact .remark ((Remark.learn e _ rfl).thenReport m.tags trivial)
  | saslSuccess => exact .remark (e.remark_finishSasl ..)
  | nickLocked => exact .remark (e.remark_finishSasl ..)
  | saslFail => exact .remark (e.remark_finishSasl ..)
  | saslTooLong => exact .remark (e.remark_finishSasl ..)
  | saslAborted => exact .remark (e.remark_finishSasl ..)
  | saslMechanisms => exact .remark (e.remark_finishSasl ..)
  | saslAlready => exact .remark (.report e m.tags trivial)
  | _ => exact .remark (.stay e)

theorem upshot_numeric {code : Nat} (hm : m.numeric? = some code)
    (hcount : (Route.numeric code).arity e.link.registered ≤ m.argCount) (now : Instant) :
    Upshot e m (e.numeric m code now) := by
  rw [numeric]
  split
  · exact .remark (.report e m.tags trivial)
  · rename_i reply _ hreply
    exact (upshot_react hm hcount hreply now).thenReport m.tags trivial
  · exact .remark (.report e m.tags trivial)

/-! ### Other messages -/

theorem upshot_nick (hm : m.command = "NICK") (e : Engine) : Upshot e m (e.nick m) := by
  have hrename : Upshot e m (e.stay.update fun e =>
      if CaseMapping.same (Actor.ofMessage m).name e.nickname then
        { e with nickname := m.arg 0 } else e) := by
    rw [Turn.update, engine_stay]
    split_ifs with hself
    · exact .nick hm hself
    · exact .remark (.stay e)
  exact hrename.thenReport m.tags trivial

theorem isReceived_textEvent (e : Engine) (m : Message) {ctcp : Actor → String → Ctcp → Event}
    {channel direct : Actor → String → String → Event}
    (hctcp : ∀ actor target text, (ctcp actor target text).IsReceived)
    (hchannel : ∀ actor target text, (channel actor target text).IsReceived)
    (hdirect : ∀ actor target text, (direct actor target text).IsReceived) :
    (e.textEvent m ctcp channel direct).IsReceived := by
  rw [textEvent]
  split
  · exact hctcp _ _ _
  · split_ifs
    · exact hchannel _ _ _
    · exact hdirect _ _ _

theorem isReceived_modeEvent (e : Engine) (m : Message) : (e.modeEvent m).IsReceived := by
  rw [modeEvent]
  split_ifs <;> trivial

theorem remark_route {route : Route} (hnumeric : ∀ code, route ≠ .numeric code)
    (hnick : route ≠ .nick) (hpong : route ≠ .pong) (e : Engine) (m : Message) (now : Instant) :
    Remark e (e.route m now route) := by
  cases route with
  | numeric code => exact absurd rfl (hnumeric code)
  | nick => exact absurd rfl hnick
  | pong => exact absurd rfl hpong
  | privmsg =>
    exact .report e m.tags (e.isReceived_textEvent m (fun _ _ _ => trivial)
      (fun _ _ _ => trivial) fun _ _ _ => trivial)
  | notice =>
    exact .report e m.tags (e.isReceived_textEvent m (fun _ _ _ => trivial)
      (fun _ _ _ => trivial) fun _ _ _ => trivial)
  | mode => exact .report e m.tags (e.isReceived_modeEvent m)
  | cap => exact e.remark_capability m
  | authenticate => exact e.remark_authenticate m
  | ping => exact (Remark.queue e _).thenReport m.tags trivial
  | _ => exact .report e m.tags trivial

/-- **What handling a message comes to.** -/
theorem upshot_handleMessage (e : Engine) (m : Message) (now : Instant) :
    Upshot e m (e.handleMessage m now) := by
  rw [handleMessage]
  split
  · exact .remark (.report e [] trivial)
  · rename_i hrequired
    have hcount := Message.require_eq_ok_iff.mp hrequired
    cases hroute : Route.ofMessage m with
    | numeric code =>
      rw [hroute] at hcount
      exact upshot_numeric (Message.numeric?_of_route hroute) hcount now
    | nick => exact upshot_nick (Message.command_of_route hroute rfl) e
    | pong =>
      rw [hroute] at hcount
      exact (Upshot.answer now _ (Message.command_of_route hroute rfl) hcount).thenReport m.tags
        trivial
    | _ => exact .remark (remark_route (by simp) (by simp) (by simp) e m now)

/-! ### All input -/

theorem response_handleMessage (e : Engine) (m : Message) (now : Instant) :
    Response e (e.handleMessage m now) := (e.upshot_handleMessage m now).response

/-- **Handling a line is a response.** -/
theorem response_handleLine (e : Engine) (line : String) (now : Instant) :
    Response e (e.handleLine line now) := by
  rw [handleLine]
  split
  · exact .report e [] trivial
  · exact e.response_handleMessage _ now

theorem response_reportUndecodable (e : Engine) (cause : FramingError) :
    Response e (e.reportUndecodable cause) := .report e [] trivial

/-- **A message moves nothing of the life of the connection.** -/
theorem life_handleMessage (e : Engine) (m : Message) (now : Instant) :
    (e.handleMessage m now).engine.life = e.life := (e.response_handleMessage m now).life

/-- **A line moves nothing of the life of the connection.** -/
theorem life_handleLine (e : Engine) (line : String) (now : Instant) :
    (e.handleLine line now).engine.life = e.life := (e.response_handleLine line now).life

/-- **What handling a message puts out.** -/
theorem puts_handleMessage (e : Engine) (m : Message) (now : Instant) :
    (e.handleMessage m now).Puts Output.Answering := (e.response_handleMessage m now).answering

/-- **What handling a line puts out.** -/
theorem puts_handleLine (e : Engine) (line : String) (now : Instant) :
    (e.handleLine line now).Puts Output.Answering := (e.response_handleLine line now).answering

theorem puts_reportUndecodable (e : Engine) (cause : FramingError) :
    (e.reportUndecodable cause).Puts Output.Answering :=
  (e.response_reportUndecodable cause).answering

end Engine

end Irc
