/-
What is done about a message.

The engine does one thing about each message, and may end the negotiation on top of it.
`Engine.Part` lists the first, `Engine.Cause` the occasions of the second, and `Engine.Handles`
puts them together.  All that is proved of negotiations and logins rests on this list.

* **`Engine.handles_capability`**, **`Engine.handles_numeric`** — the messages with a part in it;
* **`Engine.handles_handleMessage`** — the list is complete;
* **`Session.Connection.handles_or_neutral`** — what the acts on a connection do.
-/
import Irc.Proofs.Negotiation

namespace Irc

open Outgoing Capability

namespace Engine

variable {e : Engine}

/-! ### What is done about a message -/

/-- What is done about a message before the negotiation may end. -/
inductive Part (e : Engine) (m : Message) (t : Turn) : Prop where
  /-- Nothing that has to do with it. -/
  | aside (hm : ¬ m.IsWelcome) (h : t.Aside e)
  /-- The client is registered, which ends every negotiation without a word. -/
  | welcomed (hm : m.IsWelcome) (lines : t.lines = [])
      (negotiated : t.engine.link.negotiated = true) (sasl : t.engine.link.sasl = e.link.sasl)
  /-- The login begins. -/
  | begun (hm : m.EnablesLogin) (h : t.Begins e)
  /-- The credentials go out. -/
  | replied (hm : m.AsksCredentials) {account password : String}
      (configured : e.config.saslAccount? = some (account, password))
      (begun : e.link.sasl = .mechanismSent)
      (lines : t.lines = (Sasl.credentials account password).map authenticateLine)
      (negotiated : t.engine.link.negotiated = e.link.negotiated)
      (sasl : t.engine.link.sasl = .credentialsSent)
  /-- The login is over. -/
  | closed (hm : m.ClosesLogin) (lines : t.lines = [])
      (negotiated : t.engine.link.negotiated = e.link.negotiated)
      (sasl : t.engine.link.sasl = .finished)

/-- Why the negotiation may end after a message that has made `e` into `e'`. -/
inductive Cause (e : Engine) (m : Message) (e' : Engine) : Prop where
  | refused (hm : m.IsCap .nak)
  | acknowledged (hm : m.IsCap .ack) (h : e'.link.caps.allRequestedEnabled = true)
  | nothingNew (hm : m.IsCap .ls)
      (h : e'.link.caps.allRequestedEnabled = e.link.caps.allRequestedEnabled)
  | loginOver (hm : m.ClosesLogin) (h : e'.link.caps = e.link.caps)

/-- What is done about a message: one thing, and perhaps the end of the negotiation. -/
inductive Handles (e : Engine) (m : Message) (t : Turn) : Prop where
  | goesOn {u : Turn} (h : Part e m u) (engine : t.engine = u.engine) (lines : t.lines = u.lines)
  | ends {u : Turn} (h : Part e m u) (cause : Cause e m u.engine)
      (undecided : u.engine.link.negotiated = false) (mayEnd : u.engine.MayEnd)
      (engine : t.engine = u.engine.decided) (lines : t.lines = u.lines ++ [capEndLine])

theorem Handles.of_aside {m : Message} {t : Turn} (hm : ¬ m.IsWelcome) (h : t.Aside e) :
    Handles e m t := .goesOn (.aside hm h) rfl rfl

/-- What is done first, and then the negotiation ended unless a login is under way. -/
theorem Handles.andThen_endNegotiation {m : Message} {t : Turn} (h : Part e m t)
    (ht : t.engine.Open) (cause : Cause e m t.engine) :
    Handles e m (t.andThen endNegotiation) := by
  by_cases hopen : t.engine.link.negotiated = false ∧ t.engine.MayEnd
  · obtain ⟨hlines, hengine⟩ := endNegotiation_of_mayEnd ht hopen.1 hopen.2
    exact .ends h cause hopen.1 hopen.2 hengine (by rw [Turn.lines_andThen, hlines])
  · have hstay : t.engine.endNegotiation = t.engine.stay := by
      refine endNegotiation_of_not ?_
      rwa [← Bool.not_eq_false, ← not_and_or]
    exact .goesOn h (by rw [Turn.engine_andThen, hstay, engine_stay])
      (by rw [Turn.lines_andThen, hstay, lines_stay, List.append_nil])

theorem Handles.report {m : Message} {t : Turn} (h : Handles e m t) (event : Event)
    (tags : List Tag) : Handles e m (t.report event tags) := by
  cases h with
  | goesOn h engine lines =>
    exact .goesOn h engine ((Turn.lines_report t event tags).trans lines)
  | ends h cause undecided mayEnd engine lines =>
    exact .ends h cause undecided mayEnd engine ((Turn.lines_report t event tags).trans lines)

/-! ### Capability messages -/

theorem allRequestedEnabled_noteOffers (list : String) (l : Link) :
    (noteOffers list l).caps.allRequestedEnabled = l.caps.allRequestedEnabled := by
  rw [noteOffers]
  generalize l.caps = caps
  dsimp only
  induction parseList list generalizing caps with
  | nil => rfl
  | cons offer offers ih =>
    rw [List.foldl_cons, ih]
    cases hoffer : caps.offer offer.1 offer.2 with
    | error u => rfl
    | ok answer => exact Registry.allRequestedEnabled_offer hoffer

theorem negotiate_cases (he : e.Open) (sub : Subcommand) (list : String) (continued : Bool) :
    (e.negotiate sub list continued).1.Aside e ∨
      sub = .ack ∧ (e.negotiate sub list continued).1.Begins e ∧
        ∃ entry ∈ parseNames list, Registry.Enables entry .sasl := by
  cases sub with
  | ls =>
    rw [negotiate]
    split_ifs
    · exact .inl (e.aside_noteOffers list)
    · exact .inl ((e.aside_noteOffers list).andThen (aside_requestPending _))
  | new => exact .inl ((e.aside_noteOffers list).andThen (aside_requestPending _))
  | ack =>
    -- only here is the login touched
    rw [negotiate, forNames_eq]
    exact (acknowledge_inTurn_cases he _).imp_right fun h => ⟨rfl, h⟩
  | nak =>
    rw [negotiate, forNames_eq]
    exact .inl (aside_inTurn aside_deny _ e)
  | del =>
    rw [negotiate, forNames_eq]
    exact .inl (aside_inTurn aside_revoke _ e)
  | list => exact .inl e.aside_stay
  | req => exact .inl e.aside_stay
  | fin => exact .inl e.aside_stay

/-- What a subcommand takes for a reason to end the negotiation. -/
theorem negotiate_reason {sub : Subcommand} {list : String} {continued : Bool}
    (h : (e.negotiate sub list continued).2 = true) :
    sub = .nak ∨
      (sub = .ack ∧
        (e.negotiate sub list continued).1.engine.link.caps.allRequestedEnabled = true) ∨
      sub = .ls ∧ (e.negotiate sub list continued).1.engine.link.caps.allRequestedEnabled =
        e.link.caps.allRequestedEnabled := by
  cases sub with
  | ls =>
    refine .inr (.inr ⟨rfl, ?_⟩)
    rw [negotiate] at h ⊢
    split_ifs at h ⊢
    rw [decide_eq_true_eq] at h
    -- with nothing queued there is no request, and only the offers are noted
    have hstay : (e.stay.learn (noteOffers list)).engine.requestPending =
        (e.stay.learn (noteOffers list)).engine.stay := by
      rw [requestPending, Registry.takeRequest, if_pos h]
    rw [Turn.engine_andThen, hstay]
    exact allRequestedEnabled_noteOffers list e.link
  | ack => exact .inr (.inl ⟨rfl, h⟩)
  | nak => exact .inl rfl
  | new => exact absurd h (by simp [negotiate])
  | del => exact absurd h (by simp [negotiate])
  | list => exact absurd h (by simp [negotiate])
  | req => exact absurd h (by simp [negotiate])
  | fin => exact absurd h (by simp [negotiate])

variable {m : Message}

theorem handles_capability (he : e.Open) (hm : m.command = "CAP") :
    Handles e m (e.capability m) := by
  have hwelcome := Message.not_isWelcome_of_command hm ⟨'C', by decide, by decide⟩
  rw [capability]
  split
  · exact .of_aside hwelcome (e.aside_report _ _)
  · rename_i sub hsub
    have hcap : m.IsCap sub := ⟨hm, hsub⟩
    -- only lists go on in the next line, so an acknowledgement has its names where it should
    have hlist : sub = .ack → (if isContinued sub m then m.arg 3 else m.arg 2) = m.arg 2 := by
      rintro rfl
      simp [isContinued]
    dsimp only
    generalize (if isContinued sub m then m.arg 3 else m.arg 2) = list at hlist ⊢
    generalize isContinued sub m = continued
    have hlife := (e.remark_negotiate sub list continued).response.life
    have hpart : Part e m ((e.negotiate sub list continued).1.report
        (.capability sub list continued) m.tags) := by
      rcases negotiate_cases he sub list continued with haside | ⟨rfl, hbegins, henables⟩
      · exact .aside hwelcome (haside.report _ _)
      · rw [hlist rfl] at henables
        exact .begun ⟨hcap, henables⟩ (hbegins.report _ _)
    split_ifs with hreason
    · refine Handles.andThen_endNegotiation hpart ((open_of_life hlife).mpr he) ?_
      rcases negotiate_reason hreason with rfl | ⟨rfl, hall⟩ | ⟨rfl, hsame⟩
      · exact .refused hcap
      · exact .acknowledged hcap hall
      · exact .nothingNew hcap hsame
    · exact .goesOn hpart rfl rfl

/-! ### Login messages and numeric replies -/

theorem handles_authenticate (he : e.Open) (hm : m.command = "AUTHENTICATE") :
    Handles e m (e.authenticate m) := by
  have hwelcome := Message.not_isWelcome_of_command hm ⟨'A', by decide, by decide⟩
  rw [authenticate]
  split_ifs with hguard
  · exact .of_aside hwelcome e.aside_stay
  rw [Bool.or_eq_true, not_or, decide_eq_true_eq, decide_eq_true_eq, not_ne_iff, not_ne_iff]
    at hguard
  split
  · exact .of_aside hwelcome e.aside_stay
  · rename_i account password hconfigured
    refine .goesOn (.replied ⟨hm, hguard.1⟩ hconfigured hguard.2 ?_ ?_ rfl) rfl rfl
    · rw [Turn.lines_learn, lines_foldl_queue _ _ he, lines_credentials]
      rfl
    · show Link.negotiated (Turn.engine (List.foldl _ _ _)).link = _
      rw [engine_foldl_queue, engine_stay]

theorem aside_retryNickname (e : Engine) : e.retryNickname.Aside e := by
  rw [retryNickname]
  refine Turn.Aside.queue (r := .nick _) ?_ rfl
  exact ⟨fun _ hline => absurd hline List.not_mem_nil, rfl, rfl⟩

theorem aside_noteFeatures (e : Engine) (m : Message) :
    (e.stay.learn (noteFeatures m)).Aside e := by
  refine e.aside_learn (fun l => ?_) fun l => ?_ <;> rw [noteFeatures] <;> split <;> rfl

theorem handles_finishSasl (he : e.Open) (hm : m.ClosesLogin) (loggedIn : Bool)
    (outcome : Sasl.Outcome) (tags : List Tag) :
    Handles e m (e.finishSasl loggedIn outcome tags) :=
  Handles.andThen_endNegotiation (.closed hm rfl rfl rfl) he (.loginOver hm rfl)

theorem handles_numeric (he : e.Open) {code : Nat} (hcode : m.numeric? = some code)
    (hargs : Reply.ofCode? code = some .welcome → 1 ≤ m.argCount) (now : Instant) :
    Handles e m (e.numeric m code now) := by
  have haside : ∀ {t : Turn}, Reply.ofCode? code ≠ some .welcome → t.Aside e →
      Handles e m t := by
    refine fun hreply ht => .of_aside (fun hwelcome => ?_) ht
    obtain rfl := Option.some_inj.mp (hcode.symm.trans hwelcome.1)
    exact hreply (by decide)
  rw [numeric]
  split
  · rename_i hreply
    exact haside (by simp [hreply]) (e.aside_report _ _)
  · rename_i reply hmode hreply
    refine Handles.report ?_ _ _
    have hcloses : reply.closesLogin = true → m.ClosesLogin :=
      fun h => ⟨code, reply, hcode, hreply, h⟩
    cases reply with
    | welcome =>
      have hone : code = 1 := (Reply.code_of_ofCode? hreply).symm
      exact .goesOn (.welcomed ⟨hone ▸ hcode, hargs hreply⟩ rfl rfl rfl) rfl rfl
    | isupport => exact haside (by simp [hreply]) (e.aside_noteFeatures m)
    | nicknameInUse =>
      rw [react]
      split_ifs
      · exact haside (by simp [hreply]) e.aside_stay
      · exact haside (by simp [hreply]) e.aside_retryNickname
    | loggedOut =>
      refine haside (by simp [hreply]) (Turn.Aside.report (e.aside_learn ?_ ?_) _ _) <;>
        exact fun _ => rfl
    | saslAlready => exact haside (by simp [hreply]) (e.aside_report _ _)
    | loggedIn => exact handles_finishSasl he (hcloses rfl) ..
    | saslSuccess => exact handles_finishSasl he (hcloses rfl) ..
    | nickLocked => exact handles_finishSasl he (hcloses rfl) ..
    | saslFail => exact handles_finishSasl he (hcloses rfl) ..
    | saslTooLong => exact handles_finishSasl he (hcloses rfl) ..
    | saslAborted => exact handles_finishSasl he (hcloses rfl) ..
    | saslMechanisms => exact handles_finishSasl he (hcloses rfl) ..
    | _ => exact haside (by simp [hreply]) e.aside_stay
  · rename_i hreply
    exact haside (by simp [hreply]) (e.aside_report _ _)

/-! ### All messages -/

theorem aside_nick (e : Engine) (m : Message) : (e.nick m).Aside e := by
  rw [nick]
  refine Turn.Aside.report ⟨fun _ hline => absurd hline List.not_mem_nil, ?_, ?_⟩ _ _ <;>
    rw [Turn.update] <;> dsimp only <;> split_ifs <;> rfl

theorem aside_ping (e : Engine) (m : Message) : (e.ping m).Aside e :=
  (e.aside_stay.queue (r := .pong m.lastArg) rfl).report _ _

theorem aside_pong (e : Engine) (m : Message) (now : Instant) : (e.pong m now).Aside e := by
  refine Turn.Aside.report (e.aside_learn ?_ ?_) _ _ <;> exact fun _ => rfl

/-- **What is done about a message**, on a connection. -/
theorem handles_handleMessage (he : e.Open) (m : Message) (now : Instant) :
    Handles e m (e.handleMessage m now) := by
  rw [handleMessage]
  split
  · rename_i missing hmissing
    -- a welcome has the parameter that its route needs
    refine .of_aside (fun hwelcome => ?_) (e.aside_report _ _)
    rw [hwelcome.route] at hmissing
    exact absurd (hmissing.symm.trans (Message.require_eq_ok_iff.mpr hwelcome.2)) (by simp)
  · rename_i hargs
    have haside : ∀ {t : Turn}, (∀ code, Route.ofMessage m ≠ .numeric code) → t.Aside e →
        Handles e m t :=
      fun h ht => .of_aside (fun hwelcome => h 1 hwelcome.route) ht
    cases hroute : Route.ofMessage m with
    | numeric code =>
      refine handles_numeric he (Message.numeric?_of_route hroute) (fun hreply => ?_) now
      have harity : (Route.numeric code).arity e.link.registered = 1 := by
        rw [Route.arity, hreply]
      rw [hroute, harity] at hargs
      exact Message.require_eq_ok_iff.mp hargs
    | cap => exact handles_capability he (Message.command_of_route hroute rfl)
    | authenticate => exact handles_authenticate he (Message.command_of_route hroute rfl)
    | nick => exact haside (by simp [hroute]) (e.aside_nick m)
    | ping => exact haside (by simp [hroute]) (e.aside_ping m)
    | pong => exact haside (by simp [hroute]) (e.aside_pong m now)
    | _ => exact haside (by simp [hroute]) (e.aside_report _ _)

end Engine

/-! ### Acts -/

/-- What an act on a connection does: it handles a message, or has no part in this. -/
inductive Act.Does (a : Act) : Prop where
  | handles {m : Message} (hm : a.op.message? = some m) (h : Engine.Handles a.engine m a.turn)
  | other (hm : a.op.message? = none) (lines : ∀ line ∈ a.lines, Neutral line)
      (link : a.after.state = .connected → a.after.link = a.engine.link)

theorem Act.does {a : Act} (he : a.engine.Open) : a.Does := by
  cases hm : a.op.message? with
  | none =>
    obtain ⟨hlines, hkept⟩ := Engine.turn_of_no_message he hm
    refine .other hm (fun line hline => ?_) fun hstate => (hkept hstate).1
    rw [Act.lines, Act.turn] at hline
    rcases hlines with hlines | ⟨reason, hlines⟩ | ⟨token, hlines⟩ <;> rw [hlines] at hline
    · exact absurd hline List.not_mem_nil
    · exact neutral_of_mem_lines rfl hline
    · exact neutral_of_mem_lines rfl hline
  | some m =>
    obtain ⟨now, hturn⟩ := Engine.turn_of_message hm a.engine
    refine .handles hm ?_
    rw [Act.turn, hturn]
    exact Engine.handles_handleMessage he m now

/-- A client registers without ending a negotiation or logging in. -/
theorem neutral_of_registration {c : Config} {line : String}
    (h : line ∈ c.registration.flatMap Request.lines) : Neutral line := by
  obtain ⟨r, hr, hline⟩ := List.mem_flatMap.mp h
  refine neutral_of_mem_lines ?_ hline
  simp only [Config.registration, List.mem_append, List.mem_cons, List.not_mem_nil, or_false,
    Option.mem_toList, Option.map_eq_some_iff] at hr
  rcases hr with (rfl | ⟨password, -, rfl⟩) | rfl | rfl <;> rfl

/-- An act on a connection handles a message, or says nothing that matters here. -/
theorem Session.Connection.handles_or_neutral {σ : Type} {s : Session σ} {acts : List Act}
    (h : s.Connection acts) : ∀ a ∈ acts,
      (∃ m, a.op.message? = some m ∧ Engine.Handles a.engine m a.turn) ∨
        a.op.message? = none ∧ ∀ line ∈ a.lines, Neutral line := by
  induction h with
  | opened h =>
    intro a ha
    obtain rfl := List.mem_singleton.mp ha
    refine .inr ⟨rfl, fun line hline => ?_⟩
    rw [lines_of_opened h] at hline
    exact neutral_of_registration hline
  | @step s acts h hstate op ih =>
    intro a ha
    rcases List.mem_append.mp ha with ha | ha
    · exact ih a ha
    · obtain rfl := List.mem_singleton.mp ha
      cases Act.does (a := ⟨s.engine, op⟩) (h.open_of_connected hstate) with
      | handles hm h => exact .inl ⟨_, hm, h⟩
      | other hm lines link => exact .inr ⟨hm, lines⟩

end Irc
