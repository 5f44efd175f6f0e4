/-
How a negotiation ends, and how a login begins.

Most turns have no part in either.  A negotiation ends with a word of the client unless a
login is under way, and a login begins with the acknowledgement of its capability.

* **`Turn.Aside`** — turns that have no part in the end of a negotiation or in a login;
* **`Engine.endNegotiation_of_mayEnd`** — when the negotiation ends, and how;
* **`Engine.acknowledge_inTurn_cases`** — an acknowledgement begins the login at most once.
-/
import Irc.Proofs.Connection
import Irc.Proofs.Wording

namespace Irc

open Outgoing Capability

/-! ### The messages that matter -/

/-- The server welcomes the client under a nickname. -/
def Message.IsWelcome (m : Message) : Prop := m.numeric? = some 1 ∧ 1 ≤ m.argCount

/-- A capability message with a subcommand. -/
def Message.IsCap (sub : Subcommand) (m : Message) : Prop :=
  m.command = "CAP" ∧ Subcommand.parse? (m.arg 1) = some sub

/-- An entry of an acknowledgement says that a capability is enabled: it is its name, with
no `-` among the marks in front. -/
def Registry.Enables (entry : String) (cap : Capability) : Prop :=
  '-' ∉ entry.toList.takeWhile isModifier ∧
    ofName? (String.ofList (entry.toList.dropWhile isModifier)) = some cap

/-- The server acknowledges that login is enabled. -/
def Message.EnablesLogin (m : Message) : Prop :=
  m.IsCap .ack ∧ ∃ entry ∈ parseNames (m.arg 2), Registry.Enables entry .sasl

/-- The server asks for the credentials. -/
def Message.AsksCredentials (m : Message) : Prop := m.command = "AUTHENTICATE" ∧ m.arg 0 = "+"

/-- The replies after which a login is over, whether it came to something or not. -/
def Reply.closesLogin : Reply → Bool
  | .loggedIn | .saslSuccess | .nickLocked | .saslFail | .saslTooLong | .saslAborted
  | .saslMechanisms => true
  | _ => false

/-- The server has answered for good on a login. -/
def Message.ClosesLogin (m : Message) : Prop :=
  ∃ code reply, m.numeric? = some code ∧ Reply.ofCode? code = some reply ∧
    reply.closesLogin = true

/-- An offer tells nothing of what was asked for and what is enabled. -/
theorem Registry.allRequestedEnabled_offer {r after : Registry} {name : String}
    {value : Option String} {queued : Bool} (h : r.offer name value = .ok (queued, after)) :
    after.allRequestedEnabled = r.allRequestedEnabled := by
  have hflags : ∀ cap, (after.status cap).requested = (r.status cap).requested ∧
      (after.status cap).enabled = (r.status cap).enabled := by
    intro other
    rw [offer] at h
    split at h
    · exact absurd h (by simp)
    rename_i cap hcap
    dsimp only at h
    split_ifs at h <;> obtain ⟨-, rfl⟩ := Prod.mk.inj (Except.ok.inj h) <;>
      simp only [status_setPending, status_put] <;> split_ifs with heq <;> simp [heq]
  simp only [allRequestedEnabled, hflags]

theorem Registry.enables_of_acknowledge {r after : Registry} {entry : String} {cap : Capability}
    (h : r.acknowledge entry = .ok ((cap, true), after)) : Enables entry cap := by
  rw [acknowledge] at h
  dsimp only at h
  split at h
  · exact absurd h (by simp)
  rename_i cap' hlookup
  split_ifs at h with hmark
  · exact absurd h (by simp)
  · obtain ⟨hanswer, -⟩ := Prod.mk.inj (Except.ok.inj h)
    obtain ⟨rfl, -⟩ := Prod.mk.inj hanswer
    refine ⟨by simpa using hmark, ?_⟩
    rw [lookup] at hlookup
    split at hlookup
    · rename_i found hfound
      rw [← Except.ok.inj hlookup]
      exact hfound
    · exact absurd hlookup (by simp)

namespace Message

variable {m : Message}

theorem IsWelcome.route (h : m.IsWelcome) : Route.ofMessage m = .numeric 1 := by
  rw [Route.ofMessage, h.1]

theorem not_isWelcome_of_command {word : String} (h : m.command = word)
    (hword : ∃ c ∈ word.toList, c.isDigit = false) : ¬ m.IsWelcome := by
  obtain ⟨c, hc, hdigit⟩ := hword
  rintro ⟨hnumeric, -⟩
  rw [numeric?, h] at hnumeric
  have hall : word.toList.all Char.isDigit = false :=
    List.all_eq_false.mpr ⟨c, hc, by simp [hdigit]⟩
  exact absurd hnumeric (by simp [hall])

end Message

/-! ### Turns that have no part in it -/

/-- A turn from an engine neither ends the negotiation nor takes part in a login. -/
structure Turn.Aside (t : Turn) (e : Engine) : Prop where
  lines : ∀ line ∈ t.lines, Neutral line
  negotiated : t.engine.link.negotiated = e.link.negotiated
  sasl : t.engine.link.sasl = e.link.sasl

/-- A turn from an engine begins the login. -/
structure Turn.Begins (t : Turn) (e : Engine) : Prop where
  configured : e.config.login.isSasl = true
  idle : e.link.sasl = .idle
  undecided : capEndLine ∉ t.lines
  lines : t.lines.filter isAuthenticate = [authenticateLine "PLAIN"]
  negotiated : t.engine.link.negotiated = e.link.negotiated
  sasl : t.engine.link.sasl = .mechanismSent

namespace Turn

variable {t : Turn} {e : Engine}

theorem filter_isAuthenticate_eq_nil {lines : List String} (h : ∀ line ∈ lines, Neutral line) :
    lines.filter isAuthenticate = [] :=
  List.filter_eq_nil_iff.mpr fun line hline => Bool.eq_false_iff.mp (h line hline).2

theorem Aside.capEndLine_notMem (h : t.Aside e) : capEndLine ∉ t.lines :=
  fun hmem => (h.lines capEndLine hmem).1 rfl

theorem Aside.report (h : t.Aside e) (event : Event) (tags : List Tag) :
    (t.report event tags).Aside e where
  lines := by
    rw [lines_report]
    exact h.lines
  negotiated := h.negotiated
  sasl := h.sasl

theorem Aside.queue (h : t.Aside e) {r : Request} (hr : r.isNeutral = true) :
    (t.queue r).Aside e where
  lines := by
    rw [lines_queue, List.forall_mem_append]
    refine ⟨h.lines, fun line hline => ?_⟩
    rw [Engine.lines_queue] at hline
    split_ifs at hline
    · exact neutral_of_mem_lines hr hline
    · exact absurd hline List.not_mem_nil
  negotiated := by
    rw [engine_queue]
    exact h.negotiated
  sasl := by
    rw [engine_queue]
    exact h.sasl

theorem Aside.learn (h : t.Aside e) {change : Link → Link}
    (hnegotiated : ∀ l, (change l).negotiated = l.negotiated)
    (hsasl : ∀ l, (change l).sasl = l.sasl) : (t.learn change).Aside e where
  lines := h.lines
  negotiated := (hnegotiated _).trans h.negotiated
  sasl := (hsasl _).trans h.sasl

theorem Aside.andThen (h : t.Aside e) {next : Engine → Turn}
    (hnext : (next t.engine).Aside t.engine) : (t.andThen next).Aside e where
  lines := by
    rw [lines_andThen, List.forall_mem_append]
    exact ⟨h.lines, hnext.lines⟩
  negotiated := hnext.negotiated.trans h.negotiated
  sasl := hnext.sasl.trans h.sasl

theorem Begins.report (h : t.Begins e) (event : Event) (tags : List Tag) :
    (t.report event tags).Begins e where
  configured := h.configured
  idle := h.idle
  undecided := by
    rw [lines_report]
    exact h.undecided
  lines := by
    rw [lines_report]
    exact h.lines
  negotiated := h.negotiated
  sasl := h.sasl

theorem Aside.andThen_begins (h : t.Aside e) (hconfig : t.engine.config = e.config)
    {next : Engine → Turn} (hnext : (next t.engine).Begins t.engine) :
    (t.andThen next).Begins e where
  configured := hconfig ▸ hnext.configured
  idle := h.sasl.symm.trans hnext.idle
  undecided := by
    rw [lines_andThen, List.mem_append, not_or]
    exact ⟨h.capEndLine_notMem, hnext.undecided⟩
  lines := by
    rw [lines_andThen, List.filter_append, filter_isAuthenticate_eq_nil h.lines, hnext.lines]
    rfl
  negotiated := hnext.negotiated.trans h.negotiated
  sasl := hnext.sasl

theorem Begins.andThen (h : t.Begins e) {next : Engine → Turn}
    (hnext : (next t.engine).Aside t.engine) : (t.andThen next).Begins e where
  configured := h.configured
  idle := h.idle
  undecided := by
    rw [lines_andThen, List.mem_append, not_or]
    exact ⟨h.undecided, hnext.capEndLine_notMem⟩
  lines := by
    rw [lines_andThen, List.filter_append, h.lines, filter_isAuthenticate_eq_nil hnext.lines]
    rfl
  negotiated := hnext.negotiated.trans h.negotiated
  sasl := hnext.sasl.trans h.sasl

end Turn

namespace Engine

variable {e : Engine}

theorem aside_stay (e : Engine) : e.stay.Aside e :=
  ⟨fun _ hline => absurd hline List.not_mem_nil, rfl, rfl⟩

theorem aside_report (e : Engine) (event : Event) (tags : List Tag) :
    (e.report event tags).Aside e :=
  ⟨fun _ hline => absurd hline List.not_mem_nil, rfl, rfl⟩

theorem aside_learn (e : Engine) {change : Link → Link}
    (hnegotiated : ∀ l, (change l).negotiated = l.negotiated)
    (hsasl : ∀ l, (change l).sasl = l.sasl) : (e.stay.learn change).Aside e :=
  e.aside_stay.learn hnegotiated hsasl

theorem aside_noteCaps (e : Engine) (caps : Registry) :
    (e.stay.learn fun l => { l with caps := caps }).Aside e :=
  e.aside_learn (fun _ => rfl) fun _ => rfl

theorem aside_requestPending (e : Engine) : e.requestPending.Aside e := by
  rw [requestPending]
  split
  · exact e.aside_stay
  · exact (e.aside_noteCaps _).queue (r := .capReq _) rfl

theorem aside_noteOffers (e : Engine) (list : String) :
    (e.stay.learn (noteOffers list)).Aside e := e.aside_learn (fun _ => rfl) fun _ => rfl

theorem aside_deny (e : Engine) (name : String) : (e.deny name).Aside e := by
  rw [deny]
  split
  · exact e.aside_report _ _
  · exact e.aside_noteCaps _

theorem aside_revoke (e : Engine) (name : String) : (e.revoke name).Aside e := by
  rw [revoke]
  split
  · exact e.aside_report _ _
  · exact e.aside_noteCaps _

theorem aside_inTurn {turn : Engine → String → Turn} (h : ∀ e name, (turn e name).Aside e)
    (names : List String) (e : Engine) : (inTurn turn names e).Aside e := by
  induction names generalizing e with
  | nil => exact e.aside_stay
  | cons name names ih => exact (h e name).andThen (ih _)

/-! ### The end of a negotiation -/

/-- No login is under way that could still come to something. -/
def MayEnd (e : Engine) : Prop :=
  e.config.login.isSasl = true → e.link.caps.isEnabled .sasl = true →
    e.link.loggedIn = true ∨ e.link.sasl = .finished

/-- The negotiation of an engine is over. -/
def decided (e : Engine) : Engine := { e with link := { e.link with negotiated := true } }

theorem finishNegotiation_of_open (he : e.Open) (hopen : e.link.negotiated = false) :
    e.finishNegotiation = ⟨e.decided, [.line capEndLine]⟩ := by
  have hqueue : e.decided.queue .capEnd = ⟨e.decided, [.line capEndLine]⟩ := by
    rw [queue_of_open (e := e.decided) he, lines_capEnd]
    rfl
  rw [finishNegotiation, if_neg (by simp [hopen])]
  exact (Turn.stay_andThen e fun _ => e.decided.queue .capEnd).trans hqueue

/-- When the negotiation ends, and how. -/
theorem endNegotiation_of_mayEnd (he : e.Open) (hopen : e.link.negotiated = false)
    (hmay : e.MayEnd) :
    e.endNegotiation.lines = [capEndLine] ∧ e.endNegotiation.engine = e.decided := by
  have hfinish := finishNegotiation_of_open he hopen
  rw [endNegotiation, if_neg (by simp [hopen])]
  split_ifs with hsasl henabled hdone
  · rw [hfinish]
    exact ⟨rfl, rfl⟩
  · rw [Turn.lines_andThen, Turn.engine_andThen, engine_report, hfinish]
    exact ⟨rfl, rfl⟩
  · rw [hfinish]
    exact ⟨rfl, rfl⟩
  · rw [Bool.not_eq_true', Bool.not_eq_false] at hsasl henabled
    exact absurd (hmay hsasl henabled) (by simpa using hdone)

/-- The negotiation goes on while a login is under way. -/
theorem endNegotiation_of_not (h : e.link.negotiated = true ∨ ¬ e.MayEnd) :
    e.endNegotiation = e.stay := by
  rw [endNegotiation]
  split_ifs with hopen hsasl henabled hdone
  · rfl
  · exact (h.resolve_left hopen fun hlogin => absurd hlogin (by simpa using hsasl)).elim
  · exact (h.resolve_left hopen fun _ hcap => absurd hcap (by simpa using henabled)).elim
  · exact (h.resolve_left hopen fun _ _ => by simpa using hdone).elim
  · rfl

/-! ### The beginning of a login -/

theorem startSasl_cases (he : e.Open) : e.startSasl.Aside e ∨ e.startSasl.Begins e := by
  rw [startSasl]
  split_ifs with hguard
  · exact .inl e.aside_stay
  · rw [Bool.or_eq_true, Bool.or_eq_true, not_or, not_or] at hguard
    obtain ⟨⟨hsasl, -⟩, hidle⟩ := hguard
    have hlines : ((e.stay.learn fun l => { l with sasl := .mechanismSent }).queue
        (.authenticate "PLAIN")).lines = [authenticateLine "PLAIN"] := by
      rw [Turn.lines_queue, lines_queue_of_open (open_of_life (Turn.life_learn _ _) |>.mpr he),
        lines_authenticate_plain]
      rfl
    refine .inr ⟨by simpa using hsasl, by simpa using hidle, ?_, ?_, ?_, ?_⟩
    · rw [hlines]
      decide +kernel
    · rw [hlines]
      decide +kernel
    · rw [Turn.engine_queue]
      rfl
    · rw [Turn.engine_queue]
      rfl

theorem acknowledge_cases (he : e.Open) (entry : String) :
    (e.acknowledge entry).Aside e ∨
      (e.acknowledge entry).Begins e ∧ Registry.Enables entry .sasl := by
  rw [acknowledge]
  split
  · exact .inl (e.aside_report _ _)
  · rename_i cap enabled caps hack
    have hnoted := e.aside_noteCaps caps
    dsimp only
    split_ifs with hlogin
    · rw [Bool.and_eq_true, decide_eq_true_eq] at hlogin
      obtain ⟨rfl, rfl⟩ := hlogin
      rcases startSasl_cases (e := (e.stay.learn fun l => { l with caps := caps }).engine) he with
        haside | hbegins
      · exact .inl (hnoted.andThen haside)
      · exact .inr ⟨hnoted.andThen_begins rfl hbegins, Registry.enables_of_acknowledge hack⟩
    · exact .inl hnoted

/-- An acknowledgement begins the login at most once, and only at an entry for it. -/
theorem acknowledge_inTurn_cases (he : e.Open) (names : List String) :
    (inTurn acknowledge names e).Aside e ∨
      (inTurn acknowledge names e).Begins e ∧ ∃ entry ∈ names, Registry.Enables entry .sasl := by
  induction names generalizing e with
  | nil => exact .inl e.aside_stay
  | cons name names ih =>
    have hlife := (e.remark_acknowledge name).response.life
    have hrest := ih ((open_of_life hlife).mpr he)
    rw [inTurn]
    rcases acknowledge_cases he name with hfirst | ⟨hfirst, henables⟩
    · rcases hrest with hrest | ⟨hrest, entry, hentry, henables⟩
      · exact .inl (hfirst.andThen hrest)
      · exact .inr ⟨hfirst.andThen_begins (config_of_life hlife) hrest, entry,
          List.mem_cons_of_mem name hentry, henables⟩
    · rcases hrest with hrest | ⟨hrest, -⟩
      · exact .inr ⟨hfirst.andThen hrest, name, List.mem_cons_self, henables⟩
      · -- a login that has begun does not begin again
        exact absurd (hfirst.sasl.symm.trans hrest.idle) (by simp)

end Engine

end Irc
