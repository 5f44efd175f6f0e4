/-
The course of a login.

A login goes from idle over the mechanism and the credentials to its end, and may leave out
what is in between.  `Sasl.Step` are its steps with what is said in each, and `Sasl.Said` is
all that has been said when it stands where it does.

* **`Act.Does.step`** — an act on a connection is a step of the login;
* **`Sasl.Said.step`** — where the login stands tells what has been said;
* **`Session.Connection.login_once`** — the login of a connection, whatever the server says.
-/
import Irc.Proofs.Handling

namespace Irc

open Outgoing

namespace Sasl

/-! ### The steps of a login -/

/-- How many of its steps a login may have behind it. -/
def Progress.rank : Progress → Nat
  | .idle => 0
  | .mechanismSent => 1
  | .credentialsSent => 2
  | .finished => 3

/-- A step of the login of a client, at a message if there is one, and its lines. -/
inductive Step (c : Config) (m? : Option Message) : Progress → List String → Progress → Prop where
  | stay (p : Progress) : Step c m? p [] p
  | start {m : Message} (hm : m? = some m) (enables : m.EnablesLogin)
      (configured : c.login.isSasl = true) :
      Step c m? .idle [authenticateLine "PLAIN"] .mechanismSent
  | respond {m : Message} (hm : m? = some m) (asks : m.AsksCredentials) {account password : String}
      (configured : c.saslAccount? = some (account, password)) :
      Step c m? .mechanismSent ((credentials account password).map authenticateLine)
        .credentialsSent
  | finish {m : Message} (hm : m? = some m) (closes : m.ClosesLogin) (p : Progress) :
      Step c m? p [] .finished

/-- What a client has said of its login when it stands where it does. -/
inductive Said (c : Config) : Progress → List String → Prop where
  | nothing : Said c .idle []
  | mechanism (configured : c.login.isSasl = true) :
      Said c .mechanismSent [authenticateLine "PLAIN"]
  | response {account password : String} (configured : c.saslAccount? = some (account, password)) :
      Said c .credentialsSent
        (authenticateLine "PLAIN" :: (credentials account password).map authenticateLine)
  | closed {p : Progress} {lines : List String} (h : Said c p lines) : Said c .finished lines

variable {c : Config} {m? : Option Message} {p p' : Progress} {lines said : List String}

theorem Step.rank_le (h : Step c m? p lines p') : p.rank ≤ p'.rank := by
  cases h with
  | stay => exact Nat.le_refl _
  | start hm enables configured => decide
  | respond hm asks configured => decide
  | finish hm closes => cases p <;> decide

/-- Something is said of a login only about a message that calls for it. -/
theorem Step.occasion {m : Message} (h : Step c (some m) p lines p') :
    lines = [] ∨ m.EnablesLogin ∧ lines = [authenticateLine "PLAIN"] ∨
      m.AsksCredentials ∧ ∃ account password, c.saslAccount? = some (account, password) ∧
        lines = (credentials account password).map authenticateLine := by
  cases h with
  | stay => exact .inl rfl
  | start hm enables configured => exact .inr (.inl ⟨Option.some_inj.mp hm ▸ enables, rfl⟩)
  | respond hm asks configured =>
    exact .inr (.inr ⟨Option.some_inj.mp hm ▸ asks, _, _, configured, rfl⟩)
  | finish hm closes => exact .inl rfl

/-- Where the login stands tells what has been said. -/
theorem Said.step (hs : Said c p said) (h : Step c m? p lines p') : Said c p' (said ++ lines) := by
  cases h with
  | stay => rwa [List.append_nil]
  | start hm enables configured =>
    cases hs with
    | nothing => exact .mechanism configured
  | respond hm asks configured =>
    cases hs with
    | mechanism => exact .response configured
  | finish hm closes =>
    rw [List.append_nil]
    exact hs.closed

/-- A client without a login says nothing of it. -/
theorem Said.eq_nil (hs : Said c p said) (hc : c.login.isSasl = false) : said = [] := by
  induction hs with
  | nothing => rfl
  | mechanism configured => exact absurd (hc.symm.trans configured) (by simp)
  | response configured =>
    rw [Config.saslAccount?] at configured
    split at configured
    · exact absurd configured (by simp)
    · rename_i hlogin
      rw [hlogin] at hc
      exact absurd hc (by simp [Login.isSasl])
  | closed h ih => exact ih

/-- What is said of a login is nothing, the mechanism, or all of it. -/
theorem Said.cut (hs : Said c p said) {account password : String}
    (hc : c.saslAccount? = some (account, password)) :
    said = [] ∨ said = [authenticateLine "PLAIN"] ∨
      said = authenticateLine "PLAIN" :: (credentials account password).map authenticateLine := by
  induction hs with
  | nothing => exact .inl rfl
  | mechanism configured => exact .inr (.inl rfl)
  | response configured =>
    obtain ⟨rfl, rfl⟩ := Prod.mk.inj (Option.some_inj.mp (hc.symm.trans configured))
    exact .inr (.inr rfl)
  | closed h ih => exact ih

end Sasl

/-! ### Acts -/

namespace Engine

variable {e : Engine} {m : Message} {t : Turn}

theorem Part.step (h : Part e m t) :
    Sasl.Step e.config (some m) e.link.sasl (t.lines.filter isAuthenticate)
      t.engine.link.sasl := by
  cases h with
  | aside hm h =>
    rw [Turn.filter_isAuthenticate_eq_nil h.lines, h.sasl]
    exact .stay _
  | welcomed hm lines negotiated sasl =>
    rw [lines, sasl]
    exact .stay _
  | begun hm h =>
    rw [h.lines, h.idle, h.sasl]
    exact .start rfl hm h.configured
  | replied hm configured begun lines negotiated sasl =>
    rw [lines, begun, sasl, List.filter_eq_self.mpr]
    · exact .respond rfl hm configured
    · intro line hline
      obtain ⟨payload, -, rfl⟩ := List.mem_map.mp hline
      exact isAuthenticate_authenticateLine payload
  | closed hm lines negotiated sasl =>
    rw [lines, sasl]
    exact .finish rfl hm _

theorem Handles.step (h : Handles e m t) :
    Sasl.Step e.config (some m) e.link.sasl (t.lines.filter isAuthenticate)
      t.engine.link.sasl := by
  cases h with
  | goesOn h engine lines =>
    rw [engine, lines]
    exact h.step
  | ends h cause undecided mayEnd engine lines =>
    have hend : [capEndLine].filter isAuthenticate = [] := by decide +kernel
    rw [engine, lines, List.filter_append, hend, List.append_nil]
    exact h.step

end Engine

/-- An act on a connection is a step of the login. -/
theorem Act.Does.step {a : Act} (h : a.Does) :
    ∃ p, Sasl.Step a.engine.config a.op.message? a.engine.link.sasl
        (a.lines.filter isAuthenticate) p ∧
      (a.after.state = .connected → a.after.link.sasl = p) := by
  cases h with
  | handles hm h => exact ⟨a.after.link.sasl, hm ▸ h.step, fun _ => rfl⟩
  | other hm lines link =>
    rw [Turn.filter_isAuthenticate_eq_nil lines]
    exact ⟨a.engine.link.sasl, .stay _, fun hstate => by rw [link hstate]⟩

/-! ### A whole connection -/

namespace Session.Connection

variable {σ : Type} {s : Session σ} {acts : List Act}

/-- The engine knows what it has said of the login. -/
theorem said (h : s.Connection acts) :
    ∃ p, Sasl.Said s.engine.config p ((acts.flatMap Act.lines).filter isAuthenticate) ∧
      (s.engine.state = .connected → s.engine.link.sasl = p) := by
  induction h with
  | opened h =>
    refine ⟨.idle, ?_, fun _ => by rw [(engine_of_opened h).1]; rfl⟩
    rw [List.flatMap_singleton, lines_of_opened h,
      Turn.filter_isAuthenticate_eq_nil fun line => neutral_of_registration]
    exact .nothing
  | @step s acts h hstate op ih =>
    obtain ⟨p, hsaid, hp⟩ := ih
    obtain ⟨p', hstep, hp'⟩ := (Act.does (a := ⟨s.engine, op⟩) (h.open_of_connected hstate)).step
    -- the connection was still there before this act, so the login stood at `p`
    rw [← hp hstate] at hsaid
    rw [List.flatMap_append, List.flatMap_singleton, List.filter_append, engine_operate,
      Engine.config_turn]
    exact ⟨p', hsaid.step hstep, hp'⟩

/-- The login does not go back. -/
theorem pairwise_rank (h : s.Connection acts) :
    acts.Pairwise (fun a b => b.after.state = .connected →
        a.after.link.sasl.rank ≤ b.after.link.sasl.rank) ∧
      (s.engine.state = .connected →
        ∀ a ∈ acts, a.after.link.sasl.rank ≤ s.engine.link.sasl.rank) := by
  induction h with
  | opened h =>
    refine ⟨List.pairwise_singleton _ _, fun _ a ha => ?_⟩
    rw [List.mem_singleton.mp ha, Act.after, Act.turn, (engine_of_opened h).2]
    exact Nat.zero_le _
  | @step s acts h hstate op ih =>
    obtain ⟨hpairs, hbefore⟩ := ih
    obtain ⟨p, hstep, hp⟩ := (Act.does (a := ⟨s.engine, op⟩) (h.open_of_connected hstate)).step
    have hlast : (s.engine.turn op).engine.state = .connected →
        s.engine.link.sasl.rank ≤ (s.engine.turn op).engine.link.sasl.rank := by
      intro hafter
      exact hstep.rank_le.trans_eq (congrArg Sasl.Progress.rank (hp hafter).symm)
    have hall : (s.engine.turn op).engine.state = .connected → ∀ a ∈ acts,
        a.after.link.sasl.rank ≤ (s.engine.turn op).engine.link.sasl.rank :=
      fun hafter a ha => (hbefore hstate a ha).trans (hlast hafter)
    refine ⟨List.pairwise_append.mpr ⟨hpairs, List.pairwise_singleton _ _, ?_⟩, ?_⟩
    · intro a ha b hb hafter
      obtain rfl := List.mem_singleton.mp hb
      exact hall hafter a ha
    · rw [engine_operate]
      intro hafter a ha
      rcases List.mem_append.mp ha with ha | ha
      · exact hall hafter a ha
      · rw [List.mem_singleton.mp ha]
        exact le_rfl

/-- What is said of the login is said about a message that calls for it. -/
theorem login_occasion (h : s.Connection acts) : ∀ a ∈ acts, a.lines.filter isAuthenticate = [] ∨
    ∃ m, a.op.message? = some m ∧
      (m.EnablesLogin ∧ a.lines.filter isAuthenticate = [authenticateLine "PLAIN"] ∨
        m.AsksCredentials ∧ ∃ account password,
          s.engine.config.saslAccount? = some (account, password) ∧
            a.lines.filter isAuthenticate =
              (Sasl.credentials account password).map authenticateLine) := by
  intro a ha
  rcases h.handles_or_neutral a ha with ⟨m, hm, hhandles⟩ | ⟨-, hneutral⟩
  · rw [← h.config_eq a ha]
    exact hhandles.step.occasion.imp_right fun h => ⟨m, hm, h⟩
  · exact .inl (Turn.filter_isAuthenticate_eq_nil hneutral)

/-- What the engine queues of the login is nothing, the mechanism, or all of it. -/
theorem queued_login {now : Instant} {ops : List Operation} (h : s.Unprompted now ops) :
    ∃ lines, (s.run (.call (.connectFinished now) :: ops)).queued = s.queued ++ lines ∧
      (s.engine.config.login.isSasl = false → lines.filter isAuthenticate = []) ∧
      ∀ account password, s.engine.config.saslAccount? = some (account, password) →
        lines.filter isAuthenticate = [] ∨
          lines.filter isAuthenticate = [authenticateLine "PLAIN"] ∨
            lines.filter isAuthenticate = authenticateLine "PLAIN" ::
              (Sasl.credentials account password).map authenticateLine := by
  obtain ⟨hconnection, hqueued⟩ := h.connection
  obtain ⟨p, hsaid, -⟩ := hconnection.said
  rw [← hconnection.config_eq _ List.mem_cons_self] at hsaid
  exact ⟨_, hqueued, hsaid.eq_nil, fun account password hc => hsaid.cut hc⟩

/-- **The login of a connection**, whatever the server says.  A client without a login says
nothing of one.  Else it names the mechanism and then gives its credentials, each once at
most and whole: the one when the server enables login, the other when it asks for them.
The login does not go back. -/
theorem login_once (h : s.Connection acts) :
    (s.engine.config.login.isSasl = false →
        (acts.flatMap Act.lines).filter isAuthenticate = []) ∧
      (∀ account password, s.engine.config.saslAccount? = some (account, password) →
        (acts.flatMap Act.lines).filter isAuthenticate = [] ∨
          (acts.flatMap Act.lines).filter isAuthenticate = [authenticateLine "PLAIN"] ∨
            (acts.flatMap Act.lines).filter isAuthenticate = authenticateLine "PLAIN" ::
              (Sasl.credentials account password).map authenticateLine) ∧
      (∀ a ∈ acts, a.lines.filter isAuthenticate = [] ∨ ∃ m, a.op.message? = some m ∧
        (m.EnablesLogin ∧ a.lines.filter isAuthenticate = [authenticateLine "PLAIN"] ∨
          m.AsksCredentials ∧ ∃ account password,
            s.engine.config.saslAccount? = some (account, password) ∧
              a.lines.filter isAuthenticate =
                (Sasl.credentials account password).map authenticateLine)) ∧
      acts.Pairwise fun a b => b.after.state = .connected →
        a.after.link.sasl.rank ≤ b.after.link.sasl.rank := by
  obtain ⟨p, hsaid, -⟩ := h.said
  exact ⟨hsaid.eq_nil, fun account password hc => hsaid.cut hc, h.login_occasion,
    h.pairwise_rank.1⟩

theorem login_once_of_acknowledged :
    let config : Config :=
      { Config.forServer "irc.example" 6667 "me" with login := .saslPlain none "secret" }
    let acts := (dialing config).acts [.call (.connectFinished ⟨0⟩),
      .line ":irc.example CAP * LS :sasl" ⟨0⟩, .line ":irc.example CAP * ACK :sasl" ⟨0⟩,
      .line "AUTHENTICATE +" ⟨0⟩]
    (∃ s : Session Unit, s.Connection acts) ∧
      (acts.flatMap Act.lines).filter isAuthenticate = authenticateLine "PLAIN" ::
        (Sasl.credentials "me" "secret").map authenticateLine := by
  intro config acts
  have h := connection_dialing config [.line ":irc.example CAP * LS :sasl" ⟨0⟩,
    .line ":irc.example CAP * ACK :sasl" ⟨0⟩, .line "AUTHENTICATE +" ⟨0⟩] (by decide +kernel)
  have hlength : ((acts.flatMap Act.lines).filter isAuthenticate).length = 2 := by decide +kernel
  obtain ⟨-, hcut, -, -⟩ := login_once h
  rcases hcut "me" "secret" (by decide +kernel) with hnothing | hmechanism | hall
  · exact absurd hlength (by rw [hnothing]; decide)
  · exact absurd hlength (by rw [hmechanism]; decide)
  · exact ⟨⟨_, h⟩, hall⟩

end Session.Connection

end Irc
