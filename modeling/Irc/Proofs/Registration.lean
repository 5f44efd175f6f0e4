/-
What a client registers with.

A configuration is checked before a session is made, and each line that a client registers with
is checked when its connection opens.  The second check asks for more: names that may stand in a
line, and room for them.  A line that does not pass is left out, so a valid configuration is
registered with in full just when its names pass as well.

* **`Config.validate_eq_ok_iff`** — which configurations are valid;
* **`Config.Registrable`**, **`Config.registrable_iff`** — which of them can be registered with in
  full;
* **`Session.Reachable.disconnected_of_freed`** — a session that is over is not connecting;
* **`Session.registers`** — what a client with a valid configuration registers with.
-/
import Irc.Proofs.Answers
import Irc.Proofs.Intake
import Irc.Proofs.Reconnect
import Irc.Proofs.Wording

namespace Irc

open Outgoing Lifecycle Text

namespace Config

/-! ### Valid configurations -/

/-- A configuration without a fault. -/
structure Valid (c : Config) : Prop where
  host : c.host ≠ ""
  port : c.port ≠ 0
  nickname : c.nickname ≠ ""
  username : c.username ≠ ""
  realname : c.realname ≠ ""
  login : c.lacksPassword = false
  pingInterval : c.timing.pingInterval ≠ Duration.zero
  pingTimeout : c.timing.pingTimeout ≠ Duration.zero
  reconnectBase : c.timing.reconnectBase ≠ Duration.zero
  patience : c.timing.pingInterval.nanos ≤ c.timing.pingTimeout.nanos

/-- A check that does not object leaves the rest of the checks to decide. -/
theorem check_eq_ok_iff {p : Prop} [Decidable p] {fault : ConfigError}
    {rest : Except ConfigError Unit} :
    (if p then .error fault else rest) = .ok () ↔ ¬p ∧ rest = .ok () := by
  split_ifs with h <;> simp [h]

theorem validate_eq_ok_iff {c : Config} : c.validate = .ok () ↔ c.Valid := by
  simp only [validate, check_eq_ok_iff, and_true]
  constructor
  · rintro ⟨h₁, h₂, h₃, h₄, h₅, h₆, h₇, h₈, h₉, h₁₀⟩
    exact ⟨h₁, h₂, h₃, h₄, h₅, Bool.eq_false_iff.mpr h₆, h₇, h₈, h₉, Nat.le_of_not_lt h₁₀⟩
  · rintro ⟨h₁, h₂, h₃, h₄, h₅, h₆, h₇, h₈, h₉, h₁₀⟩
    exact ⟨h₁, h₂, h₃, h₄, h₅, Bool.eq_false_iff.mp h₆, h₇, h₈, h₉, Nat.not_lt.mpr h₁₀⟩

/-! ### Lines to register with -/

/-- A line of a client that has one parameter is sent. -/
def Passes (verb param : String) : Prop :=
  Placeable param ∧ (paramLine verb param).utf8ByteSize ≤ Limits.outgoing

instance (verb param : String) : Decidable (Passes verb param) :=
  inferInstanceAs (Decidable (_ ∧ _))

/-- The line with the names of the user is sent. -/
def PassesUser (username realname : String) : Prop :=
  Placeable username ∧ lineBreaker? realname = none ∧
    (userLine username realname).utf8ByteSize ≤ Limits.outgoing

instance (username realname : String) : Decidable (PassesUser username realname) :=
  inferInstanceAs (Decidable (_ ∧ _ ∧ _))

/-- All that a client has to say when its connection opens. -/
def registrationLines (c : Config) : List String :=
  "CAP LS 302\r\n" :: c.password.toList.map (paramLine "PASS") ++
    [paramLine "NICK" c.nickname, userLine c.username c.realname]

/-- What a client says of it. -/
def saidLines (c : Config) : List String :=
  "CAP LS 302\r\n" ::
    (c.password.toList.filter fun password => Passes "PASS" password).map (paramLine "PASS") ++
      ((if Passes "NICK" c.nickname then [paramLine "NICK" c.nickname] else []) ++
        if PassesUser c.username c.realname then [userLine c.username c.realname] else [])

/-- Every line to register with is sent. -/
structure Registrable (c : Config) : Prop where
  password : ∀ password, c.password = some password → Passes "PASS" password
  nickname : Passes "NICK" c.nickname
  user : PassesUser c.username c.realname

/-- How much may be registered with. -/
theorem registrable_iff {c : Config} :
    c.Registrable ↔
      (∀ password, c.password = some password →
        Placeable password ∧ password.utf8ByteSize ≤ 455) ∧
      (Placeable c.nickname ∧ c.nickname.utf8ByteSize ≤ 455) ∧
      (Placeable c.username ∧ lineBreaker? c.realname = none ∧
        c.username.utf8ByteSize + c.realname.utf8ByteSize ≤ 449) := by
  have hbudget : Limits.outgoing = 462 := rfl
  have hparam : ∀ verb param : String, verb.utf8ByteSize = 4 →
      (Passes verb param ↔ Placeable param ∧ param.utf8ByteSize ≤ 455) := by
    intro verb param hverb
    rw [Passes, utf8ByteSize_paramLine, hbudget]
    exact and_congr_right fun _ => by omega
  have huser : PassesUser c.username c.realname ↔ Placeable c.username ∧
      lineBreaker? c.realname = none ∧
        c.username.utf8ByteSize + c.realname.utf8ByteSize ≤ 449 := by
    rw [PassesUser, utf8ByteSize_userLine, hbudget]
    exact and_congr_right fun _ => and_congr_right fun _ => by omega
  rw [← huser, ← hparam "NICK" c.nickname (by decide)]
  simp only [← hparam "PASS" _ (by decide)]
  exact ⟨fun ⟨hpassword, hnickname, huser⟩ => ⟨hpassword, hnickname, huser⟩,
    fun ⟨hpassword, hnickname, huser⟩ => ⟨hpassword, hnickname, huser⟩⟩

theorem lines_registration {c : Config} (hrealname : c.realname ≠ "") :
    c.registration.flatMap Request.lines = c.saidLines := by
  have hcapLs : (Request.capLs (some "302")).lines = ["CAP LS 302\r\n"] := by decide +kernel
  have hpass : ∀ password, (Request.pass password).lines =
      if Passes "PASS" password then [paramLine "PASS" password] else [] :=
    fun password => Request.lines_of_checkMiddle "PASS" rfl
  have hnick : (Request.nick c.nickname).lines =
      if Passes "NICK" c.nickname then [paramLine "NICK" c.nickname] else [] :=
    Request.lines_of_checkMiddle "NICK" rfl
  have huser : (Request.user c.username c.realname).lines =
      if PassesUser c.username c.realname then [userLine c.username c.realname] else [] :=
    lines_user hrealname
  have hpassword : (c.password.map Request.pass).toList.flatMap Request.lines =
      (c.password.toList.filter fun password => Passes "PASS" password).map
        (paramLine "PASS") := by
    cases c.password with
    | none => rfl
    | some password =>
      show (Request.pass password).lines ++ [] = _
      rw [hpass, List.append_nil, Option.toList_some, List.filter_singleton]
      split_ifs with hpasses <;> simp [hpasses]
  rw [registration, List.cons_append, List.flatMap_cons, List.flatMap_append, hcapLs, hpassword,
    List.flatMap_cons, List.flatMap_singleton, hnick, huser]
  rfl

/-- Everything is said just when every line passes. -/
theorem saidLines_eq_iff {c : Config} : c.saidLines = c.registrationLines ↔ c.Registrable := by
  rw [saidLines, registrationLines]
  constructor
  · -- A line that is left out leaves too few behind.
    intro h
    have hpasswords := List.length_filter_le
      (fun password => decide (Passes "PASS" password)) c.password.toList
    have hlength := congrArg List.length h
    simp only [List.length_append, List.length_cons, List.length_map, List.length_nil] at hlength
    have hnickname : Passes "NICK" c.nickname := by
      by_contra hnot
      rw [if_neg hnot] at hlength
      split_ifs at hlength <;> simp only [List.length_cons, List.length_nil] at hlength <;> omega
    have huser : PassesUser c.username c.realname := by
      by_contra hnot
      rw [if_pos hnickname, if_neg hnot] at hlength
      simp only [List.length_cons, List.length_nil] at hlength
      omega
    rw [if_pos hnickname, if_pos huser] at hlength
    simp only [List.length_cons, List.length_nil] at hlength
    refine ⟨fun password hpassword => ?_, hnickname, huser⟩
    have hall := List.length_filter_eq_length_iff.mp
      (show (c.password.toList.filter fun password => decide (Passes "PASS" password)).length =
        c.password.toList.length by omega)
    exact of_decide_eq_true (hall password (by simp [hpassword]))
  · rintro ⟨hpassword, hnickname, huser⟩
    have hall : (c.password.toList.filter fun password => Passes "PASS" password) =
        c.password.toList :=
      List.filter_eq_self.mpr fun password h =>
        decide_eq_true (hpassword password (Option.mem_toList.mp h))
    rw [hall, if_pos hnickname, if_pos huser]
    rfl

end Config

/-! ### Sessions that are over -/

/-- A session that is over has no connection, and no operation changes that. -/
theorem Engine.disconnected_turn {e : Engine} (h : e.freed = true → e.state = .disconnected)
    {op : Operation} (hfreed : (e.turn op).engine.freed = true) :
    (e.turn op).engine.state = .disconnected := by
  have hkept : ∀ {t : Turn}, Response e t → t.engine.freed = true →
      t.engine.state = .disconnected := by
    intro t ht hfreed
    have hlife := ht.life
    exact (congrArg Life.state hlife).trans (h ((congrArg Life.freed hlife).symm.trans hfreed))
  rcases e.turn_cases op with ⟨c, a, -, ha, hturn⟩ | hresponse
  · rw [hturn] at hfreed ⊢
    rcases call_cases ha with ⟨action, row, -, hrow, rfl⟩ | ⟨row, -, hrow, rfl⟩ | ⟨-, -, hresponse⟩
    · have hstanding := e.standing_answer c (e.taken action row)
      have hends : row.freed = true :=
        (congrArg (fun s => s.2.2.2) hstanding).symm.trans hfreed
      exact (congrArg Prod.fst hstanding).trans (row_of_freed hrow hends).1
    · exact (row_of_freed hrow hfreed).1
    · exact hkept hresponse hfreed
  · exact hkept hresponse hfreed

namespace Session

variable {σ : Type} {config : Config} {s : Session σ}

theorem Reachable.disconnected_of_freed (h : s.Reachable config)
    (hfreed : s.engine.freed = true) : s.engine.state = .disconnected := by
  have hrun : ∀ (ops : List Operation) (s : Session σ),
      (s.engine.freed = true → s.engine.state = .disconnected) →
        (s.run ops).engine.freed = true → (s.run ops).engine.state = .disconnected := by
    intro ops
    induction ops with
    | nil => exact fun s hs => hs
    | cons op ops ih =>
      refine fun s hs => ih (s.operate op) fun hop => ?_
      rw [engine_operate] at hop ⊢
      exact Engine.disconnected_turn hs hop
  obtain ⟨id, now, handler, memory, ops, rfl⟩ := h
  exact hrun ops _ (fun hstart => absurd hstart Bool.false_ne_true) hfreed

/-! ### A connection that opens -/

/-- **What a client with a valid configuration registers with.**  When its connection opens, the
lines to register with are queued in order and before anything else, but for those that do not
pass; then the handler is called.  None is left out just when all of them pass. -/
theorem registers (hs : s.Reachable config) (hvalid : config.validate = .ok ())
    (hstate : s.engine.state = .connecting) (now : Instant) :
    s.call (.connectFinished now) = .ok (.ongoing,
        (config.saidLines.foldl queueLine (s.cleared (s.engine.opened now))).callHandler
          .connected [] (s.engine.opened now)) ∧
      (s.cleared (s.engine.opened now)).outbox = [] ∧
        (s.cleared (s.engine.opened now)).queued = s.queued ∧
          (config.saidLines = config.registrationLines ↔ config.Registrable) := by
  have hconfig : s.engine.config = config := congrArg Prod.fst hs.settings_eq
  have hfreed : s.engine.freed = false := by
    rw [← Bool.not_eq_true]
    intro hfreed
    rw [hs.disconnected_of_freed hfreed] at hstate
    exact absurd hstate (by decide)
  refine ⟨?_, s.outbox_cleared _, s.queued_cleared _, Config.saidLines_eq_iff⟩
  rw [call_of_connecting hstate hfreed now, perform_opening, hconfig,
    Config.lines_registration (Config.validate_eq_ok_iff.mp hvalid).realname]

/-- A client whose configuration has a password gives it on every connection. -/
theorem registers_with_password :
    let config : Config := { Config.forServer "host" 6667 "me" with password := some "secret" }
    let s : Session Unit := (start ⟨1⟩ config ⟨0⟩ .idle ()).run
      [.call .connect, .call (.connectFinished ⟨0⟩), .call (.disconnected "reset"),
        .call .timerFired]
    config.validate = .ok () ∧ s.engine.state = .connecting ∧ config.Registrable ∧
      ∃ after, s.call (.connectFinished ⟨1⟩) = .ok (.ongoing, after) ∧
        after.outbox =
          ["CAP LS 302\r\n", "PASS secret\r\n", "NICK me\r\n", "USER me 0 * :me\r\n"] := by
  intro config s
  have hvalid : config.validate = .ok () := by decide +kernel
  have hstate : s.engine.state = .connecting := by decide +kernel
  obtain ⟨hcall, hempty, -, hall⟩ :=
    registers (s := s) ⟨_, _, _, _, _, rfl⟩ hvalid hstate ⟨1⟩
  have hlines : config.saidLines =
      ["CAP LS 302\r\n", "PASS secret\r\n", "NICK me\r\n", "USER me 0 * :me\r\n"] := by
    decide +kernel
  have hquiet : Quiet (config.saidLines.foldl queueLine (s.cleared (s.engine.opened ⟨1⟩))) := by
    rw [queueLines_eq, Quiet, handler_cleared, handler_run]
    exact fun event context => ⟨(), rfl⟩
  refine ⟨hvalid, hstate, hall.mp (by decide +kernel), _, hcall, ?_⟩
  rw [hquiet.outbox_callHandler, queueLines_eq, hempty, hlines, List.nil_append]

/-- A configuration whose nickname has a space is valid, and its nickname is never sent. -/
theorem unregistered_of_space :
    let config : Config := { Config.forServer "host" 6667 "me" with nickname := "my nick" }
    let s : Session Unit := (start ⟨1⟩ config ⟨0⟩ .idle ()).run [.call .connect]
    config.validate = .ok () ∧ s.Reachable config ∧ s.engine.state = .connecting ∧
      ∃ after, s.call (.connectFinished ⟨0⟩) = .ok (.ongoing, after) ∧
        after.outbox = ["CAP LS 302\r\n", "USER me 0 * :me\r\n"] := by
  intro config s
  have hstate : s.engine.state = .connecting := by decide +kernel
  exact ⟨by decide +kernel, ⟨_, _, _, _, _, rfl⟩, hstate, _,
    call_of_connecting hstate (by decide +kernel) ⟨0⟩, by decide +kernel⟩

end Session

end Irc
