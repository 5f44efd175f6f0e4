/-
The end of a negotiation.

A negotiation is ended once, with `CAP END` or with the welcome of the server.  An act on a
connection either ends it with the word or leaves it to the welcome, so what holds of a
whole connection follows act by act.

* **`Act.Does.ends_or_goesOn`** — what an act on a connection has to do with the negotiation;
* **`Session.Connection.negotiated_iff`** — the engine notes every end;
* **`Session.Connection.capEnd_discipline`** — the word is said once, and not after a welcome;
* **`Session.Connection.capEnd_occasion`** — the messages that it is said about.
-/
import Irc.Proofs.Handling

namespace Irc

open Outgoing Capability

namespace Message

variable {m : Message}

theorem IsCap.not_isWelcome {sub : Subcommand} (h : m.IsCap sub) : ¬ m.IsWelcome :=
  not_isWelcome_of_command h.1 ⟨'C', by decide, by decide⟩

theorem AsksCredentials.not_isWelcome (h : m.AsksCredentials) : ¬ m.IsWelcome :=
  not_isWelcome_of_command h.1 ⟨'A', by decide, by decide⟩

theorem ClosesLogin.not_isWelcome (h : m.ClosesLogin) : ¬ m.IsWelcome := by
  obtain ⟨code, reply, hcode, hreply, hcloses⟩ := h
  rintro ⟨hone, -⟩
  obtain rfl := Option.some_inj.mp (hcode.symm.trans hone)
  obtain rfl : Reply.welcome = reply := Option.some_inj.mp (Eq.trans (by decide) hreply)
  exact absurd hcloses (by decide)

end Message

/-! ### One act -/

namespace Engine

variable {e e' : Engine} {m : Message} {t : Turn}

theorem capEndLine_notMem_authenticateLines (payloads : List String) :
    capEndLine ∉ payloads.map authenticateLine := by
  intro h
  obtain ⟨payload, -, hline⟩ := List.mem_map.mp h
  have hfalse : isAuthenticate capEndLine = false := by decide +kernel
  rw [← hline, isAuthenticate_authenticateLine] at hfalse
  exact absurd hfalse (by simp)

theorem Part.capEndLine_notMem (h : Part e m t) : capEndLine ∉ t.lines := by
  cases h with
  | aside hm h => exact h.capEndLine_notMem
  | welcomed hm lines negotiated sasl => rw [lines]; exact List.not_mem_nil
  | begun hm h => exact h.undecided
  | replied hm configured begun lines negotiated sasl =>
    rw [lines]
    exact capEndLine_notMem_authenticateLines _
  | closed hm lines negotiated sasl => rw [lines]; exact List.not_mem_nil

theorem Part.negotiated_iff (h : Part e m t) :
    t.engine.link.negotiated = true ↔ e.link.negotiated = true ∨ m.IsWelcome := by
  cases h with
  | aside hm h => simp [h.negotiated, hm]
  | welcomed hm lines negotiated sasl => simp [negotiated, hm]
  | begun hm h => simp [h.negotiated, hm.1.not_isWelcome]
  | replied hm configured begun lines negotiated sasl => simp [negotiated, hm.not_isWelcome]
  | closed hm lines negotiated sasl => simp [negotiated, hm.not_isWelcome]

theorem Cause.decided (h : Cause e m e') : Cause e m e'.decided := by
  cases h with
  | refused hm => exact .refused hm
  | acknowledged hm h => exact .acknowledged hm h
  | nothingNew hm h => exact .nothingNew hm h
  | loginOver hm h => exact .loginOver hm h

end Engine

/-- The server welcomes the client in an act. -/
def Act.Welcomes (a : Act) : Prop := ∃ m, a.op.message? = some m ∧ m.IsWelcome

/-- An act ends the negotiation with the word for it, which is the last thing in it. -/
structure Act.Ends (a : Act) (m : Message) : Prop where
  message : a.op.message? = some m
  cause : Engine.Cause a.engine m a.after
  before : a.engine.link.negotiated = false
  unwelcomed : ¬ a.Welcomes
  lines : ∃ front, a.lines = front ++ [capEndLine] ∧ capEndLine ∉ front
  negotiated : a.after.link.negotiated = true
  mayEnd : a.after.MayEnd

/-- An act leaves the end of the negotiation to the welcome. -/
structure Act.GoesOn (a : Act) : Prop where
  lines : capEndLine ∉ a.lines
  negotiated : a.after.state = .connected →
    (a.after.link.negotiated = true ↔ a.engine.link.negotiated = true ∨ a.Welcomes)

/-- **What an act on a connection has to do with the negotiation.** -/
theorem Act.Does.ends_or_goesOn {a : Act} (h : a.Does) : (∃ m, a.Ends m) ∨ a.GoesOn := by
  cases h with
  | other hm lines link =>
    refine .inr ⟨fun hmem => (lines capEndLine hmem).1 rfl, fun hstate => ?_⟩
    rw [link hstate]
    simp [Act.Welcomes, hm]
  | @handles m hm h =>
    have hwelcomes : a.Welcomes ↔ m.IsWelcome := by
      simp [Act.Welcomes, hm]
    cases h with
    | goesOn h engine lines =>
      refine .inr ⟨?_, fun _ => ?_⟩
      · rw [Act.lines, lines]
        exact h.capEndLine_notMem
      · rw [Act.after, engine, h.negotiated_iff, hwelcomes]
    | @ends u h cause undecided mayEnd engine lines =>
      obtain ⟨hbefore, hwelcome⟩ := not_or.mp
        (h.negotiated_iff.not.mp (Bool.eq_false_iff.mp undecided))
      have hafter : a.after = u.engine.decided := engine
      refine .inl ⟨m, hm, hafter ▸ cause.decided, Bool.eq_false_iff.mpr hbefore,
        hwelcomes.not.mpr hwelcome, ⟨u.lines, lines, h.capEndLine_notMem⟩, ?_, ?_⟩
      · rw [hafter]
        rfl
      · rw [hafter]
        exact mayEnd

/-! ### A whole connection -/

namespace Session.Connection

variable {σ : Type} {s : Session σ} {acts : List Act} {a : Act}

/-- The engine notes every end of the negotiation. -/
theorem negotiated_iff (h : s.Connection acts) (hstate : s.engine.state = .connected) :
    s.engine.link.negotiated = true ↔
      capEndLine ∈ acts.flatMap Act.lines ∨ ∃ a ∈ acts, a.Welcomes := by
  induction h with
  | @opened s after now progress h =>
    have hlines : capEndLine ∉ s.engine.config.registration.flatMap Request.lines :=
      fun hmem => (neutral_of_registration hmem).1 rfl
    rw [(engine_of_opened h).1, List.flatMap_singleton, lines_of_opened h]
    simp [Engine.opened, Act.Welcomes, Operation.message?, Operation.received?, hlines]
  | @step s acts h hbefore op ih =>
    rw [engine_operate] at hstate ⊢
    have hopen := h.open_of_connected hbefore
    have hacts := ih hbefore
    rw [List.flatMap_append, List.flatMap_singleton, List.mem_append]
    simp only [List.mem_append, List.mem_singleton, or_and_right, exists_or, exists_eq_left]
    -- the last act ends it with the word, or leaves it to the welcome
    rcases (Act.does (a := ⟨s.engine, op⟩) hopen).ends_or_goesOn with ⟨m, hends⟩ | hgoes
    · obtain ⟨front, hlines, -⟩ := hends.lines
      exact iff_of_true hends.negotiated (.inl (.inr (by simp [hlines])))
    · refine (hgoes.negotiated hstate).trans ((or_congr_left hacts).trans ?_)
      simp only [hgoes.lines, or_false, or_assoc]

/-- An act with the word ends the negotiation. -/
theorem ends_of_mem (h : s.Connection acts) (ha : a ∈ acts) (hline : capEndLine ∈ a.lines) :
    ∃ m, a.Ends m := by
  rcases h.handles_or_neutral a ha with ⟨m, hm, hhandles⟩ | ⟨-, hneutral⟩
  · exact (Act.Does.handles hm hhandles).ends_or_goesOn.resolve_right fun hgoes => hgoes.lines hline
  · exact absurd rfl (hneutral capEndLine hline).1

/-- The word is said at most once. -/
theorem count_capEndLine_le_one (h : s.Connection acts) :
    (acts.flatMap Act.lines).count capEndLine ≤ 1 := by
  induction h with
  | @opened s after now progress h =>
    have hlines : capEndLine ∉ s.engine.config.registration.flatMap Request.lines :=
      fun hmem => (neutral_of_registration hmem).1 rfl
    rw [List.flatMap_singleton, lines_of_opened h, List.count_eq_zero_of_not_mem hlines]
    exact Nat.zero_le 1
  | @step s acts h hstate op ih =>
    rw [List.flatMap_append, List.flatMap_singleton, List.count_append]
    rcases (Act.does (a := ⟨s.engine, op⟩) (h.open_of_connected hstate)).ends_or_goesOn with
      ⟨m, hends⟩ | hgoes
    · -- it ends in this act, and has not ended before
      obtain ⟨front, hlines, hfront⟩ := hends.lines
      have hearlier : capEndLine ∉ acts.flatMap Act.lines := fun hmem =>
        absurd ((h.negotiated_iff hstate).mpr (.inl hmem)) (Bool.eq_false_iff.mp hends.before)
      rw [List.count_eq_zero_of_not_mem hearlier, hlines, List.count_append,
        List.count_eq_zero_of_not_mem hfront]
      simp
    · rw [List.count_eq_zero_of_not_mem hgoes.lines]
      exact ih

/-- The word is not said after a welcome. -/
theorem pairwise_welcomes (h : s.Connection acts) :
    acts.Pairwise fun a b => a.Welcomes → capEndLine ∉ b.lines := by
  induction h with
  | opened h => exact List.pairwise_singleton _ _
  | @step s acts h hstate op ih =>
    refine List.pairwise_append.mpr ⟨ih, List.pairwise_singleton _ _, ?_⟩
    intro a ha b hb hwelcomes hline
    obtain rfl := List.mem_singleton.mp hb
    obtain ⟨m, hends⟩ := (h.step hstate op).ends_of_mem (List.mem_append_right _ hb) hline
    exact absurd ((h.negotiated_iff hstate).mpr (.inr ⟨a, ha, hwelcomes⟩))
      (Bool.eq_false_iff.mp hends.before)

/-- Of what the engine queues on a connection the word is one line at most. -/
theorem count_queued_le_one {now : Instant} {ops : List Operation} (h : s.Unprompted now ops) :
    ∃ lines, (s.run (.call (.connectFinished now) :: ops)).queued = s.queued ++ lines ∧
      lines.count capEndLine ≤ 1 := by
  obtain ⟨hconnection, hqueued⟩ := h.connection
  exact ⟨_, hqueued, hconnection.count_capEndLine_le_one⟩

/-- **The end of a negotiation.**  On a connection the word for it is said at most once, and
neither about a welcome nor after one.  The negotiation is over when it has been said or
the server has welcomed the client.  No login that could still come to something is cut
off: the word is the last thing in its act, and the engine is left without such a login. -/
theorem capEnd_discipline (h : s.Connection acts) :
    (acts.flatMap Act.lines).count capEndLine ≤ 1 ∧
      (∀ a ∈ acts, a.Welcomes → capEndLine ∉ a.lines) ∧
      (acts.Pairwise fun a b => a.Welcomes → capEndLine ∉ b.lines) ∧
      (s.engine.state = .connected → (s.engine.link.negotiated = true ↔
        capEndLine ∈ acts.flatMap Act.lines ∨ ∃ a ∈ acts, a.Welcomes)) ∧
      ∀ a ∈ acts, capEndLine ∈ a.lines → a.lines.getLast? = some capEndLine ∧
        (a.after.config.login.isSasl = true → a.after.link.caps.isEnabled .sasl = true →
          a.after.link.loggedIn = true ∨ a.after.link.sasl = .finished) := by
  refine ⟨h.count_capEndLine_le_one, ?_, h.pairwise_welcomes, h.negotiated_iff, ?_⟩
  · intro a ha hwelcomes hline
    obtain ⟨m, hends⟩ := h.ends_of_mem ha hline
    exact hends.unwelcomed hwelcomes
  · intro a ha hline
    obtain ⟨m, hends⟩ := h.ends_of_mem ha hline
    obtain ⟨front, hlines, -⟩ := hends.lines
    exact ⟨by rw [hlines, List.getLast?_concat], hends.mayEnd⟩

/-- A client that logs in says the word when its login is over. -/
theorem capEnd_discipline_of_login :
    let config : Config :=
      { Config.forServer "irc.example" 6667 "me" with login := .saslPlain none "secret" }
    let acts := (dialing config).acts [.call (.connectFinished ⟨0⟩),
      .line ":irc.example CAP * LS :sasl" ⟨0⟩, .line ":irc.example CAP * ACK :sasl" ⟨0⟩,
      .line "AUTHENTICATE +" ⟨0⟩, .line ":irc.example 903 me :SASL authentication successful" ⟨0⟩]
    (∃ s : Session Unit, s.Connection acts ∧ s.engine.link.negotiated = true) ∧
      (acts.flatMap Act.lines).count capEndLine = 1 ∧
      ∃ a ∈ acts, a.lines.getLast? = some capEndLine ∧ a.after.config.login.isSasl = true ∧
        a.after.link.caps.isEnabled .sasl = true ∧
        (a.after.link.loggedIn = true ∨ a.after.link.sasl = .finished) := by
  intro config acts
  have h := connection_dialing config [.line ":irc.example CAP * LS :sasl" ⟨0⟩,
    .line ":irc.example CAP * ACK :sasl" ⟨0⟩, .line "AUTHENTICATE +" ⟨0⟩,
    .line ":irc.example 903 me :SASL authentication successful" ⟨0⟩] (by decide +kernel)
  obtain ⟨hle, -, -, hnegotiated, hends⟩ := capEnd_discipline h
  have hmem : capEndLine ∈ acts.flatMap Act.lines := by decide +kernel
  have hlogin : ∀ a ∈ acts, capEndLine ∈ a.lines →
      a.after.config.login.isSasl = true ∧ a.after.link.caps.isEnabled .sasl = true := by
    decide +kernel
  obtain ⟨a, ha, hline⟩ := List.mem_flatMap.mp hmem
  obtain ⟨hlast, hover⟩ := hends a ha hline
  obtain ⟨hsasl, henabled⟩ := hlogin a ha hline
  exact ⟨⟨_, h, (hnegotiated (by decide +kernel)).mpr (.inl hmem)⟩,
    hle.antisymm (List.one_le_count_iff.mpr hmem), a, ha, hlast, hsasl, henabled,
    hover hsasl henabled⟩

/-- **The occasions to end a negotiation.**  A refusal ends it whatever is unanswered, an
acknowledgement only when all that was asked for is enabled.  Offers with nothing new and
the end of a login do not look at what was asked for, and leave it as it was. -/
theorem capEnd_occasion (h : s.Connection acts) (ha : a ∈ acts) (hline : capEndLine ∈ a.lines) :
    ∃ m, a.op.message? = some m ∧
      (m.IsCap .nak ∨ m.IsCap .ack ∧ a.after.link.caps.allRequestedEnabled = true ∨
        (m.IsCap .ls ∨ m.ClosesLogin) ∧ a.after.link.caps.allRequestedEnabled =
          a.engine.link.caps.allRequestedEnabled) := by
  obtain ⟨m, hends⟩ := h.ends_of_mem ha hline
  refine ⟨m, hends.message, ?_⟩
  cases hends.cause with
  | refused hm => exact .inl hm
  | acknowledged hm h => exact .inr (.inl ⟨hm, h⟩)
  | nothingNew hm h => exact .inr (.inr ⟨.inl hm, h⟩)
  | loginOver hm h => exact .inr (.inr ⟨.inr hm, by rw [h]⟩)

/-- A client without a login says the word when all that it asked for is granted. -/
theorem capEnd_occasion_of_acknowledged :
    let acts := (dialing (.forServer "irc.example" 6667 "me")).acts [.call (.connectFinished ⟨0⟩),
      .line ":irc.example CAP * LS :server-time" ⟨0⟩,
      .line ":irc.example CAP * ACK :server-time" ⟨0⟩]
    ∃ a ∈ acts, capEndLine ∈ a.lines ∧ a.engine.link.caps.allRequestedEnabled = false ∧
      ∃ m, a.op.message? = some m ∧ m.IsCap .ack ∧
        a.after.link.caps.allRequestedEnabled = true := by
  intro acts
  let m : Message :=
    ⟨[], some (.server "irc.example"), "CAP", ["*", "ACK"], some "server-time"⟩
  have hmem : capEndLine ∈ acts.flatMap Act.lines := by decide +kernel
  have hact : ∀ a ∈ acts, capEndLine ∈ a.lines →
      a.op.message? = some m ∧ a.engine.link.caps.allRequestedEnabled = false := by decide +kernel
  obtain ⟨a, ha, hline⟩ := List.mem_flatMap.mp hmem
  obtain ⟨hm, hasked⟩ := hact a ha hline
  obtain ⟨m', hm', hoccasion⟩ :=
    capEnd_occasion (connection_dialing _ _ (by decide +kernel)) ha hline
  obtain rfl : m = m' := Option.some_inj.mp (hm.symm.trans hm')
  refine ⟨a, ha, hline, hasked, m, hm', ?_⟩
  -- it is an acknowledgement, so it is none of the other occasions
  rcases hoccasion with hnak | hack | ⟨hls | ⟨code, -, hcode, -⟩, -⟩
  · exact absurd hnak (by rw [Message.IsCap]; decide +kernel)
  · exact hack
  · exact absurd hls (by rw [Message.IsCap]; decide +kernel)
  · exact absurd hcode (by rw [show m.numeric? = none by decide +kernel]; simp)

/-- Offers that are made twice end the negotiation while the request is unanswered. -/
theorem unanswered_of_offers_twice :
    let ops : List Operation := [.call (.connectFinished ⟨0⟩),
      .line ":srv CAP * LS :server-time" ⟨0⟩, .line ":srv CAP * LS :server-time" ⟨0⟩]
    ∃ s : Session Unit, s.Connection ((dialing (.forServer "irc.example" 6667 "me")).acts ops) ∧
      ∃ a ∈ (dialing (.forServer "irc.example" 6667 "me")).acts ops, ∃ m,
        a.op.message? = some m ∧ capEndLine ∈ a.lines ∧ ¬ m.IsCap .nak ∧
          a.after.link.caps.allRequestedEnabled = false := by
  refine ⟨_, connection_dialing _ _ (by decide +kernel), _,
    List.mem_cons_of_mem _ (List.mem_cons_of_mem _ (List.mem_singleton_self _)),
    ⟨[], some (.server "srv"), "CAP", ["*", "LS"], some "server-time"⟩, ?_, ?_, ?_, ?_⟩
  · decide +kernel
  · decide +kernel
  · rw [Message.IsCap]
    decide +kernel
  · decide +kernel

end Session.Connection

end Irc
