/-
The socket and the session.

A socket is open only while the session has a connection or is closing one, and every
connection that was made in the run has one.  Without a socket there is nothing to write.

* **`Client.Sound.move`** — every move keeps this;
* **`Client.sound_start`**, **`Client.sound_fresh`** — it holds at the start.
-/
import Irc.Proofs.Moves

namespace Irc

namespace Client

variable {σ : Type} {p : Prop} {c : Client σ} {quits : Bool}

/-- How the socket belongs to the session.  A session may start with a connection that is not
the client's; if `p` it does not, and from the first connection on that does not matter. -/
structure Sound (p : Prop) (c : Client σ) : Prop where
  journal : c.session.journal = []
  held : c.socketOpen = true → c.state.Holds ∧ c.session.engine.freed = false
  apart : c.dialing = true → c.socketOpen = false
  owned : p ∨ .opened ∈ c.log → c.session.engine.Open → c.socketOpen = true
  spent : p ∨ .opened ∈ c.log → c.socketOpen = false → c.session.outbox = []

theorem Sound.socket_of_not_holds (h : c.Sound p) (hstate : ¬ c.state.Holds) :
    c.socketOpen = false := Bool.eq_false_iff.mpr fun hs => hstate (h.held hs).1

theorem opened_mem_note {n : Note} (hn : n ≠ .opened) :
    .opened ∈ (c.note n).log ↔ .opened ∈ c.log :=
  ⟨fun h => (List.mem_cons.mp h).resolve_left hn.symm, List.mem_cons_of_mem n⟩

theorem opened_mem_take (t : Turn) : .opened ∈ (c.take t).log ↔ .opened ∈ c.log := by
  refine ⟨fun h => (List.mem_append.mp h).resolve_left fun h => ?_, List.mem_append_right _⟩
  obtain ⟨entry, -, h⟩ := List.mem_map.mp h
  exact absurd h (by simp)

theorem outbox_take_of_mute {t : Turn} (ht : t.Puts Output.Mute) (h : c.session.outbox = []) :
    (c.take t).session.outbox = [] := by
  refine (Session.mute_perform c.session ht).2.trans ?_
  rw [h, ite_self]

theorem Sound.take (h : c.Sound p) {t : Turn} (ht : Engine.Interim quits c.session.engine t) :
    (c.take t).Sound p where
  journal := rfl
  held := by
    intro hsocket
    obtain ⟨hheld, hfreed⟩ := h.held hsocket
    obtain ⟨hheld', hfreed', -⟩ := ht.held hheld hfreed
    rw [state_take, engine_take]
    exact ⟨hheld', hfreed'⟩
  apart := h.apart
  owned := by
    rw [opened_mem_take, engine_take]
    exact fun hp hopen => h.owned hp (ht.joined hopen)
  spent := by
    rw [opened_mem_take]
    intro hp hsocket
    have hopen : ¬ c.session.engine.Open := fun hopen =>
      absurd (hsocket.symm.trans (h.owned hp hopen)) (by decide)
    exact outbox_take_of_mute (ht.apart hopen).2.1 (h.spent hp hsocket)

theorem Sound.lose (h : c.Sound p) (reason : String) : (c.lose reason).Sound p := by
  rw [lose_eq_take]
  have hlog : ∀ t, .opened ∈ (c.shutdown.take t).log ↔ .opened ∈ c.log :=
    fun t => (opened_mem_take t).trans (opened_mem_note (by simp))
  refine ⟨rfl, fun hs => absurd hs Bool.false_ne_true, fun _ => rfl, ?_, ?_⟩
  all_goals
    intro hp
    rw [hlog] at hp
    rcases c.session.engine.ended_disconnected reason with ⟨hstay, hnot⟩ | hended
  · -- nothing was there to be closed
    intro hopen
    rw [hstay, engine_take] at hopen
    exact absurd (h.held (h.owned hp hopen)) hnot
  · intro hopen
    rw [engine_take] at hopen
    exact absurd hopen hended.not_open
  · intro _
    rw [hstay]
    refine outbox_take_of_mute (Engine.puts_stay _) (h.spent hp ?_)
    exact Bool.eq_false_iff.mpr fun hs => hnot (h.held hs)
  · intro _
    refine (Session.mute_perform _ hended.mute).2.trans ?_
    rw [if_pos hended.dropped]

theorem Sound.fail (h : c.Sound p) (hdialing : c.dialing = true) (reason : String) :
    ({ c with dialing := false }.shutdown.attempt (.connectFailed reason)).Sound p := by
  rw [attempt_eq_take]
  have hfailed := c.session.engine.failed_connectFailed reason
  have hlog : ∀ t, .opened ∈ ({ c with dialing := false }.shutdown.take t).log ↔ .opened ∈ c.log :=
    fun t => (opened_mem_take t).trans (opened_mem_note (by simp))
  refine ⟨rfl, fun hs => absurd hs Bool.false_ne_true, fun _ => rfl, ?_, ?_⟩
  · intro hp hopen
    rw [hlog] at hp
    rw [engine_take] at hopen
    exact absurd (h.owned hp (hfailed.joined hopen)) (by rw [h.apart hdialing]; decide)
  · intro hp _
    rw [hlog] at hp
    exact outbox_take_of_mute hfailed.mute (h.spent hp (h.apart hdialing))

theorem Sound.forgetTimer (h : c.Sound p) : Sound p { c with reconnectAt := none } :=
  ⟨h.journal, h.held, h.apart, h.owned, h.spent⟩

/-- What belongs together stays together with every move. -/
theorem Sound.move {x y : Stage σ} (hmove : Move quits x y) (h : x.client.Sound p) :
    y.client.Sound p := by
  cases hmove with
  | takesUp c => exact ⟨h.journal, h.held, h.apart, h.owned, h.spent⟩
  | carries c now effect rest hcloses hrunning =>
    obtain ⟨_, _, _, heq⟩ := carryOut_eq hcloses hrunning now
    rw [heq]
    exact ⟨h.journal, h.held, h.apart, h.owned, h.spent⟩
  | passes c effect rest => exact h
  | dials c agenda hstate =>
    have hsocket : c.socketOpen = false := h.socket_of_not_holds (hstate ▸ by decide)
    refine ⟨h.journal, h.held, fun _ => hsocket, fun hp => h.owned ?_, fun hp => h.spent ?_⟩
    all_goals exact hp.imp_right (opened_mem_note (by simp)).mp
  | writes c agenda houtbox =>
    refine ⟨h.journal, h.held, h.apart, fun hp => h.owned ?_, fun hp hsocket => ?_⟩
    · exact hp.imp_right (opened_mem_note (by simp)).mp
    · have hempty := h.spent (hp.imp_right (opened_mem_note (by simp)).mp) hsocket
      rw [houtbox] at hempty
      exact absurd hempty (List.cons_ne_nil _ _)
  | loses c agenda reason hdialing => exact h.lose reason
  | opens c agenda now hdialing hstate hfreed =>
    rw [answer_dialed_eq_take hstate hfreed]
    refine ⟨rfl, fun _ => ?_, fun hd => absurd hd Bool.false_ne_true, fun _ _ => rfl,
      fun _ hs => absurd hs.symm Bool.false_ne_true⟩
    rw [state_take, engine_take]
    exact ⟨.inl rfl, rfl⟩
  | fails c agenda reason hdialing => exact h.fail hdialing reason
  | acts c agenda hdialing ht => exact h.take ht
  | reads c agenda bytes hopen => exact ⟨h.journal, h.held, h.apart, h.owned, h.spent⟩
  | ticks c agenda now => exact ⟨h.journal, h.held, h.apart, h.owned, h.spent⟩
  | expires c agenda hstate hfreed =>
    rw [attempt_eq_take]
    exact h.forgetTimer.take (c.session.engine.interim_timerFired quits)

/-- At a wait with a socket there is a connection. -/
theorem Waiting.open_of_socket (h : c.Waiting) (hsound : c.Sound p)
    (hsocket : c.socketOpen = true) : c.session.engine.Open := by
  obtain ⟨hheld, hfreed⟩ := hsound.held hsocket
  exact ⟨hheld.resolve_right fun hs => hs.elim h.rests.1 h.rests.2, hfreed⟩

theorem Waiting.sound_wake (h : c.Waiting) (hsound : c.Sound p) (now : Instant) (w : Wake) :
    (c.wake now w).Sound p :=
  (h.leads_wake now w).keeps (I := fun x => x.client.Sound p) Sound.move hsound

/-- A session that starts without a connection and with nothing to write. -/
theorem sound_start (s : Session σ) (writes : List (Option TransportError))
    (hjournal : s.journal = []) (hp : p → s.engine.state ≠ .connected ∧ s.outbox = []) :
    (start s writes).Sound p where
  journal := hjournal
  held := fun hs => absurd hs Bool.false_ne_true
  apart := fun _ => rfl
  owned := fun h hopen => absurd hopen.1 (hp (h.resolve_right List.not_mem_nil)).1
  spent := fun h _ => (hp (h.resolve_right List.not_mem_nil)).2

theorem sound_fresh (id : SessionId) (config : Config) (begun : Instant) (handler : Handler σ)
    (memory : σ) (writes : List (Option TransportError)) :
    (fresh id config begun handler memory writes).Sound True :=
  sound_start _ writes rfl fun _ => ⟨ConnectionState.noConfusion, rfl⟩

end Client

end Irc
