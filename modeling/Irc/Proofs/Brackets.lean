/-
Events in brackets.

The handler is told that a connection is there, then of all that is received on it, and then
that it is gone; between the connections it is told of failed attempts and of nothing else.

* **`Bracketed`** — events in this order;
* **`Client.Bracketing.move`** — every move keeps them so;
* **`Client.quit_of_freed`** — the session is not over unless somebody asks for that;
* **`Client.events_bracketed`** — so it is in every run.
-/
import Irc.Proofs.Sockets

namespace Irc

/-- The event that a note tells of. -/
def Note.event? : Note → Option Event
  | .session entry => entry.event?
  | _ => none

/-- The events that a log tells of, latest first. -/
def Note.events (log : List Note) : List Event := log.filterMap Note.event?

/-- Events, latest first, of which those about what was received lie between the making of a
connection and its end, and those about failed attempts elsewhere.  `inside` says whether the
last connection has not ended. -/
inductive Bracketed : (inside : Bool) → List Event → Prop where
  | nil : Bracketed false []
  | connected {events : List Event} (h : Bracketed false events) :
      Bracketed true (.connected :: events)
  | received {events : List Event} {event : Event} (hevent : event.IsReceived)
      (h : Bracketed true events) : Bracketed true (event :: events)
  | disconnected {events : List Event} (reason : String) (retryIn : Option Duration)
      (h : Bracketed true events) : Bracketed false (.disconnected reason retryIn :: events)
  | connectFailed {events : List Event} (reason : String) (retryIn : Option Duration)
      (h : Bracketed false events) : Bracketed false (.connectFailed reason retryIn :: events)

theorem Bracketed.receivedAll {events new : List Event} (hnew : ∀ event ∈ new, event.IsReceived)
    (h : Bracketed true events) : Bracketed true (new ++ events) := by
  induction new with
  | nil => exact h
  | cons event new ih =>
    rw [List.forall_mem_cons] at hnew
    exact .received hnew.1 (ih hnew.2)

theorem Bracketed.failedAll {events new : List Event}
    (hnew : ∀ event ∈ new, ∃ reason retry, event = .connectFailed reason retry)
    (h : Bracketed false events) : Bracketed false (new ++ events) := by
  induction new with
  | nil => exact h
  | cons event new ih =>
    rw [List.forall_mem_cons] at hnew
    obtain ⟨⟨reason, retry, rfl⟩, hnew⟩ := hnew
    exact .connectFailed reason retry (ih hnew)

namespace Client

variable {σ : Type} {c : Client σ} {quits : Bool}

theorem events_take (hjournal : c.session.journal = []) (t : Turn) :
    Note.events (c.take t).log = t.events.reverse ++ Note.events c.log := by
  have hevents := c.session.events_perform t
  rw [hjournal, List.filterMap_nil, List.append_nil] at hevents
  have hsession : ∀ entries : List Entry,
      (entries.map Note.session).filterMap Note.event? = entries.filterMap Entry.event? := by
    intro entries
    rw [List.filterMap_map]
    rfl
  show Note.events ((c.session.perform t).journal.map Note.session ++ c.log) = _
  rw [Note.events, List.filterMap_append, hsession, hevents]
  rfl

/-- The events are in brackets, and the last one is open as long as the socket is. -/
structure Bracketing (c : Client σ) : Prop where
  /-- A connection that is being closed has its socket, unless it is an attempt that is being
  called off. -/
  closing : c.state = .disconnecting ∨ c.state = .quitting → c.session.engine.freed = false →
    c.dialing = false → c.socketOpen = true
  bracketed : ∃ inside, Bracketed inside (Note.events c.log) ∧
    (c.session.engine.freed = false → inside = c.socketOpen)

theorem Bracketing.take (h : c.Bracketing) (hsound : c.Sound True)
    (hdialing : c.state = .connecting → c.dialing = true) {t : Turn}
    (ht : Engine.Interim quits c.session.engine t) : (c.take t).Bracketing where
  closing := by
    rw [state_take, engine_take]
    intro hstate hfreed hidle
    have hfreed' := ht.running hfreed
    rcases ht.closing hstate with (hconnected | hclosing) | hconnecting
    · exact hsound.owned (.inl trivial) ⟨hconnected, hfreed'⟩
    · exact h.closing hclosing hfreed' hidle
    · exact absurd (hidle.symm.trans (hdialing hconnecting)) Bool.false_ne_true
  bracketed := by
    obtain ⟨inside, hbracketed, hinside⟩ := h.bracketed
    refine ⟨inside, ?_, fun hfreed => ?_⟩
    · rw [events_take hsound.journal]
      by_cases hopen : c.session.engine.Open
      · -- what is told now is told on the connection
        obtain rfl := (hinside hopen.2).trans (hsound.owned (.inl trivial) hopen)
        exact hbracketed.receivedAll fun event hevent =>
          ht.received event (List.mem_reverse.mp hevent)
      · rw [(ht.apart hopen).2.2]
        exact hbracketed
    · rw [engine_take] at hfreed
      exact hinside (ht.running hfreed)

theorem Bracketing.lose (h : c.Bracketing) (hsound : c.Sound True)
    (hdialing : c.dialing = true → c.state = .connecting) (reason : String) :
    (c.lose reason).Bracketing := by
  rw [lose_eq_take]
  obtain ⟨inside, hbracketed, hinside⟩ := h.bracketed
  have hevents : ∀ t, Note.events (c.shutdown.take t).log = t.events.reverse ++ Note.events c.log :=
    fun t => events_take (c := c.shutdown) hsound.journal t
  rcases c.session.engine.ended_disconnected reason with ⟨hstay, hnot⟩ | hended
  · rw [hstay]
    refine ⟨fun hstate hfreed _ => absurd ⟨.inr hstate, hfreed⟩ hnot, inside, ?_, fun hfreed => ?_⟩
    · rw [hevents]
      exact hbracketed
    · have hsocket : c.socketOpen = false := Bool.eq_false_iff.mpr fun hs => hnot (hsound.held hs)
      exact (hinside hfreed).trans hsocket
  · -- the socket was open, so there is a bracket to close
    have hsocket : c.socketOpen = true := by
      rcases hended.held with hconnected | hclosing
      · exact hsound.owned (.inl trivial) ⟨hconnected, hended.running⟩
      · refine h.closing hclosing hended.running ?_
        cases hd : c.dialing with
        | false => rfl
        | true =>
          have hconnecting := hdialing hd
          rcases hclosing with hc | hc <;> exact absurd (hconnecting.symm.trans hc) (by decide)
    obtain rfl := (hinside hended.running).trans hsocket
    refine ⟨fun hstate => ?_, ?_⟩
    · rw [state_take] at hstate
      rcases hstate with hs | hs <;> rcases hended.state with hs' | hs' <;>
        exact absurd (hs'.symm.trans hs) (by decide)
    rcases hended.told with ⟨-, reason', retry, htold⟩ | ⟨hfreed, htold, -⟩
    · refine ⟨false, ?_, fun _ => rfl⟩
      rw [hevents, htold]
      exact .disconnected reason' retry hbracketed
    · refine ⟨true, ?_, fun hrunning => ?_⟩
      · rw [hevents, htold]
        exact hbracketed
      · rw [engine_take] at hrunning
        exact absurd (hrunning.symm.trans hfreed) Bool.false_ne_true

theorem Bracketing.fail (h : c.Bracketing) (hsound : c.Sound True) (hdialing : c.dialing = true)
    (reason : String) :
    ({ c with dialing := false }.shutdown.attempt (.connectFailed reason)).Bracketing := by
  rw [attempt_eq_take]
  have hfailed := c.session.engine.failed_connectFailed reason
  obtain ⟨inside, hbracketed, hinside⟩ := h.bracketed
  have hevents : ∀ t, Note.events ({ c with dialing := false }.shutdown.take t).log =
      t.events.reverse ++ Note.events c.log :=
    fun t => events_take (c := { c with dialing := false }.shutdown) hsound.journal t
  refine ⟨fun hstate hfreed _ => ?_, inside, ?_, fun hfreed => ?_⟩
  · rw [state_take] at hstate
    rw [engine_take] at hfreed
    obtain ⟨hclosed, hquitting⟩ := hfailed.rests hfreed
    rcases hstate with hs | hs
    · exact absurd hs hclosed
    · exact absurd hs hquitting
  · rw [hevents]
    cases hover : c.session.engine.freed with
    | true =>
      have hquiet := (hfailed.finished hover).2
      show Bracketed inside ((Turn.events (c.session.engine.turn _)).reverse ++ _)
      rw [hquiet]
      exact hbracketed
    | false =>
      -- no connection is there while an attempt is under way
      obtain rfl := (hinside hover).trans (hsound.apart hdialing)
      exact hbracketed.failedAll fun event hevent =>
        hfailed.told event (List.mem_reverse.mp hevent)
  · rw [engine_take] at hfreed
    exact (hinside (hfailed.running hfreed)).trans (hsound.apart hdialing)

theorem Bracketing.open (h : c.Bracketing) (hsound : c.Sound True) (hdialing : c.dialing = true)
    (hfreed : c.session.engine.freed = false) (now : Instant) :
    (c.attach.take ⟨c.session.engine.opened now, c.session.engine.openingOutputs now⟩).Bracketing
      where
  closing := fun _ _ _ => rfl
  bracketed := by
    obtain ⟨inside, hbracketed, hinside⟩ := h.bracketed
    obtain rfl := (hinside hfreed).trans (hsound.apart hdialing)
    refine ⟨true, ?_, fun _ => rfl⟩
    rw [events_take (c := c.attach) hsound.journal, Engine.events_openingOutputs]
    exact .connected hbracketed

/-- Events stay in brackets with every move. -/
theorem Bracketing.move {x y : Stage σ} (hmove : Move quits x y) (hsound : x.client.Sound True)
    (h : x.client.Bracketing) : y.client.Bracketing := by
  cases hmove with
  | takesUp c => exact ⟨h.closing, h.bracketed⟩
  | carries c now effect rest hcloses hrunning =>
    obtain ⟨_, _, _, heq⟩ := carryOut_eq hcloses hrunning now
    rw [heq]
    exact ⟨h.closing, h.bracketed⟩
  | passes c effect rest => exact h
  | dials c agenda hstate =>
    exact ⟨fun _ _ hd => absurd hd.symm Bool.false_ne_true, h.bracketed⟩
  | writes c agenda houtbox => exact ⟨h.closing, h.bracketed⟩
  | loses c agenda reason hdialing => exact h.lose hsound hdialing reason
  | opens c agenda now hdialing hstate hfreed =>
    rw [answer_dialed_eq_take hstate hfreed]
    exact h.open hsound hdialing hfreed now
  | fails c agenda reason hdialing => exact h.fail hsound hdialing reason
  | acts c agenda hdialing ht => exact h.take hsound hdialing ht
  | reads c agenda bytes hopen => exact ⟨h.closing, h.bracketed⟩
  | ticks c agenda now => exact ⟨h.closing, h.bracketed⟩
  | expires c agenda hstate hfreed =>
    rw [attempt_eq_take]
    have hbefore : Bracketing { c with reconnectAt := none } := ⟨h.closing, h.bracketed⟩
    exact hbefore.take hsound.forgetTimer
      (fun hc => absurd (hstate.symm.trans hc) (by decide))
      (c.session.engine.interim_timerFired quits)

/-- Without anybody asking for the end, no move leads to it. -/
theorem lasting_move {x y : Stage σ} (hmove : Move false x y)
    (h : x.client.session.engine.freed = false ∧ x.client.state ≠ .quitting) :
    y.client.session.engine.freed = false ∧ y.client.state ≠ .quitting := by
  cases hmove with
  | takesUp c => exact h
  | carries c now effect rest hcloses hrunning =>
    obtain ⟨_, _, _, heq⟩ := carryOut_eq hcloses hrunning now
    rw [heq]
    exact h
  | passes c effect rest => exact h
  | dials c agenda hstate => exact h
  | writes c agenda houtbox => exact h
  | loses c agenda reason hdialing =>
    rw [lose_eq_take, state_take, engine_take]
    rcases c.session.engine.ended_disconnected reason with ⟨hstay, -⟩ | hended
    · rw [hstay]
      exact h
    · refine ⟨?_, ?_⟩
      · rcases hended.told with ⟨hfreed, -⟩ | ⟨-, -, hquitting⟩
        · exact hfreed
        · exact absurd hquitting h.2
      · intro hquitting
        rcases hended.state with hs | hs <;> exact absurd (hs.symm.trans hquitting) (by decide)
  | opens c agenda now hdialing hstate hfreed =>
    rw [answer_dialed_eq_take hstate hfreed, state_take, engine_take]
    exact ⟨rfl, by simp [Engine.opened]⟩
  | fails c agenda reason hdialing =>
    rw [attempt_eq_take, state_take, engine_take]
    exact (c.session.engine.failed_connectFailed reason).lasting h.1 h.2
  | acts c agenda hdialing ht =>
    rw [state_take, engine_take]
    exact ht.lasting rfl h.1 h.2
  | reads c agenda bytes hopen => exact h
  | ticks c agenda now => exact h
  | expires c agenda hstate hfreed =>
    rw [attempt_eq_take, state_take, engine_take]
    exact (c.session.engine.interim_timerFired false).lasting rfl h.1 h.2

section Fresh

variable (id : SessionId) (config : Config) (begun : Instant) (handler : Handler σ) (memory : σ)
  (writes : List (Option TransportError))

theorem bracketing_fresh : (fresh id config begun handler memory writes).Bracketing where
  closing := by
    rw [state_fresh]
    exact fun h => absurd h (by decide)
  bracketed := ⟨false, .nil, fun _ => rfl⟩

/-- A new session is over only if somebody has asked for that. -/
theorem quit_of_freed (wakes : List (Instant × Wake))
    (hfreed : ((fresh id config begun handler memory writes).run wakes).session.engine.freed =
      true) : ∃ w ∈ wakes, w.2.isQuit = true := by
  refine List.any_eq_true.mp (Bool.not_eq_false _ ▸ fun hno => ?_)
  have hleads : Leads false ⟨fresh id config begun handler memory writes, []⟩
      ⟨(fresh id config begun handler memory writes).run wakes, []⟩ :=
    (waiting_fresh id config begun handler memory writes).leads_run fun w hw hquit =>
      absurd (hno.symm.trans (List.any_eq_true.mpr ⟨w, hw, hquit⟩)) Bool.false_ne_true
  have hlasting := hleads.keeps
    (I := fun x => x.client.session.engine.freed = false ∧ x.client.state ≠ .quitting)
    lasting_move ⟨rfl, by rw [state_fresh]; decide⟩
  exact absurd (hlasting.1.symm.trans hfreed) Bool.false_ne_true

/-- **Events are in brackets.**  In every run of a new session, the handler is told of what is
received only between being told that a connection is there and that it is gone, and of failed
attempts only elsewhere.  A bracket that is still open is that of the connection that is
there, or the session is over because somebody has asked for that, unless the loop has broken
down.  And what a frame has the handler told of is always something received. -/
theorem events_bracketed (wakes : List (Instant × Wake)) :
    (∃ inside,
      Bracketed inside
          (Note.events ((fresh id config begun handler memory writes).run wakes).log) ∧
        (inside = true →
          ((fresh id config begun handler memory writes).run wakes).state = .connected ∨
            ((fresh id config begun handler memory writes).run wakes).breakdown.isSome = true ∨
              ((fresh id config begun handler memory writes).run wakes).session.engine.freed =
                  true ∧ ∃ w ∈ wakes, w.2.isQuit = true)) ∧
      ∀ (e : Engine) (now : Instant) (frame : Frame),
        ∀ event ∈ (e.hear now frame).events, event.IsReceived := by
  refine ⟨?_, fun e now frame => (e.response_hear now frame).heard.events⟩
  have hend := (waiting_fresh id config begun handler memory writes).run wakes
  have hleads := leads_fresh id config begun handler memory writes wakes
  have hkept := hleads.keeps (I := fun x => x.client.Sound True ∧ x.client.Bracketing)
    (fun hmove h => ⟨h.1.move hmove, h.2.move hmove h.1⟩)
    ⟨sound_fresh id config begun handler memory writes,
      bracketing_fresh id config begun handler memory writes⟩
  have hquit := quit_of_freed id config begun handler memory writes wakes
  generalize (fresh id config begun handler memory writes).run wakes = c at *
  obtain ⟨inside, hbracketed, hinside⟩ := hkept.2.bracketed
  refine ⟨inside, hbracketed, fun hopen => ?_⟩
  cases hstopped : c.stopped with
  | true =>
    rw [stopped, Bool.or_eq_true] at hstopped
    exact .inr (hstopped.elim (fun hfreed => .inr ⟨hfreed, hquit hfreed⟩) .inl)
  | false =>
    have hw := hend.resolve_left (Bool.eq_false_iff.mp hstopped)
    have hsocket : c.socketOpen = true :=
      (hinside (freed_of_running hstopped)).symm.trans hopen
    rcases (hkept.1.held hsocket).1 with hs | hs | hs
    · exact .inl hs
    · exact absurd hs hw.rests.1
    · exact absurd hs hw.rests.2

end Fresh

/-- A client that was sent a text and then lost the connection: three events, in brackets that
are closed. -/
theorem events_bracketed_of_lost :
    let c := (fresh ⟨1⟩ (Config.forServer "host" 6667 "me") ⟨0⟩ Handler.idle () []).run
      [(⟨0⟩, .command .connect), (⟨0⟩, .dialed (.ok ())),
        (⟨0⟩, .read (.ok (Framer.encode ":you PRIVMSG me :hi\r\n"))), (⟨0⟩, .read (.ok []))]
    c.stopped = false ∧ c.state = .reconnecting ∧ (Note.events c.log).length = 3 ∧
      Bracketed false (Note.events c.log) := by
  intro c
  have hrunning : c.stopped = false := by decide +kernel
  have hstate : c.state = .reconnecting := by decide +kernel
  have hlength : (Note.events c.log).length = 3 := by decide +kernel
  obtain ⟨hfreed, hbroken⟩ := Bool.or_eq_false_iff.mp hrunning
  obtain ⟨⟨inside, hbracketed, hinside⟩, -⟩ := events_bracketed ⟨1⟩
    (Config.forServer "host" 6667 "me") ⟨0⟩ Handler.idle () []
    [(⟨0⟩, .command .connect), (⟨0⟩, .dialed (.ok ())),
      (⟨0⟩, .read (.ok (Framer.encode ":you PRIVMSG me :hi\r\n"))), (⟨0⟩, .read (.ok []))]
  refine ⟨hrunning, hstate, hlength, ?_⟩
  cases inside with
  | false => exact hbracketed
  | true =>
    -- a bracket would be open only on a connection, or at the end
    rcases hinside rfl with hopen | hstopped | ⟨hover, -⟩
    · exact absurd (hstate.symm.trans hopen) (by decide)
    · exact absurd (hbroken.symm.trans hstopped) Bool.false_ne_true
    · exact absurd (hfreed.symm.trans hover) Bool.false_ne_true

end Client

end Irc
