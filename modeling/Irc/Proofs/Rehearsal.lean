/-
Rehearsals are runs.

A rehearsal wakes its client for as long as there is something for it to do, at the time that
the clock shows.  So the client of a rehearsal goes through a run of its event loop, and what
holds of every run holds of every rehearsal.

What becomes of a write is laid down before a run begins, but only in the course of a
rehearsal.  That makes no difference: nothing is decided by writes that are still to come, so
they can be chosen when the run is over.

* **`Client.foreseen_run`** — the writes that come after a run can be chosen before it;
* **`Rehearsal.prepare_runs_play`** — every cue is a run of wakes;
* **`Rehearsal.exists_run_of_script`** — and so is a whole script.
-/
import Irc.Client.Rehearsal
import Irc.Proofs.Waiting

namespace Irc

/-! ### Writes to come -/

namespace Client

variable {σ : Type} {f g : Client σ → Client σ}

/-- What is to become of writes after a step can be laid down before it. -/
def Foreseen (f : Client σ → Client σ) : Prop :=
  ∀ (c : Client σ) (writes : List (Option TransportError)), ∃ earlier,
    f { c with writes := earlier } = { f c with writes := writes }

namespace Foreseen

/-- A step that writes nothing. -/
theorem of_mute
    (h : ∀ (c : Client σ) writes, f { c with writes := writes } = { f c with writes := writes }) :
    Foreseen f := fun c writes => ⟨writes, h c writes⟩

theorem comp (hg : Foreseen g) (hf : Foreseen f) : Foreseen fun c => g (f c) := by
  intro c writes
  obtain ⟨between, hbetween⟩ := hg (f c) writes
  obtain ⟨earlier, hearlier⟩ := hf c between
  exact ⟨earlier, (congrArg g hearlier).trans hbetween⟩

/-- Which step is taken is not decided by writes to come. -/
theorem ite {p : Client σ → Bool}
    (hp : ∀ (c : Client σ) writes, p { c with writes := writes } = p c) (hf : Foreseen f)
    (hg : Foreseen g) : Foreseen fun c => if p c then f c else g c := by
  intro c writes
  simp only [hp]
  cases p c with
  | true => exact hf c writes
  | false => exact hg c writes

theorem foldl {α : Type} {step : Client σ → α → Client σ} (h : ∀ a, Foreseen (step · a))
    (l : List α) : Foreseen (l.foldl step) := by
  induction l with
  | nil => exact .of_mute fun _ _ => rfl
  | cons a l ih => exact ih.comp (h a)

end Foreseen

/-- How writing ends is settled by the writes that it comes to. -/
theorem exists_writeLines_eq (lines : List String) (c : Client σ)
    (writes : List (Option TransportError)) : ∃ earlier,
      { c with writes := earlier }.writeLines lines =
        ({ (c.writeLines lines).1 with writes := writes }, (c.writeLines lines).2) := by
  induction lines generalizing c with
  | nil => exact ⟨writes, rfl⟩
  | cons line lines ih =>
    cases hfailure : c.writes.head?.join with
    | some err =>
      refine ⟨some err :: writes, ?_⟩
      simp only [writeLines, hfailure]
      rfl
    | none =>
      obtain ⟨later, hlater⟩ := ih ({ c with
        session := { c.session with outbox := lines }
        writes := c.writes.tail }.note (.wrote line none))
      refine ⟨none :: later, ?_⟩
      simp only [writeLines, hfailure]
      exact hlater

theorem foreseen_flush : Foreseen fun c : Client σ => c.flush.1 := by
  intro c writes
  obtain ⟨earlier, hearlier⟩ := exists_writeLines_eq c.session.outbox c writes
  exact ⟨earlier, congrArg Prod.fst hearlier⟩

theorem foreseen_lose (reason : String) : Foreseen fun c : Client σ => c.lose reason :=
  .of_mute fun _ _ => rfl

theorem foreseen_carryOut (now : Instant) (effect : Effect) :
    Foreseen fun c : Client σ => c.carryOut now effect := by
  refine .ite (p := fun c => c.breakdown.isSome) (fun _ _ => rfl) (.of_mute fun _ _ => rfl) ?_
  cases effect with
  | closeSocket => exact (foreseen_lose _).comp foreseen_flush
  | forceClose => exact foreseen_lose _
  | armBackoff delay =>
    refine .of_mute fun c writes => ?_
    dsimp only
    cases now.after? delay <;> rfl
  | startKeepalive period =>
    refine .of_mute fun c writes => ?_
    dsimp only
    cases Ticker.start now period <;> rfl
  | _ => exact .of_mute fun _ _ => rfl

theorem foreseen_takeEffects (now : Instant) : Foreseen fun c : Client σ => c.takeEffects now :=
  fun c => Foreseen.foldl (foreseen_carryOut now) c.session.effects c.takeUp

theorem foreseen_proceed : Foreseen fun c : Client σ => c.proceed := by
  intro c writes
  have hsame : ∀ earlier, { c with writes := earlier }.state = c.state := fun _ => rfl
  simp only [proceed, hsame]
  cases c.state with
  | disconnected => exact ⟨writes, rfl⟩
  | reconnecting => exact ⟨writes, rfl⟩
  | connecting =>
    refine ⟨writes, ?_⟩
    dsimp only
    split_ifs <;> rfl
  | connected =>
    obtain ⟨earlier, hearlier⟩ := exists_writeLines_eq c.session.outbox c writes
    refine ⟨earlier, ?_⟩
    have hflush : { c with writes := earlier }.flush =
        ({ c.flush.1 with writes := writes }, c.flush.2) := hearlier
    rw [hflush]
    cases c.flush with
    | mk after failure => cases failure <;> rfl
  | disconnecting => exact ⟨writes, rfl⟩
  | quitting => exact ⟨writes, rfl⟩

theorem foreseen_round (now : Instant) : Foreseen fun c : Client σ => c.round now := by
  have hdone : Foreseen fun c : Client σ => c := .of_mute fun _ _ => rfl
  have heffects : Foreseen fun c : Client σ => c.runEffects now :=
    (foreseen_takeEffects now).comp (foreseen_takeEffects now)
  have hrest : Foreseen fun c : Client σ => if c.stopped then c else c.proceed :=
    .ite (fun _ _ => rfl) hdone foreseen_proceed
  exact .ite (fun _ _ => rfl) hdone (hrest.comp heffects)

theorem foreseen_settle (now : Instant) : Foreseen fun c : Client σ => c.settle now :=
  (foreseen_round now).comp (foreseen_round now)

theorem foreseen_obey (command : ClientCommand) : Foreseen fun c : Client σ => c.obey command := by
  have hreconsider : Foreseen fun c : Client σ => c.reconsider :=
    .ite (p := fun c => c.dialing && c.state ≠ .connecting) (fun _ _ => rfl)
      (.of_mute fun _ _ => rfl) (.of_mute fun _ _ => rfl)
  cases command <;> exact hreconsider.comp (.of_mute fun _ _ => rfl)

theorem foreseen_takeBytes (now : Instant) (bytes : List UInt8) :
    Foreseen fun c : Client σ => c.takeBytes now bytes := by
  have hhandle : ∀ frame, Foreseen fun c : Client σ => c.act (·.handleFrame now frame) :=
    fun _ => .of_mute fun _ _ => rfl
  intro c
  exact Foreseen.foldl hhandle (c.framer.feed c.buffer bytes).1
    { c with
      framer := (c.framer.feed c.buffer bytes).2.1
      buffer := (c.framer.feed c.buffer bytes).2.2 }

theorem foreseen_answer (now : Instant) (w : Wake) :
    Foreseen fun c : Client σ => c.answer now w := by
  cases w with
  | dialed outcome => cases outcome <;> exact .of_mute fun _ _ => rfl
  | read outcome =>
    cases outcome with
    | error err => exact foreseen_lose _
    | ok bytes =>
      cases bytes with
      | nil => exact foreseen_lose _
      | cons byte bytes => exact foreseen_takeBytes now _
  | command command => exact foreseen_obey command
  | abandoned => exact foreseen_obey (.quit none)
  | keepalive => exact .of_mute fun _ _ => rfl
  | timer => exact .of_mute fun _ _ => rfl

theorem foreseen_wake (now : Instant) (w : Wake) : Foreseen fun c : Client σ => c.wake now w := by
  refine .ite (p := fun c => c.stopped || !c.awaits now w) (fun _ _ => ?_)
    (.of_mute fun _ _ => rfl) ((foreseen_settle now).comp (foreseen_answer now w))
  cases w <;> rfl

/-- **The writes that come after a run can be chosen before it.** -/
theorem foreseen_run (wakes : List (Instant × Wake)) : Foreseen fun c : Client σ => c.run wakes :=
  Foreseen.foldl (fun w => foreseen_wake w.1 w.2) wakes

theorem run_append (c : Client σ) (wakes later : List (Instant × Wake)) :
    c.run (wakes ++ later) = (c.run wakes).run later := List.foldl_append

end Client

/-! ### Cues -/

namespace Rehearsal

variable {σ : Type} {r r' r'' : Rehearsal σ}

/-- From one stage to another the client is woken, at the time that the clock shows, and nothing
else is done with it. -/
structure Runs (r r' : Rehearsal σ) : Prop where
  now : r'.now = r.now
  client : ∃ wakes, (∀ w ∈ wakes, w.1 = r.now) ∧ r'.client = r.client.run wakes

namespace Runs

/-- The props may change. -/
theorem of_eq (hnow : r'.now = r.now) (hclient : r'.client = r.client) : r.Runs r' :=
  ⟨hnow, [], fun _ hw => absurd hw List.not_mem_nil, hclient⟩

theorem trans (h : r.Runs r') (h' : r'.Runs r'') : r.Runs r'' := by
  obtain ⟨wakes, hwakes, hclient⟩ := h.client
  obtain ⟨later, hlater, hclient'⟩ := h'.client
  refine ⟨h'.now.trans h.now, wakes ++ later, ?_, ?_⟩
  · exact List.forall_mem_append.mpr ⟨hwakes, fun w hw => (hlater w hw).trans h.now⟩
  · rw [hclient', hclient, Client.run_append]

theorem wake (r : Rehearsal σ) (w : Wake) : r.Runs (r.wake w) :=
  ⟨rfl, [(r.now, w)], fun _ hw => congrArg Prod.fst (List.mem_singleton.mp hw), rfl⟩

end Runs

/-- What the client has to do next, and the stage with that taken from it. -/
inductive Ready (r : Rehearsal σ) : Wake → Rehearsal σ → Prop where
  /-- An attempt that can fail has its outcome laid down. -/
  | dialed {outcome : Except TransportError Unit} (hstate : r.client.state = .connecting)
      (h : outcome = .ok () ∨ r.dials ≠ []) : Ready r (.dialed outcome) r
  | read {outcome : Except TransportError (List UInt8)}
      {rest : List (Except TransportError (List UInt8))} (hstate : r.client.state = .connected)
      (hinbound : r.inbound = outcome :: rest) : Ready r (.read outcome) { r with inbound := rest }
  | keepalive (hstate : r.client.state = .connected) : Ready r .keepalive r
  | timer (hstate : r.client.state = .reconnecting) : Ready r .timer r

theorem ready_of_ready? {next : Rehearsal σ} {w : Wake} (h : r.ready? = some (w, next)) :
    r.Ready w next := by
  rw [ready?] at h
  split at h
  next hstate =>
    split at h
    next hnone =>
      obtain ⟨rfl, rfl⟩ := Prod.mk.inj (Option.some_inj.mp h)
      exact .dialed hstate (.inl rfl)
    next later hnext =>
      obtain ⟨rfl, rfl⟩ := Prod.mk.inj (Option.some_inj.mp h)
      exact .dialed hstate (.inl rfl)
    next cause later hnext =>
      obtain ⟨rfl, rfl⟩ := Prod.mk.inj (Option.some_inj.mp h)
      exact .dialed hstate (.inr (hnext ▸ List.cons_ne_nil _ _))
    next => exact absurd h (by simp)
  next hstate =>
    split at h
    next hnext =>
      obtain ⟨rfl, rfl⟩ := Prod.mk.inj (Option.some_inj.mp h)
      exact .read hstate hnext
    next =>
      obtain ⟨rfl, rfl⟩ := Prod.mk.inj (Option.some_inj.mp h)
      exact .keepalive hstate
  next hstate =>
    obtain ⟨rfl, rfl⟩ := Prod.mk.inj (Option.some_inj.mp h)
    exact .timer hstate
  next => exact absurd h (by simp)

/-- Taking up what there is to do leaves client and clock alone. -/
theorem Ready.runs {next : Rehearsal σ} {w : Wake} (h : r.Ready w next) : r.Runs next := by
  cases h <;> exact .of_eq rfl rfl

theorem runs_settleWithin (fuel : Nat) (r : Rehearsal σ) : r.Runs (settleWithin fuel r) := by
  induction fuel generalizing r with
  | zero => exact .of_eq rfl rfl
  | succ fuel ih =>
    rw [settleWithin]
    cases hready : r.ready? with
    | none => exact .of_eq rfl rfl
    | some todo =>
      dsimp only
      split_ifs
      · exact ((ready_of_ready? hready).runs.trans (.wake todo.2 todo.1)).trans (ih _)
      · exact .of_eq rfl rfl

/-- The stage that a cue sets before the client is woken. -/
def prepare (r : Rehearsal σ) : Cue → Rehearsal σ
  | .command _ | .breakClose _ => r
  | .receive outcome => { r with inbound := r.inbound ++ [outcome] }
  | .breakWrite cause => { r with client := { r.client with writes := [some cause] } }
  | .advance millis => { r with now := ⟨r.now.nanos + millis * nanosPerMilli⟩ }
  | .letGo => { r with held := false }

/-- The stage is set in front of a client that notices nothing but what becomes of its writes. -/
theorem client_prepare (r : Rehearsal σ) (cue : Cue) :
    ∃ writes, (r.prepare cue).client = { r.client with writes := writes } := by
  cases cue with
  | breakWrite cause => exact ⟨_, rfl⟩
  | _ => exact ⟨r.client.writes, rfl⟩

/-- The clock does not go back. -/
theorem now_le_prepare (r : Rehearsal σ) (cue : Cue) :
    r.now.nanos ≤ (r.prepare cue).now.nanos := by
  cases cue with
  | advance millis => exact Nat.le_add_right _ _
  | _ => exact Nat.le_refl _

/-- **Every cue is a run of wakes**, at the time that the clock then shows. -/
theorem prepare_runs_play (r : Rehearsal σ) (cue : Cue) : (r.prepare cue).Runs (r.play cue) := by
  cases cue with
  | command command =>
    rw [play]
    split
    · exact (Runs.wake r _).trans (runs_settleWithin _ _)
    · exact .of_eq rfl rfl
  | receive outcome => exact runs_settleWithin _ _
  | breakWrite cause => exact .of_eq rfl rfl
  | breakClose cause => exact .of_eq rfl rfl
  | advance millis => exact runs_settleWithin _ _
  | letGo => exact (Runs.wake _ _).trans (runs_settleWithin _ _)

/-! ### Scripts -/

/-- The client after a script has gone through one run, at the times that the clock has shown. -/
theorem exists_run_of_cues (r : Rehearsal σ) (cues : List Cue) : ∃ writes wakes,
    (cues.foldl play r).client = { r.client with writes := writes }.run wakes ∧
      wakes.Pairwise (fun w w' => w.1.nanos ≤ w'.1.nanos) ∧
      (∀ w ∈ wakes, r.now.nanos ≤ w.1.nanos ∧ w.1.nanos ≤ (cues.foldl play r).now.nanos) ∧
      r.now.nanos ≤ (cues.foldl play r).now.nanos := by
  induction cues generalizing r with
  | nil =>
    exact ⟨r.client.writes, [], rfl, .nil, fun _ hw => absurd hw List.not_mem_nil, Nat.le_refl _⟩
  | cons cue cues ih =>
    obtain ⟨hnow, wakes, htimes, hclient⟩ := r.prepare_runs_play cue
    obtain ⟨prepared, hprepared⟩ := r.client_prepare cue
    obtain ⟨writes, later, hlater, hsorted, hbounds, hend⟩ := ih (r.play cue)
    -- what becomes of the writes in the rest of the script is laid down before the first cue
    obtain ⟨earlier, hearlier⟩ := Client.foreseen_run wakes (r.prepare cue).client writes
    have hle : r.now.nanos ≤ (r.play cue).now.nanos := hnow ▸ r.now_le_prepare cue
    have htime : ∀ w ∈ wakes, w.1 = (r.play cue).now := fun w hw => (htimes w hw).trans hnow.symm
    refine ⟨earlier, wakes ++ later, ?_, ?_, ?_, Nat.le_trans hle hend⟩
    · rw [List.foldl_cons, hlater, hclient, ← hearlier, Client.run_append, hprepared]
    · refine List.pairwise_append.mpr ⟨?_, hsorted, fun w hw w' hw' => ?_⟩
      · exact List.pairwise_of_forall_mem_list fun w hw w' hw' =>
          Nat.le_of_eq (congrArg Instant.nanos ((htime w hw).trans (htime w' hw').symm))
      · rw [htime w hw]
        exact (hbounds w' hw').1
    · refine List.forall_mem_append.mpr ⟨fun w hw => ?_, fun w hw => ?_⟩
      · rw [htime w hw]
        exact ⟨hle, hend⟩
      · exact ⟨Nat.le_trans hle (hbounds w hw).1, (hbounds w hw).2⟩

/-- **A script is a run.**  However a rehearsal goes, its client is one that has gone through a
run of its event loop, woken in the order of time and not after what the clock shows. -/
theorem exists_run_of_script (session : Session σ) (dials : List DialOutcome) (cues : List Cue) :
    let r := cues.foldl play (start session dials)
    ∃ writes wakes, r.client = (Client.start session writes).run wakes ∧
      wakes.Pairwise (fun w w' => w.1.nanos ≤ w'.1.nanos) ∧
        ∀ w ∈ wakes, w.1.nanos ≤ r.now.nanos := by
  obtain ⟨writes, wakes, hrun, hsorted, hbounds, -⟩ := exists_run_of_cues (start session dials) cues
  exact ⟨writes, wakes, hrun, hsorted, fun w hw => (hbounds w hw).2⟩

end Rehearsal

end Irc
