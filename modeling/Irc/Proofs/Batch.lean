/-
What a request asks for.

A capability waits in the queue of a registry from the offer that put it there until it is asked
for, withdrawn or forgotten.  What else is said of it in the meantime does not take it out again:
an acknowledgement that nobody asked for, or another offer with a value that is of no use.  So a
request lists what was wanted when it was offered.

* **`Registry.Queued`** — the offer that a capability in the queue goes back to;
* **`Registry.queued_run`** — whatever waits was wanted once, and waits once only;
* **`Registry.request_of_run`** — what a request lists, and what may have happened since;
* **`Registry.unwanted_of_offers`** — two offers after which a capability is asked for that is of
  no use.
-/
import Irc.Proofs.CapHistory

namespace Irc

open Capability

namespace Registry

/-- News that takes a capability out of the queue. -/
def News.settles : News → Bool
  | requested | revoked | forgotten => true
  | offered _ | acknowledged _ | denied => false

/-- The offer that a capability in the queue goes back to: it had a value that the client accepts,
the capability was neither requested nor enabled at the time, and nothing has settled it since. -/
def Queued (cap : Capability) (news : List News) : Prop :=
  ∃ earlier value later, news = earlier ++ .offered value :: later ∧
    cap.accepts value = true ∧ (News.noteAll earlier {}).requested = false ∧
    (News.noteAll earlier {}).enabled = false ∧ ∀ n ∈ later, n.settles = false

variable {r : Registry} {cap : Capability} {news : List News}

theorem wants_eq_true_iff {value : Option String} :
    r.wants cap value = true ↔
      cap.accepts value = true ∧ (r.status cap).enabled = false ∧
        (r.status cap).requested = false ∧ cap ∉ r.pending := by
  simp [wants, and_assoc]

theorem Queued.append (h : Queued cap news) {later : List News}
    (hlater : ∀ n ∈ later, n.settles = false) : Queued cap (news ++ later) := by
  obtain ⟨earlier, value, since, rfl, haccepts, hrequested, henabled, hsince⟩ := h
  refine ⟨earlier, value, since ++ later, by simp, haccepts, hrequested, henabled, ?_⟩
  rw [List.forall_mem_append]
  exact ⟨hsince, hlater⟩

/-- Whatever waits in the queue goes back to an offer that was wanted, and waits only once. -/
theorem queued_run (ops : List Step) :
    (run {} ops).pending.Nodup ∧
      ∀ cap ∈ (run {} ops).pending, Queued cap (history cap {} ops) := by
  induction ops using List.reverseRecOn with
  | nil => exact ⟨List.nodup_nil, fun cap hcap => absurd hcap List.not_mem_nil⟩
  | append_singleton ops op ih =>
    obtain ⟨hnodup, hqueued⟩ := ih
    have hrun : run {} (ops ++ [op]) = (run {} ops).step op := by
      rw [run, List.foldl_append]
      rfl
    have hhistory : ∀ cap, history cap {} (ops ++ [op]) =
        history cap {} ops ++ ((run {} ops).news? cap op).toList := by
      intro cap
      rw [history_append, history]
      exact congrArg _ (List.append_nil _)
    rw [hrun]
    simp only [hhistory]
    rcases (run {} ops).step_cases op with ⟨name, n, htold, hname⟩ | ⟨rfl, hstep⟩ | ⟨rfl, hstep⟩
    · simp only [news?_of_told htold]
      rcases hname with ⟨hunknown, hstep⟩ | ⟨other, hother, hstep⟩
      · simp only [hstep, hunknown, reduceCtorEq, if_false, Option.toList_none, List.append_nil]
        exact ⟨hnodup, hqueued⟩
      · rw [hstep]
        -- what waited before still does, unless the news is that it is settled
        have hkeep : ∀ cap ∈ (run {} ops).pending, n.settles = false ∨ cap ≠ other →
            Queued cap (history cap {} ops ++
              (if ofName? name = some cap then some n else none).toList) := by
          intro cap hcap hn
          refine (hqueued cap hcap).append fun n' hn' => ?_
          split_ifs at hn' with hfound
          · obtain rfl := List.mem_singleton.mp hn'
            exact hn.resolve_right fun hne => hne (Option.some_inj.mp (hfound.symm.trans hother))
          · exact absurd hn' List.not_mem_nil
        cases n with
        | offered value =>
          dsimp only [News.queue]
          by_cases hwants : (run {} ops).wants other value = true
          · rw [if_pos hwants]
            obtain ⟨haccepts, henabled, hrequested, hnew⟩ := wants_eq_true_iff.mp hwants
            rw [status_of_history] at henabled hrequested
            refine ⟨List.concat_eq_append ▸ hnodup.concat hnew, fun cap hcap => ?_⟩
            rcases List.mem_append.mp hcap with hcap | hcap
            · exact hkeep cap hcap (.inl rfl)
            · obtain rfl := List.mem_singleton.mp hcap
              rw [if_pos hother]
              exact ⟨_, value, [], rfl, haccepts, hrequested, henabled,
                fun n hn => absurd hn List.not_mem_nil⟩
          · rw [if_neg hwants]
            exact ⟨hnodup, fun cap hcap => hkeep cap hcap (.inl rfl)⟩
        | revoked =>
          refine ⟨hnodup.filter _, fun cap hcap => ?_⟩
          obtain ⟨hcap, hne⟩ := List.mem_filter.mp hcap
          exact hkeep cap hcap (.inr (of_decide_eq_true hne))
        | acknowledged enabled => exact ⟨hnodup, fun cap hcap => hkeep cap hcap (.inl rfl)⟩
        | denied => exact ⟨hnodup, fun cap hcap => hkeep cap hcap (.inl rfl)⟩
        | requested => cases op <;> cases htold
        | forgotten => cases op <;> cases htold
    · rw [hstep, pending_markRequested]
      exact ⟨List.nodup_nil, fun cap hcap => absurd hcap List.not_mem_nil⟩
    · rw [hstep]
      exact ⟨List.nodup_nil, fun cap hcap => absurd hcap List.not_mem_nil⟩

/-- What is noted of a capability that waits: it is offered and was not requested; what it is
worth now depends on the news since the offer that it goes back to. -/
theorem Queued.noted (h : Queued cap news) :
    (News.noteAll news {}).offered = true ∧ (News.noteAll news {}).requested = false ∧
      ∃ earlier value later, news = earlier ++ .offered value :: later ∧
        cap.accepts value = true ∧ (∀ n ∈ later, n.settles = false) ∧
        ((News.noteAll news {}).enabled = true ↔
          lastNews News.aboutUse later = some (.acknowledged true)) ∧
        (News.noteAll news {}).value =
          ((lastNews News.aboutOffer later).map (·.offer.2)).getD value := by
  obtain ⟨earlier, value, later, rfl, haccepts, hrequested, henabled, hlater⟩ := h
  have hnoted : News.noteAll (earlier ++ .offered value :: later) {} =
      News.noteAll later (News.note (.offered value) (News.noteAll earlier {})) :=
    List.foldl_append
  have hlast : ∀ {about : News → Bool} {n : News}, lastNews about later = some n →
      about n = true ∧ n.settles = false := by
    intro about n hn
    obtain ⟨hmem, habout⟩ := List.mem_filter.mp (List.mem_of_getLast? hn)
    exact ⟨habout, hlater n hmem⟩
  have hoffer := offer_of_news later (News.note (.offered value) (News.noteAll earlier {}))
  rw [hnoted]
  refine ⟨?_, ?_, earlier, value, later, rfl, haccepts, hlater, ?_, ?_⟩
  · refine (congrArg Prod.fst hoffer).trans ?_
    cases hn : lastNews News.aboutOffer later with
    | none => rfl
    | some n =>
      -- an offer is the only news about offers that settles nothing
      obtain ⟨habout, hsettles⟩ := hlast hn
      cases n with
      | offered value => rfl
      | revoked => exact absurd hsettles (by decide)
      | forgotten => exact absurd hsettles (by decide)
      | _ => exact absurd habout Bool.false_ne_true
  · refine Bool.eq_false_iff.mpr fun hyes => ?_
    rcases (requested_of_news later _).mp hyes with hn | ⟨-, hn⟩
    · exact absurd (hlast hn).2 (by decide)
    · exact absurd (hn.symm.trans hrequested) (by decide)
  · rw [enabled_of_news]
    refine or_iff_left fun hn => ?_
    exact absurd (hn.2.symm.trans henabled) (by decide)
  · refine (congrArg Prod.snd hoffer).trans ?_
    cases lastNews News.aboutOffer later <;> rfl

/-- **What a request lists.**  No name is listed twice, and every name is that of a capability
that is offered and was not requested.  It goes back to an offer with a value that the client
accepts, and since then it was neither requested nor withdrawn nor forgotten.  It is enabled just
when the last acknowledgement or refusal since is an acknowledgement without a `-`, and the value
that it has now is that of the last offer since. -/
theorem request_of_run {ops : List Step} {names : String} {after : Registry}
    (h : (run {} ops).takeRequest = some (names, after)) :
    (parseNames names).Nodup ∧ ∀ listed ∈ parseNames names, ∃ cap : Capability,
      listed = cap.name ∧
      ((run {} ops).status cap).offered = true ∧ ((run {} ops).status cap).requested = false ∧
      ∃ earlier value later, history cap {} ops = earlier ++ .offered value :: later ∧
        cap.accepts value = true ∧ (∀ n ∈ later, n.settles = false) ∧
        (((run {} ops).status cap).enabled = true ↔
          lastNews News.aboutUse later = some (.acknowledged true)) ∧
        ((run {} ops).status cap).value =
          ((lastNews News.aboutOffer later).map (·.offer.2)).getD value := by
  obtain ⟨hnodup, hqueued⟩ := queued_run ops
  obtain ⟨-, rfl, -⟩ := takeRequest_eq_some_iff.mp h
  rw [parseNames_names]
  refine ⟨hnodup.map name_injective, fun listed hlisted => ?_⟩
  obtain ⟨cap, hcap, rfl⟩ := List.mem_map.mp hlisted
  refine ⟨cap, rfl, ?_⟩
  rw [status_of_history]
  exact (hqueued cap hcap).noted

/-- Two capabilities are offered; one of them is refused and offered again before they are asked
for. -/
theorem request_of_two_offers :
    let ops : List Step := [.offer "sasl" (some "PLAIN"), .offer "server-time" none,
      .deny "sasl", .offer "SASL" none]
    ∃ after, (run {} ops).takeRequest = some ("sasl server-time", after) ∧
      (parseNames "sasl server-time").Nodup ∧ ∀ listed ∈ parseNames "sasl server-time",
        ∃ cap : Capability, listed = cap.name ∧ ((run {} ops).status cap).offered = true := by
  intro ops
  have hlisted : ((run {} ops).takeRequest).map Prod.fst = some "sasl server-time" := by
    decide +kernel
  obtain ⟨⟨names, after⟩, htaken, rfl⟩ := Option.map_eq_some_iff.mp hlisted
  obtain ⟨hnodup, hnames⟩ := request_of_run htaken
  refine ⟨after, htaken, hnodup, fun listed hmem => ?_⟩
  obtain ⟨cap, hname, hoffered, -⟩ := hnames listed hmem
  exact ⟨cap, hname, hoffered⟩

/-- Login is offered with a mechanism that the client has, and then without it: it is asked for
all the same.  It is asked for, too, when it is enabled already. -/
theorem unwanted_of_offers :
    let offered := run {} [.offer "sasl" (some "PLAIN"), .offer "sasl" (some "EXTERNAL")]
    let enabled := run {} [.offer "sasl" none, .acknowledge "sasl"]
    (offered.takeRequest.map Prod.fst = some "sasl" ∧
        Capability.sasl.accepts (offered.status .sasl).value = false) ∧
      enabled.takeRequest.map Prod.fst = some "sasl" ∧ (enabled.status .sasl).enabled = true := by
  decide +kernel

end Registry

end Irc
