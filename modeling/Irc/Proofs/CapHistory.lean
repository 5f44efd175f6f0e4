/-
What a registry says of its history.

Of each capability a registry keeps four things, and six operations change some of them.  What
an operation tells of a capability is a piece of `Registry.News`, and what is noted follows from
the pieces alone: each flag from the last one that has to do with it.  No capability hears the
news of another.

* **`Registry.listed_eq`** — a request lists what is queued;
* **`Registry.status_step`** — an operation changes what its news says and nothing else;
* **`Registry.status_run`**, **`Registry.field_of_news`** — so does a history of operations, of
  which the last news about a flag counts;
* **`Registry.flags_of_history`** — what the flags say.
-/
import Irc.Engine.Basic
import Irc.Proofs.Text

namespace Irc

open Capability

/-! ### Names -/

namespace Capability

@[simp] theorem ofName?_name (cap : Capability) : ofName? cap.name = some cap := by
  cases cap <;> rfl

theorem name_injective : Function.Injective name := by
  intro cap other h
  have hfound := ofName?_name cap
  rw [h, ofName?_name] at hfound
  exact (Option.some_inj.mp hfound).symm

theorem mem_all (cap : Capability) : cap ∈ all := by cases cap <;> decide

/-- Names that are put together with spaces come apart again. -/
theorem parseNames_names (caps : List Capability) :
    parseNames (String.intercalate " " (caps.map name)) = caps.map name := by
  have hblank : ∀ cap : Capability, ∀ c ∈ cap.name.toList, Text.isAsciiBlank c = false := by
    intro cap
    cases cap <;> simp [name, Text.isAsciiBlank]
  have hne : ∀ cap : Capability, cap.name.toList ≠ [] := by
    intro cap
    cases cap <;> simp [name]
  have hrun : ∀ run ∈ (caps.map name).map String.toList,
      run ≠ [] ∧ ∀ c ∈ run, Text.isAsciiBlank c = false := by
    intro run hrun
    rw [List.map_map] at hrun
    obtain ⟨cap, -, rfl⟩ := List.mem_map.mp hrun
    exact ⟨hne cap, hblank cap⟩
  have hfull : ((caps.map name).map String.toList).filter (· ≠ []) =
      (caps.map name).map String.toList :=
    List.filter_eq_self.mpr fun run hmem => decide_eq_true (hrun run hmem).1
  have hback : String.ofList ∘ String.toList = id := funext fun _ => String.ofList_toList
  rw [parseNames, String.toList_intercalate, show " ".toList = [' '] from rfl,
    Text.words_intercalate (by decide) fun run hmem => (hrun run hmem).2, hfull, List.map_map, hback, List.map_id]

end Capability

/-- Whether the capability is offered, and with what value. -/
def Capability.Status.offer (s : Status) : Bool × Option String := (s.offered, s.value)

namespace Registry

/-! ### Operations and news -/

/-- An operation on a registry. -/
inductive Step where
  | offer (name : String) (value : Option String)
  | takeRequest
  | acknowledge (entry : String)
  | deny (name : String)
  | revoke (name : String)
  /-- A new connection begins. -/
  | reset
deriving DecidableEq

/-- The name of an acknowledged entry, without the marks in front. -/
def unmarked (entry : String) : String := String.ofList (entry.toList.dropWhile isModifier)

/-- Carries an operation out, or refuses it. -/
def carryOut (r : Registry) : Step → Except UnknownCapability Registry
  | .offer name value => (r.offer name value).map Prod.snd
  | .takeRequest => .ok ((r.takeRequest.map Prod.snd).getD r)
  | .acknowledge entry => (r.acknowledge entry).map Prod.snd
  | .deny name => (r.deny name).map Prod.snd
  | .revoke name => (r.revoke name).map Prod.snd
  | .reset => .ok {}

/-- The registry after an operation. -/
def step (r : Registry) (op : Step) : Registry :=
  match r.carryOut op with
  | .ok after => after
  | .error _ => r

/-- The registry after operations in order. -/
def run (r : Registry) (ops : List Step) : Registry := ops.foldl step r

/-- The names in the argument of the next request. -/
def listed (r : Registry) : List String :=
  match r.takeRequest with
  | some (names, _) => parseNames names
  | none => []

/-- What an operation tells of a capability. -/
inductive News where
  | offered (value : Option String)
  | requested
  | acknowledged (enabled : Bool)
  | denied
  | revoked
  | forgotten
deriving DecidableEq

namespace News

/-- Adds news to what is noted. -/
def note : News → Status → Status
  | offered value, s => { s with offered := true, value := value }
  | requested, s => { s with requested := true }
  | acknowledged true, s => { s with enabled := true }
  | acknowledged false, s => { s with enabled := false, requested := false }
  | denied, s => { s with requested := false, enabled := false }
  | revoked, _ => {}
  | forgotten, _ => {}

/-- Adds news to what is noted, the oldest first. -/
def noteAll (news : List News) (s : Status) : Status := news.foldl (fun s n => n.note s) s

/-- News that has to do with what was asked for. -/
def aboutRequest : News → Bool
  | requested | acknowledged false | denied | revoked | forgotten => true
  | offered _ | acknowledged true => false

/-- News that has to do with what is enabled. -/
def aboutUse : News → Bool
  | acknowledged _ | denied | revoked | forgotten => true
  | offered _ | requested => false

/-- News that has to do with what the server offers. -/
def aboutOffer : News → Bool
  | offered _ | revoked | forgotten => true
  | requested | acknowledged _ | denied => false

/-- The offer that news is, if it is one: that there is one, and its value. -/
def offer : News → Bool × Option String
  | offered value => (true, value)
  | _ => (false, none)

end News

/-- What the server says in an operation: a name, and the news about it. -/
def Step.told? : Step → Option (String × News)
  | .offer name value => some (name, .offered value)
  | .acknowledge entry =>
    some (unmarked entry, .acknowledged (!(entry.toList.takeWhile isModifier).contains '-'))
  | .deny name => some (name, .denied)
  | .revoke name => some (name, .revoked)
  | .takeRequest | .reset => none

/-- The news of an operation for a capability.  A request is news for what it lists; a name that
is not known is news for none. -/
def news? (r : Registry) (cap : Capability) (op : Step) : Option News :=
  match op with
  | .takeRequest => if cap.name ∈ r.listed then some .requested else none
  | .reset => some .forgotten
  | .offer .. | .acknowledge _ | .deny _ | .revoke _ =>
    op.told?.bind fun told => if ofName? told.1 = some cap then some told.2 else none

/-- The news for a capability, oldest first. -/
def history (cap : Capability) : Registry → List Step → List News
  | _, [] => []
  | r, op :: ops => (r.news? cap op).toList ++ history cap (r.step op) ops

/-- Of the news that has to do with something, the last one. -/
def lastNews (about : News → Bool) (news : List News) : Option News := (news.filter about).getLast?

variable {r : Registry} {cap : Capability}

/-! ### What is asked for -/

theorem status_markRequested (r : Registry) (caps : List Capability) (cap : Capability) :
    (caps.foldl markRequested r).status cap =
      if cap ∈ caps then { r.status cap with requested := true } else r.status cap := by
  induction caps generalizing r with
  | nil => rfl
  | cons other caps ih =>
    rw [List.foldl_cons, ih, markRequested, status_put]
    by_cases hother : cap = other
    · rw [if_pos hother, if_pos (List.mem_cons.mpr (.inl hother)), hother, ite_self]
    · rw [if_neg hother]
      simp only [List.mem_cons, hother, false_or]

theorem pending_markRequested (r : Registry) (caps : List Capability) :
    (caps.foldl markRequested r).pending = r.pending := by
  induction caps generalizing r with
  | nil => rfl
  | cons cap caps ih => exact (ih _).trans (pending_put r cap _)

theorem takeRequest_eq_some_iff {names : String} {after : Registry} :
    r.takeRequest = some (names, after) ↔
      r.pending ≠ [] ∧ names = String.intercalate " " (r.pending.map name) ∧
        after = r.pending.foldl markRequested { r with pending := [] } := by
  rw [takeRequest]
  split_ifs with hpending
  · simp [hpending]
  · simp [hpending, eq_comm]

/-- A request lists what is queued. -/
theorem listed_eq (r : Registry) : r.listed = r.pending.map name := by
  rw [listed, takeRequest]
  split_ifs with hpending
  · rw [hpending]
    rfl
  · exact parseNames_names r.pending

theorem name_mem_listed : cap.name ∈ r.listed ↔ cap ∈ r.pending := by
  rw [listed_eq, List.mem_map_of_injective name_injective]

/-! ### One operation -/

/-- The queue after news about a capability. -/
def News.queue (n : News) (r : Registry) (cap : Capability) : List Capability :=
  match n with
  | .offered value => if r.wants cap value then r.pending ++ [cap] else r.pending
  | .revoked => r.pending.filter (· ≠ cap)
  | _ => r.pending

/-- What the server says is refused when the name is not known, and noted otherwise. -/
theorem carryOut_of_told {op : Step} {name : String} {n : News} (h : op.told? = some (name, n)) :
    r.carryOut op =
      match ofName? name with
      | none => .error ⟨name⟩
      | some cap => .ok { r.put cap (n.note (r.status cap)) with pending := n.queue r cap } := by
  have hput : ∀ (cap : Capability) (s : Status),
      ({ r.put cap s with pending := r.pending } : Registry) = r.put cap s := by
    intro cap s
    cases cap <;> rfl
  cases op with
  | offer name' value =>
    obtain ⟨rfl, rfl⟩ := Prod.mk.inj (Option.some_inj.mp h)
    rw [carryOut, offer, lookup]
    cases ofName? name' with
    | none => rfl
    | some cap =>
      dsimp only [News.queue]
      by_cases hwants : r.wants cap value = true
      · rw [if_pos hwants, if_pos hwants]
        rfl
      · rw [if_neg hwants, if_neg hwants, hput]
        rfl
  | acknowledge entry =>
    obtain ⟨rfl, rfl⟩ := Prod.mk.inj (Option.some_inj.mp h)
    rw [carryOut, acknowledge, lookup, unmarked]
    cases ofName? (String.ofList (entry.toList.dropWhile isModifier)) with
    | none => rfl
    | some cap =>
      dsimp only [News.queue]
      rw [hput]
      cases (entry.toList.takeWhile isModifier).contains '-' <;> rfl
  | deny name' =>
    obtain ⟨rfl, rfl⟩ := Prod.mk.inj (Option.some_inj.mp h)
    rw [carryOut, deny, lookup]
    cases ofName? name' with
    | none => rfl
    | some cap =>
      dsimp only [News.queue]
      rw [hput]
      rfl
  | revoke name' =>
    obtain ⟨rfl, rfl⟩ := Prod.mk.inj (Option.some_inj.mp h)
    rw [carryOut, revoke, lookup]
    cases ofName? name' <;> rfl
  | takeRequest => exact absurd h (by simp [Step.told?])
  | reset => exact absurd h (by simp [Step.told?])

/-- An operation is refused when the server says a name that is not known. -/
theorem carryOut_eq_error_iff {op : Step} {u : UnknownCapability} :
    r.carryOut op = .error u ↔ ofName? u.name = none ∧ ∃ n, op.told? = some (u.name, n) := by
  cases h : op.told? with
  | none => cases op <;> simp [Step.told?, carryOut] at h ⊢
  | some told =>
    obtain ⟨name, n⟩ := told
    rw [carryOut_of_told h]
    cases hname : ofName? name with
    | none =>
      constructor
      · intro hrefused
        rw [← Except.error.inj hrefused]
        exact ⟨hname, n, rfl⟩
      · rintro ⟨-, n', htold⟩
        obtain ⟨rfl, -⟩ := Prod.mk.inj (Option.some_inj.mp htold)
        rfl
    | some cap =>
      constructor
      · intro hrefused
        exact absurd hrefused (by simp)
      · rintro ⟨hunknown, n', htold⟩
        obtain ⟨rfl, -⟩ := Prod.mk.inj (Option.some_inj.mp htold)
        exact absurd (hname.symm.trans hunknown) (by simp)

/-- What an operation does, by what the server says in it. -/
theorem step_cases (r : Registry) (op : Step) :
    (∃ name n, op.told? = some (name, n) ∧
        ((ofName? name = none ∧ r.step op = r) ∨ ∃ cap, ofName? name = some cap ∧
          r.step op = { r.put cap (n.note (r.status cap)) with pending := n.queue r cap })) ∨
      (op = .takeRequest ∧ r.step op = r.pending.foldl markRequested { r with pending := [] }) ∨
        op = .reset ∧ r.step op = {} := by
  cases h : op.told? with
  | some told =>
    refine .inl ⟨told.1, told.2, rfl, ?_⟩
    rw [step, carryOut_of_told h]
    cases hname : ofName? told.1 with
    | none => exact .inl ⟨rfl, rfl⟩
    | some cap => exact .inr ⟨cap, rfl, rfl⟩
  | none =>
    cases op with
    | takeRequest =>
      refine .inr (.inl ⟨rfl, ?_⟩)
      rw [step, carryOut, takeRequest]
      split_ifs with hpending
      · have hempty : ({ r with pending := [] } : Registry) = r := by rw [← hpending]
        rw [hpending, hempty]
        rfl
      · rfl
    | reset => exact .inr (.inr ⟨rfl, rfl⟩)
    | _ => exact absurd h (by simp [Step.told?])

theorem news?_of_told {op : Step} {name : String} {n : News} (h : op.told? = some (name, n))
    (cap : Capability) :
    r.news? cap op = if ofName? name = some cap then some n else none := by
  cases op with
  | takeRequest => exact absurd h (by simp [Step.told?])
  | reset => exact absurd h (by simp [Step.told?])
  | _ =>
    rw [news?, h]
    rfl

/-- An operation changes what its news says, and nothing else is noted of a capability. -/
theorem status_step (r : Registry) (op : Step) (cap : Capability) :
    (r.step op).status cap =
      ((r.news? cap op).map fun n => n.note (r.status cap)).getD (r.status cap) := by
  rcases r.step_cases op with ⟨name, n, htold, hname⟩ | ⟨rfl, hstep⟩ | ⟨rfl, hstep⟩
  · rw [news?_of_told htold]
    rcases hname with ⟨hunknown, hstep⟩ | ⟨other, hother, hstep⟩
    · rw [hstep, hunknown]
      rfl
    · rw [hstep, hother, status_setPending, status_put]
      by_cases hcap : cap = other
      · rw [hcap, if_pos rfl, if_pos rfl]
        rfl
      · rw [if_neg hcap, if_neg fun hsome => hcap (Option.some_inj.mp hsome).symm]
        rfl
  · rw [hstep, status_markRequested, news?, status_setPending]
    by_cases hpending : cap ∈ r.pending
    · rw [if_pos hpending, if_pos (name_mem_listed.mpr hpending)]
      rfl
    · rw [if_neg hpending, if_neg fun hlisted => hpending (name_mem_listed.mp hlisted)]
      rfl
  · rw [hstep]
    cases cap <;> rfl

/-! ### A history of operations -/

theorem history_append (cap : Capability) (r : Registry) (ops later : List Step) :
    history cap r (ops ++ later) = history cap r ops ++ history cap (r.run ops) later := by
  induction ops generalizing r with
  | nil => rfl
  | cons op ops ih =>
    rw [List.cons_append, history, ih, history, List.append_assoc]
    rfl

/-- What is noted of a capability is what its news says, one piece after the other. -/
theorem status_run (r : Registry) (ops : List Step) (cap : Capability) :
    (r.run ops).status cap = News.noteAll (history cap r ops) (r.status cap) := by
  induction ops generalizing r with
  | nil => rfl
  | cons op ops ih =>
    have hrest : (r.run (op :: ops)).status cap = ((r.step op).run ops).status cap := rfl
    rw [hrest, ih, history, News.noteAll, News.noteAll, List.foldl_append, status_step]
    cases r.news? cap op <;> rfl

/-- From the beginning on, what is noted of a capability follows from its news alone. -/
theorem status_of_history (ops : List Step) (cap : Capability) :
    (run {} ops).status cap = News.noteAll (history cap {} ops) {} := by
  refine (status_run {} ops cap).trans (congrArg (News.noteAll _) ?_)
  cases cap <;> rfl

section

variable {α : Type} {about : News → Bool}

/-- A field that some news sets, and that other news leaves as it is, is as the last news set
it. -/
theorem field_of_news {field : Status → α} {value : News → α}
    (hnote : ∀ n s, field (News.note n s) = if about n then value n else field s)
    (news : List News) (s : Status) :
    field (News.noteAll news s) = ((lastNews about news).map value).getD (field s) := by
  induction news generalizing s with
  | nil => rfl
  | cons n news ih =>
    have hrest : News.noteAll (n :: news) s = News.noteAll news (n.note s) := rfl
    rw [hrest, ih, hnote, lastNews, lastNews]
    by_cases habout : about n = true
    · rw [if_pos habout, List.filter_cons_of_pos habout, List.getLast?_cons]
      cases (news.filter about).getLast? <;> rfl
    · rw [if_neg habout, List.filter_cons_of_neg habout]

/-- A flag that one kind of news raises is up when that was the last news, or when it was up and
there was no news. -/
theorem flag_of_news {flag : Status → Bool} {raised : News}
    (hnote : ∀ n s, flag (News.note n s) = if about n then decide (n = raised) else flag s)
    (news : List News) (s : Status) :
    flag (News.noteAll news s) = true ↔
      lastNews about news = some raised ∨ lastNews about news = none ∧ flag s = true := by
  rw [field_of_news hnote]
  cases lastNews about news <;> simp

end

theorem requested_of_news (news : List News) (s : Status) :
    (News.noteAll news s).requested = true ↔
      lastNews News.aboutRequest news = some .requested ∨
        lastNews News.aboutRequest news = none ∧ s.requested = true := by
  refine flag_of_news (fun n s => ?_) news s
  rcases n with value | _ | (_ | _) | _ | _ | _ <;> rfl

theorem enabled_of_news (news : List News) (s : Status) :
    (News.noteAll news s).enabled = true ↔
      lastNews News.aboutUse news = some (.acknowledged true) ∨
        lastNews News.aboutUse news = none ∧ s.enabled = true := by
  refine flag_of_news (fun n s => ?_) news s
  rcases n with value | _ | (_ | _) | _ | _ | _ <;> rfl

theorem offer_of_news (news : List News) (s : Status) :
    (News.noteAll news s).offer = ((lastNews News.aboutOffer news).map News.offer).getD s.offer := by
  refine field_of_news (fun n s => ?_) news s
  rcases n with value | _ | (_ | _) | _ | _ | _ <;> rfl

theorem allRequestedEnabled_eq_true_iff :
    r.allRequestedEnabled = true ↔
      ∀ cap, (r.status cap).requested = true → (r.status cap).enabled = true := by
  rw [allRequestedEnabled, List.all_eq_true]
  constructor
  · intro h cap hrequested
    have hcap := h cap (mem_all cap)
    rw [hrequested] at hcap
    exact hcap
  · intro h cap _
    cases hrequested : (r.status cap).requested with
    | false => rfl
    | true => exact h cap hrequested

/-- **What the flags say.**  Of the requests for a capability, the acknowledgements with a `-`,
the refusals, the withdrawals and the new beginnings the last one is a request just when the
capability counts as requested; of the acknowledgements, refusals, withdrawals and new beginnings
the last one is an acknowledgement without a `-` just when it counts as enabled; and what counts
as offered is the last offer, unless it was withdrawn or forgotten.  So every requested
capability is enabled just when the history of each says so, and what is refused changes nothing
and is news for none. -/
theorem flags_of_history (ops : List Step) :
    let r : Registry := run {} ops
    let news : Capability → List News := fun cap => history cap {} ops
    (∀ cap,
      ((r.status cap).requested = true ↔
        lastNews News.aboutRequest (news cap) = some .requested) ∧
      ((r.status cap).enabled = true ↔
        lastNews News.aboutUse (news cap) = some (.acknowledged true)) ∧
      ((r.status cap).offered, (r.status cap).value) =
        ((lastNews News.aboutOffer (news cap)).map News.offer).getD (false, none)) ∧
    (r.allRequestedEnabled = true ↔
      ∀ cap, lastNews News.aboutRequest (news cap) = some .requested →
        lastNews News.aboutUse (news cap) = some (.acknowledged true)) ∧
    ∀ op u, r.carryOut op = .error u →
      ofName? u.name = none ∧ run {} (ops ++ [op]) = r ∧
        ∀ cap, history cap {} (ops ++ [op]) = news cap := by
  intro r news
  have hnoted : ∀ cap, r.status cap = News.noteAll (news cap) {} := status_of_history ops
  have hrequested : ∀ cap, (r.status cap).requested = true ↔
      lastNews News.aboutRequest (news cap) = some .requested := by
    intro cap
    rw [hnoted, requested_of_news]
    exact or_iff_left fun h => Bool.false_ne_true h.2
  have henabled : ∀ cap, (r.status cap).enabled = true ↔
      lastNews News.aboutUse (news cap) = some (.acknowledged true) := by
    intro cap
    rw [hnoted, enabled_of_news]
    exact or_iff_left fun h => Bool.false_ne_true h.2
  refine ⟨fun cap => ⟨hrequested cap, henabled cap, ?_⟩, ?_, ?_⟩
  · rw [hnoted]
    exact offer_of_news (news cap) {}
  · simp only [allRequestedEnabled_eq_true_iff, hrequested, henabled]
  · intro op u hrefused
    obtain ⟨hunknown, n, htold⟩ := carryOut_eq_error_iff.mp hrefused
    refine ⟨hunknown, ?_, fun cap => ?_⟩
    · show (ops ++ [op]).foldl step {} = _
      rw [List.foldl_append]
      show r.step op = r
      rw [step, hrefused]
    · have hnone : r.news? cap op = none := by
        rw [news?_of_told htold, hunknown]
        rfl
      rw [history_append, history, show run {} ops = r from rfl, hnone]
      exact List.append_nil _

/-- Login is asked for and enabled with marks in front of its name, and another capability is
asked for and refused. -/
theorem flags_of_history_of_login :
    let ops : List Step := [.offer "sasl" (some "PLAIN"), .offer "server-time" none, .takeRequest,
      .acknowledge "~=SASL", .deny "server-time", .offer "sasl" none]
    ((run {} ops).status .sasl).requested = true ∧ ((run {} ops).status .sasl).enabled = true ∧
      (run {} ops).allRequestedEnabled = true ∧
      run {} (ops ++ [.acknowledge "-tls"]) = run {} ops := by
  intro ops
  obtain ⟨hflags, hall, hrefused⟩ := flags_of_history ops
  refine ⟨(hflags .sasl).1.mpr (by decide +kernel), (hflags .sasl).2.1.mpr (by decide +kernel),
    hall.mpr ?_, (hrefused (.acknowledge "-tls") ⟨"tls"⟩ ?_).2.1⟩
  · intro cap
    cases cap <;> decide +kernel
  · exact carryOut_eq_error_iff.mpr ⟨by decide +kernel, _, rfl⟩

end Registry

end Irc
