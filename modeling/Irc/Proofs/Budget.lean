/-
The byte budget of outgoing lines.

A line under construction takes middle parameters and trailing parameters in any
order.  `Draft.run` is what a sequence of such calls makes of it.  Nothing that is
put behind a line goes over its budget, but for one thing: the mark of an empty
trailing parameter is written also where there is no room for it.

* **`expectedLength_apply_le_iff`** — which calls keep to the budget;
* **`expectedLength_run_le_iff`** — which sequences of calls do;
* **`Built.within_iff`** — which finished lines do;
* **`within_budget_iff`** — which lines keep to the budget.
-/
import Irc.Proofs.Splitting

namespace Irc.Outgoing

open Text

/-- A call on a line under construction. -/
inductive Step where
  | middle (param : String)
  | trailing (text : String)

namespace Draft

/-- The line after a call; a middle parameter that is refused leaves it. -/
def apply (d : Draft) : Step → Draft
  | .middle param =>
    match d.addMiddle param with
    | .ok d' => d'
    | .error _ => d
  | .trailing text => (d.setTrailing text).1

/-- The line after a sequence of calls. -/
def run (d : Draft) (steps : List Step) : Draft := steps.foldl apply d

variable {d : Draft}

/-! ### One call -/

@[simp] theorem budget_apply (d : Draft) (s : Step) : (d.apply s).budget = d.budget := by
  cases s with
  | middle param =>
    rw [apply]
    split
    · rename_i d' h
      obtain ⟨-, -, -, -, rfl⟩ := addMiddle_eq_ok_iff.mp h
      rfl
    · rfl
  | trailing text =>
    rw [apply]
    rcases d.setTrailing_cases text with ⟨-, h⟩ | ⟨front, rest, -, -, -, h⟩
    · rw [h]
    · rw [h]
      rfl

/-- No call makes a line shorter. -/
theorem expectedLength_le_apply (d : Draft) (s : Step) :
    d.expectedLength ≤ (d.apply s).expectedLength := by
  cases s with
  | middle param =>
    rw [apply]
    split
    · rename_i d' h
      rw [expectedLength_addMiddle h]
      omega
    · exact Nat.le_refl _
  | trailing text =>
    rw [apply]
    rcases d.setTrailing_cases text with ⟨-, h⟩ | ⟨front, rest, -, -, -, h⟩
    · rw [h]
    · rw [h, expectedLength_withTrailing]
      omega

/-- **One call keeps to the budget**, unless it sets an empty trailing parameter where
its mark has no room. -/
theorem expectedLength_apply_le_iff (hd : d.expectedLength ≤ d.budget) (s : Step) :
    (d.apply s).expectedLength ≤ d.budget ↔
      (s = .trailing "" → d.expectedLength + 2 ≤ d.budget) := by
  cases s with
  | middle param =>
    have hother : Step.middle param ≠ .trailing "" := by simp
    refine ⟨fun _ h => absurd h hother, fun _ => ?_⟩
    rw [apply]
    split
    · rename_i d' h
      rw [expectedLength_addMiddle h]
      exact (addMiddle_eq_ok_iff.mp h).2.2.2.1
    · exact hd
  | trailing text =>
    rw [apply, Step.trailing.injEq]
    rcases d.setTrailing_cases text with ⟨hne, h⟩ | ⟨front, rest, htext, hroom, hempty, h⟩
    · rw [h]
      exact ⟨fun _ hnil => absurd hnil hne, fun _ => hd⟩
    · -- what is taken is empty just when there is nothing to take
      have hnil : front = [] ↔ text = "" := by
        refine ⟨hempty, fun htext' => ?_⟩
        rw [htext', String.toList_empty] at htext
        exact (List.append_eq_nil_iff.mp htext.symm).1
      rw [h, ← hnil]
      exact expectedLength_withTrailing_le_iff hroom

/-! ### Sequences of calls -/

theorem run_cons (d : Draft) (s : Step) (steps : List Step) :
    d.run (s :: steps) = (d.apply s).run steps := rfl

theorem expectedLength_le_run (d : Draft) (steps : List Step) :
    d.expectedLength ≤ (d.run steps).expectedLength := by
  induction steps generalizing d with
  | nil => exact Nat.le_refl _
  | cons s steps ih => exact (d.expectedLength_le_apply s).trans (ih (d.apply s))

/-- **A sequence of calls keeps to the budget** just when there is room for the mark
wherever it sets an empty trailing parameter. -/
theorem expectedLength_run_le_iff (hd : d.expectedLength ≤ d.budget) (steps : List Step) :
    (d.run steps).expectedLength ≤ d.budget ↔
      ∀ before after, steps = before ++ .trailing "" :: after →
        (d.run before).expectedLength + 2 ≤ d.budget := by
  induction steps generalizing d with
  | nil => exact ⟨fun _ before after h => absurd h (by simp), fun _ => hd⟩
  | cons s steps ih =>
    rw [run_cons]
    constructor
    · intro hrun before after hsteps
      -- the lines on the way are no longer than the last one
      have happly : (d.apply s).expectedLength ≤ d.budget :=
        ((d.apply s).expectedLength_le_run steps).trans hrun
      have hrest := (ih (d := d.apply s) (by simpa using happly)).mp (by simpa using hrun)
      cases before with
      | nil =>
        rw [List.nil_append, List.cons.injEq] at hsteps
        exact (expectedLength_apply_le_iff hd s).mp happly hsteps.1
      | cons s' before =>
        rw [List.cons_append, List.cons.injEq] at hsteps
        obtain ⟨rfl, hsteps⟩ := hsteps
        have hbefore := hrest before after hsteps
        rwa [budget_apply] at hbefore
    · intro hmarks
      have happly : (d.apply s).expectedLength ≤ d.budget := by
        refine (expectedLength_apply_le_iff hd s).mpr fun hs => ?_
        exact hmarks [] steps (by rw [hs, List.nil_append])
      have hrest := (ih (d := d.apply s) (by simpa using happly)).mpr
      rw [budget_apply] at hrest
      exact hrest fun before after hsteps => hmarks (s :: before) after (by rw [hsteps]; rfl)

end Draft

/-! ### Finished lines -/

/-- What is built keeps to the budget, unless the trailing parameter is empty and its
mark has no room. -/
theorem Built.within_iff {command : String} {middles : List String} {trailing : Option String}
    {carried : List (Option String)} (h : Built command middles trailing carried) :
    (∀ line ∈ carried.map (lineText command middles), line.utf8ByteSize ≤ Limits.outgoing) ↔
      (trailing = some "" → headBytes command middles + 4 ≤ Limits.outgoing) := by
  have hhead := h.head
  have hcarries := h.carries
  rw [List.forall_mem_map]
  cases trailing with
  | none =>
    rw [show carried = [none] from hcarries, List.forall_mem_singleton, utf8ByteSize_lineText_none]
    exact ⟨fun _ hnone => absurd hnone (by simp), fun _ => hhead⟩
  | some text =>
    obtain ⟨pieces, hpieces, rfl⟩ := hcarries
    rw [List.forall_mem_map, Option.some_inj]
    constructor
    · rintro hlines rfl
      have hempty := hlines "" (hpieces.single rfl ▸ List.mem_singleton_self "")
      rwa [utf8ByteSize_lineText_some, String.utf8ByteSize_empty] at hempty
    · intro hempty piece hpiece
      rw [utf8ByteSize_lineText_some]
      -- only the empty text has an empty piece, and room for a character is room for the mark
      by_cases hnil : piece = ""
      · subst hnil
        exact hempty (hpieces.empty hpiece)
      · have hfits := hpieces.fits piece hpiece
        have hpos : 0 < piece.utf8ByteSize := by
          rw [Nat.pos_iff_ne_zero, ne_eq, String.utf8ByteSize_eq_zero_iff]
          exact hnil
        rw [roomBehind, utf8ByteSize_headText] at hfits
        omega

theorem buildSplit_within_iff {command : String} {middles : List String}
    {trailing : Option String} {lines : List String}
    (h : buildSplit command middles trailing = .ok lines) :
    (∀ line ∈ lines, line.utf8ByteSize ≤ Limits.outgoing) ↔
      (trailing = some "" → headBytes command middles + 4 ≤ Limits.outgoing) := by
  obtain ⟨carried, hbuilt, rfl⟩ := buildSplit_eq_ok h
  exact hbuilt.within_iff

theorem buildSingle_within_iff {command : String} {middles : List String}
    {trailing : Option String} {line : String}
    (h : buildSingle command middles trailing = .ok line) :
    line.utf8ByteSize ≤ Limits.outgoing ↔
      (trailing = some "" → headBytes command middles + 4 ≤ Limits.outgoing) := by
  obtain ⟨hbuilt, rfl⟩ := buildSingle_eq_ok h
  rw [← hbuilt.within_iff, List.map_singleton, List.forall_mem_singleton]

/-- **The byte budget of outgoing lines.**  Whatever is put behind a started line, in
any order, the line goes over its budget just when it gets an empty trailing
parameter where the mark has no room; what is measured is what is sent.  So a
finished command goes over the budget just when its trailing parameter is empty and
its head leaves no room for the mark. -/
theorem within_budget_iff (command : String) :
    (∀ budget d, Draft.start command budget = .ok d → ∀ steps,
      (d.run steps).finish.utf8ByteSize = (d.run steps).expectedLength ∧
      ((d.run steps).expectedLength ≤ budget ↔
        ∀ before after, steps = before ++ .trailing "" :: after →
          (d.run before).expectedLength + 2 ≤ budget)) ∧
    (∀ middles trailing lines, buildSplit command middles trailing = .ok lines →
      ((∀ line ∈ lines, line.utf8ByteSize ≤ Limits.outgoing) ↔
        (trailing = some "" → headBytes command middles + 4 ≤ Limits.outgoing))) ∧
    ∀ middles trailing line, buildSingle command middles trailing = .ok line →
      (line.utf8ByteSize ≤ Limits.outgoing ↔
        (trailing = some "" → headBytes command middles + 4 ≤ Limits.outgoing)) := by
  refine ⟨fun budget d hd steps => ⟨(d.run steps).utf8ByteSize_finish, ?_⟩,
    fun middles trailing lines => buildSplit_within_iff,
    fun middles trailing line => buildSingle_within_iff⟩
  obtain ⟨rfl, -, hfits⟩ := Draft.expectedLength_start hd
  exact Draft.expectedLength_run_le_iff hfits steps

theorem within_budget_away :
    ∃ d, Draft.start "AWAY" 12 = .ok d ∧
      (d.run [.middle "#c", .trailing "hello"]).finish = "AWAY #c :h\r\n" ∧
      (d.run [.middle "#c", .trailing "hello"]).expectedLength ≤ 12 ∧
      buildSplit "AWAY" [] (some "") = .ok ["AWAY :\r\n"] ∧
      ∀ line ∈ ["AWAY :\r\n"], line.utf8ByteSize ≤ Limits.outgoing := by
  have hstart : Draft.start "AWAY" 12 = .ok ⟨"AWAY", 12, false⟩ := by decide +kernel
  have hlines : buildSplit "AWAY" [] (some "") = .ok ["AWAY :\r\n"] := by decide +kernel
  obtain ⟨hdraft, hsplit, -⟩ := within_budget_iff "AWAY"
  refine ⟨_, hstart, by decide +kernel, ?_, hlines, ?_⟩
  · refine (hdraft 12 _ hstart _).2.mpr fun before after h => ?_
    simp [List.cons_eq_append_iff] at h
  · exact (hsplit [] (some "") _ hlines).mpr fun _ => by decide

/-- A line that is full still gets the mark of an empty trailing parameter. -/
theorem overrun_of_empty_trailing :
    ∃ d, Draft.start "A" 3 = .ok d ∧ ¬ (d.run [.trailing ""]).expectedLength ≤ 3 := by
  refine ⟨⟨"A", 3, false⟩, ?_, ?_⟩
  · decide +kernel
  · decide +kernel

end Irc.Outgoing
