/-
What the checks on a request leave for the command.

`Yields P x` says that a command that comes out of `x` has the property `P`.  For
each check there is a rule that takes it off the front of `x`, with what it found
out as a hypothesis.  So a property of the commands of all requests is one simple
goal for each request.

* **`checkMiddle_eq_ok_iff`**, **`checkMiddles_eq_ok_iff`**, **`checkText_eq_ok_iff`** —
  the checks give back their argument;
* **`yields_checkMiddle_bind`** and its like — the rules;
* **`sound_of_command`** — the commands of requests have words, parameters and texts
  that may stand in a line;
* **`length_middles_iff_isOverfull`** — which requests have too many parameters.
-/
import Irc.Outgoing.Request
import Irc.Proofs.RoundTrip
import Irc.Proofs.Splitting

namespace Irc.Outgoing

open Text

/-! ### The checks -/

theorem checkPresent_eq_ok_iff {value what : String} {u : Unit} :
    checkPresent value what = .ok u ↔ value ≠ "" := by
  rw [checkPresent]
  split_ifs with h <;> simp [h]

theorem checkMiddle_eq_ok_iff {value what param : String} :
    checkMiddle value what = .ok param ↔ Placeable value ∧ param = value := by
  rw [checkMiddle, Placeable]
  by_cases hempty : value = ""
  · simp [hempty, isMiddle]
  · cases hmiddle : isMiddle value with
    | false => simp [hempty]
    | true => cases lineBreaker? value <;> simp [hempty, eq_comm]

theorem checkMiddles_eq_ok_iff {what : String} {values params : List String} :
    checkMiddles what values = .ok params ↔
      (∀ value ∈ values, Placeable value) ∧ params = values := by
  induction values generalizing params with
  | nil => simp [checkMiddles, eq_comm]
  | cons value rest ih =>
    rw [checkMiddles, List.forall_mem_cons]
    constructor
    · intro h
      cases hvalue : checkMiddle value what with
      | error e =>
        rw [hvalue] at h
        exact absurd h (by simp [bind, Except.bind])
      | ok first =>
        cases hrest : checkMiddles what rest with
        | error e =>
          rw [hvalue, hrest] at h
          exact absurd h (by simp [bind, Except.bind])
        | ok others =>
          rw [hvalue, hrest] at h
          obtain ⟨hplace, rfl⟩ := checkMiddle_eq_ok_iff.mp hvalue
          obtain ⟨hplaces, rfl⟩ := ih.mp hrest
          exact ⟨⟨hplace, hplaces⟩, (Except.ok.inj h).symm⟩
    · rintro ⟨⟨hplace, hplaces⟩, rfl⟩
      rw [checkMiddle_eq_ok_iff.mpr ⟨hplace, rfl⟩, ih.mpr ⟨hplaces, rfl⟩]
      rfl

theorem checkText_eq_ok_iff {value text : String} :
    checkText value = .ok text ↔ lineBreaker? value = none ∧ text = value := by
  rw [checkText]
  cases lineBreaker? value <;> simp [eq_comm]

theorem checkText?_eq_ok_iff {value text : Option String} :
    checkText? value = .ok text ↔ (∀ t, value = some t → lineBreaker? t = none) ∧ text = value := by
  cases value with
  | none => simp [checkText?, eq_comm]
  | some t =>
    cases h : lineBreaker? t <;>
      simp [checkText?, checkText, h, bind, Except.bind, eq_comm]

/-! ### Taking the checks off -/

/-- Whatever command comes out has the property. -/
def Yields (P : Command → Prop) (x : Except RequestError Command) : Prop := ∀ c, x = .ok c → P c

variable {P : Command → Prop}

@[simp] theorem yields_ok {c : Command} : Yields P (.ok c) ↔ P c := by
  simp [Yields]

@[simp] theorem yields_error {e : RequestError} : Yields P (.error e) := by
  simp [Yields]

theorem yields_bind {α : Type} {x : Except RequestError α}
    {f : α → Except RequestError Command} :
    Yields P (x >>= f) ↔ ∀ a, x = .ok a → Yields P (f a) := by
  cases x <;> simp [Yields, bind, Except.bind]

@[simp] theorem yields_error_bind {α : Type} {e : RequestError}
    {f : α → Except RequestError Command} : Yields P (.error e >>= f) := by
  simp [yields_bind]

@[simp] theorem yields_ite {p : Prop} [Decidable p] {x y : Except RequestError Command} :
    Yields P (if p then x else y) ↔ (p → Yields P x) ∧ (¬ p → Yields P y) := by
  by_cases h : p <;> simp [h]

@[simp] theorem yields_checkPresent_bind {value what : String}
    {f : Unit → Except RequestError Command} :
    Yields P (checkPresent value what >>= f) ↔ (value ≠ "" → Yields P (f ())) := by
  rw [yields_bind]
  exact ⟨fun h hne => h () (checkPresent_eq_ok_iff.mpr hne),
    fun h _ hok => h (checkPresent_eq_ok_iff.mp hok)⟩

@[simp] theorem yields_checkMiddle_bind {value what : String}
    {f : String → Except RequestError Command} :
    Yields P (checkMiddle value what >>= f) ↔ (Placeable value → Yields P (f value)) := by
  simp [yields_bind, checkMiddle_eq_ok_iff]

@[simp] theorem yields_checkMiddles_bind {what : String} {values : List String}
    {f : List String → Except RequestError Command} :
    Yields P (checkMiddles what values >>= f) ↔
      ((∀ value ∈ values, Placeable value) → Yields P (f values)) := by
  simp [yields_bind, checkMiddles_eq_ok_iff]

@[simp] theorem yields_checkText_bind {value : String}
    {f : String → Except RequestError Command} :
    Yields P (checkText value >>= f) ↔ (lineBreaker? value = none → Yields P (f value)) := by
  simp [yields_bind, checkText_eq_ok_iff]

@[simp] theorem yields_checkText?_bind {value : Option String}
    {f : Option String → Except RequestError Command} :
    Yields P (checkText? value >>= f) ↔
      ((∀ text, value = some text → lineBreaker? text = none) → Yields P (f value)) := by
  simp [yields_bind, checkText?_eq_ok_iff]

/-! ### The commands of requests -/

/-- A command all of whose parts may stand in a line. -/
structure Command.Sound (c : Command) : Prop where
  word : isCommandWord c.verb = true
  upper : upper c.verb = c.verb
  placeable : ∀ param ∈ c.middles, Placeable param
  unbroken : ∀ text, c.trailing = some text → lineBreaker? text = none

theorem sound_mk_iff {verb : String} {middles : List String} {trailing : Option String}
    {splittable : Bool} : (Command.mk verb middles trailing splittable).Sound ↔
      isCommandWord verb = true ∧ upper verb = verb ∧ (∀ param ∈ middles, Placeable param) ∧
        ∀ text, trailing = some text → lineBreaker? text = none :=
  ⟨fun h => ⟨h.word, h.upper, h.placeable, h.unbroken⟩, fun ⟨hw, hu, hp, ht⟩ => ⟨hw, hu, hp, ht⟩⟩

theorem isCommandWord_iff {word : String} :
    isCommandWord word = true ↔ word.toList ≠ [] ∧ ∀ c ∈ word.toList, c.isAlphanum = true := by
  simp only [isCommandWord, Bool.and_eq_true, decide_eq_true_eq, List.all_eq_true, ne_eq,
    String.toList_eq_nil_iff]

/-- A command word in upper case is a command word, and stays. -/
theorem upper_word {verb : String} (h : isCommandWord verb = true) :
    isCommandWord (upper verb) = true ∧ upper (upper verb) = upper verb := by
  obtain ⟨hne, hchars⟩ := isCommandWord_iff.mp h
  constructor
  · rw [isCommandWord_iff, upper, String.toList_ofList, List.forall_mem_map, ne_eq,
      List.map_eq_nil_iff]
    exact ⟨hne, fun c hc => (Message.toUpper_of_isAlphanum (hchars c hc)).1⟩
  · rw [upper, upper, String.toList_ofList, List.map_map]
    exact congrArg String.ofList (List.map_congr_left fun c hc =>
      (Message.toUpper_of_isAlphanum (hchars c hc)).2.1)

/-- A request with more middle parameters than a message can have. -/
def Request.isOverfull : Request → Bool
  | raw _ middles _ => Limits.middles < middles.length
  | mode _ modes => Limits.middles ≤ modes.length
  | _ => false

/-- The parameters that requests bring of their own. -/
theorem placeable_of_mem_fixed :
    ∀ param ∈ ["0", "*", "REQ", "LS", "LIST", "END"], Placeable param := by
  simp [Placeable, isMiddle, lineBreaker?, isLineBreaker]

variable {r : Request} {c : Command}

/-- **Nothing breaks out of a request**: its command has a command word, middle
parameters and a text that may stand in a line. -/
theorem sound_of_command (h : r.command = .ok c) : c.Sound := by
  have hfixed := placeable_of_mem_fixed
  simp only [List.forall_mem_cons] at hfixed
  revert c
  show Yields Command.Sound r.command
  cases r with
  | raw verb middles trailing =>
    simp only [Request.command, Request.single, yields_checkPresent_bind, yields_ite,
      yields_error_bind, yields_checkMiddles_bind, yields_checkText?_bind, yields_ok,
      sound_mk_iff]
    intro hne
    refine ⟨fun _ => trivial, fun hword hmiddles htrailing => ?_⟩
    rw [Bool.not_eq_true', Bool.not_eq_false] at hword
    exact ⟨(upper_word hword).1, (upper_word hword).2, hmiddles, htrailing⟩
  | join channel key =>
    cases key <;>
      simp +contextual [Request.command, Request.single, sound_mk_iff, isCommandWord, upper]
  | _ =>
    simp +contextual [Request.command, Request.single, Request.talk, Request.ctcp,
      sound_mk_iff, isCommandWord, upper, hfixed]

/-- **The requests with too many middle parameters.** -/
theorem length_middles_iff_isOverfull (h : r.command = .ok c) :
    Limits.middles < c.middles.length ↔ r.isOverfull = true := by
  revert c
  show Yields (fun c => Limits.middles < c.middles.length ↔ r.isOverfull = true) r.command
  cases r with
  | join channel key =>
    cases key <;> simp [Request.command, Request.single, Request.isOverfull, Limits.middles]
  | names channel =>
    cases channel <;> simp [Request.command, Request.single, Request.isOverfull, Limits.middles]
  | list channel =>
    cases channel <;> simp [Request.command, Request.single, Request.isOverfull, Limits.middles]
  | capLs version =>
    cases version <;> simp [Request.command, Request.single, Request.isOverfull, Limits.middles]
  | raw verb middles trailing =>
    simp [Request.command, Request.single, Request.isOverfull]
  | mode target modes =>
    simp [Request.command, Request.single, Request.isOverfull]
  | _ =>
    simp [Request.command, Request.single, Request.talk, Request.ctcp, Request.isOverfull,
      Limits.middles]

end Irc.Outgoing
