/-
Calls on a line under construction.

* **`start_eq_ok_iff`** — when a line is started;
* **`addMiddle_eq_ok_iff`** — when a middle parameter is taken;
* **`setTrailing_cases`** — what becomes of a trailing parameter;
* **`expectedLength_withTrailing_le_iff`** — when it keeps to the budget.
-/
import Irc.Outgoing.Lines
import Irc.Proofs.Text

namespace Irc.Outgoing.Draft

open Text

variable {d d' : Draft}

/-- A started line is the command word alone, and fits. -/
theorem start_eq_ok_iff {command : String} {budget : Nat} :
    start command budget = .ok d ↔
      isCommandWord command = true ∧ command.utf8ByteSize + 2 ≤ budget ∧
        d = ⟨command, budget, false⟩ := by
  rw [start]
  constructor
  · intro h
    split_ifs at h with hok
    simp only [Bool.and_eq_true, decide_eq_true_eq] at hok
    rw [Except.ok.injEq] at h
    exact ⟨hok.1, hok.2, h.symm⟩
  · rintro ⟨hword, hfits, rfl⟩
    rw [if_pos (by simp [hword, hfits])]

theorem expectedLength_start {command : String} {budget : Nat} (h : start command budget = .ok d) :
    d.budget = budget ∧ d.expectedLength = command.utf8ByteSize + 2 ∧
      d.expectedLength ≤ budget := by
  obtain ⟨-, hfits, rfl⟩ := start_eq_ok_iff.mp h
  exact ⟨rfl, rfl, hfits⟩

/-- When a middle parameter is taken. -/
theorem addMiddle_eq_ok_iff {param : String} :
    d.addMiddle param = .ok d' ↔
      isMiddle param = true ∧ lineBreaker? param = none ∧ d.hasTrailing = false ∧
        d.expectedLength + 1 + param.utf8ByteSize ≤ d.budget ∧
        d' = { d with text := d.text ++ " " ++ param } := by
  rw [addMiddle]
  constructor
  · intro h
    split at h
    · exact absurd h (by simp)
    rename_i hmiddle
    split at h
    · exact absurd h (by simp)
    rename_i hbreaker
    split at h
    · exact absurd h (by simp)
    rename_i hfull
    simp only [Bool.or_eq_true, decide_eq_true_eq, not_or, Nat.not_lt] at hfull
    rw [Except.ok.injEq] at h
    exact ⟨by simpa using hmiddle, hbreaker, by simpa using hfull.1, hfull.2, h.symm⟩
  · rintro ⟨hmiddle, hbreaker, htrailing, hfits, rfl⟩
    rw [if_neg (by simp [hmiddle]), hbreaker]
    simp only
    rw [if_neg (by simp [htrailing, hfits])]

theorem expectedLength_addMiddle {param : String} (h : d.addMiddle param = .ok d') :
    d'.expectedLength = d.expectedLength + 1 + param.utf8ByteSize := by
  obtain ⟨-, -, -, -, rfl⟩ := addMiddle_eq_ok_iff.mp h
  have hspace : (" " : String).utf8ByteSize = 1 := by decide
  rw [expectedLength, expectedLength, String.utf8ByteSize_append, String.utf8ByteSize_append,
    hspace]
  omega

theorem expectedLength_withTrailing (d : Draft) (text : List Char) :
    (d.withTrailing text).expectedLength = d.expectedLength + 2 + byteLength text := by
  have hmark : (" :" : String).utf8ByteSize = 2 := by decide
  rw [withTrailing, expectedLength, expectedLength, String.utf8ByteSize_append,
    String.utf8ByteSize_append, hmark, utf8ByteSize_ofList]
  omega

/-- What becomes of a trailing parameter: nothing of it is taken though there is some,
or as much of it as there is room for. -/
theorem setTrailing_cases (d : Draft) (text : String) :
    (text ≠ "" ∧ d.setTrailing text = (d, some text)) ∨
      ∃ front rest, text.toList = front ++ rest ∧ byteLength front ≤ d.trailingRoom ∧
        (front = [] → text = "") ∧
        d.setTrailing text =
          (d.withTrailing front, if rest = [] then none else some (String.ofList rest)) := by
  by_cases hfront : (cut d.trailingRoom text.toList).1 = [] ∧ text ≠ ""
  · refine .inl ⟨hfront.2, ?_⟩
    simp only [setTrailing]
    rw [if_pos (by simp [hfront.1, hfront.2])]
  · refine .inr ⟨_, _, (cut_append d.trailingRoom text.toList).symm,
      byteLength_cut_le _ _, fun hnil => ?_, ?_⟩
    · by_contra hne
      exact hfront ⟨hnil, hne⟩
    · simp only [setTrailing]
      rw [if_neg (by simpa using hfront)]

/-- A text that is not empty and for which there is room keeps a line to its budget;
an empty one needs room for its mark. -/
theorem expectedLength_withTrailing_le_iff {text : List Char}
    (htext : byteLength text ≤ d.trailingRoom) :
    (d.withTrailing text).expectedLength ≤ d.budget ↔
      (text = [] → d.expectedLength + 2 ≤ d.budget) := by
  rw [expectedLength_withTrailing]
  cases text with
  | nil => simp
  | cons c cs =>
    -- room for a character is room behind the mark, which a full line does not have
    have hpos : 1 ≤ c.utf8Size := c.utf8Size_pos
    rw [trailingRoom, byteLength_cons] at htext
    rw [byteLength_cons]
    exact ⟨fun _ hnil => absurd hnil (by simp), fun _ => by omega⟩

theorem utf8ByteSize_finish (d : Draft) : d.finish.utf8ByteSize = d.expectedLength := by
  have hend : ("\r\n" : String).utf8ByteSize = 2 := by decide
  rw [finish, String.utf8ByteSize_append, hend, expectedLength]

theorem addMiddles_cons {param : String} {rest : List String} :
    d.addMiddles (param :: rest) = .ok d' ↔
      ∃ next, d.addMiddle param = .ok next ∧ next.addMiddles rest = .ok d' := by
  rw [addMiddles]
  cases d.addMiddle param with
  | error e => simp
  | ok next => simp

end Irc.Outgoing.Draft
