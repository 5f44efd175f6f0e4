/-
Scanning texts: runs of a class, words between separators, and the first
separator.

A scanner takes the longest run of characters of a class from the front of a
text.  It stops at the end of the text or at the first character outside of the
class, which `Stops` says of what is left over:

* **`takeWhile_append`**, **`dropWhile_append`** — a run and what stops it are
  told apart again;
* **`words_append_sep`** — words split at every separator;
* **`splitOnce_eq_some_iff`** — the first separator is the one with none in front;
* **`lineBreaker?_number`**, **`utf8ByteSize_number`** — a number in decimal is short and breaks
  no line;
* **`word?_number`** — and is read back.
-/
import Irc.Text.Ascii
import Irc.Text.Bytes
import Irc.Text.Decimal
import Mathlib

namespace Irc.Text

variable {p : Char → Bool}

/-! ### Runs of a class -/

/-- The text is empty or begins outside of the class. -/
def Stops (p : Char → Bool) (rest : List Char) : Prop := ∀ c ∈ rest.head?, p c = false

theorem Stops.nil : Stops p [] := fun c hc => absurd hc (by simp)

theorem Stops.cons {c : Char} (hc : p c = false) (rest : List Char) : Stops p (c :: rest) := by
  intro d hd
  rw [List.head?_cons, Option.mem_some_iff] at hd
  exact hd ▸ hc

theorem Stops.dropWhile (cs : List Char) : Stops p (cs.dropWhile p) := by
  intro c hc
  have hnot := List.head?_dropWhile_not p cs
  rw [Option.mem_def.mp hc] at hnot
  exact hnot

theorem takeWhile_of_stops {rest : List Char} (h : Stops p rest) : rest.takeWhile p = [] := by
  cases rest with
  | nil => rfl
  | cons c rest => rw [List.takeWhile_cons_of_neg (Bool.eq_false_iff.mp (h c rfl))]

theorem dropWhile_of_stops {rest : List Char} (h : Stops p rest) : rest.dropWhile p = rest := by
  cases rest with
  | nil => rfl
  | cons c rest => rw [List.dropWhile_cons_of_neg (Bool.eq_false_iff.mp (h c rfl))]

/-- A run is taken off in front of what stops it. -/
theorem takeWhile_append {run rest : List Char} (hrun : ∀ c ∈ run, p c = true)
    (hrest : Stops p rest) : (run ++ rest).takeWhile p = run := by
  rw [List.takeWhile_append_of_pos hrun, takeWhile_of_stops hrest, List.append_nil]

/-- What stops a run is left over. -/
theorem dropWhile_append {run rest : List Char} (hrun : ∀ c ∈ run, p c = true)
    (hrest : Stops p rest) : (run ++ rest).dropWhile p = rest := by
  rw [List.dropWhile_append_of_pos hrun, dropWhile_of_stops hrest]

theorem mem_takeWhile {cs : List Char} {c : Char} (h : c ∈ cs.takeWhile p) : p c = true :=
  List.all_eq_true.mp (List.all_takeWhile (l := cs)) c h

/-- Dropping a class from the end of a text. -/
theorem trimEnd_eq_rdropWhile (cs : List Char) : trimEnd p cs = cs.rdropWhile p := rfl

/-! ### Words -/

@[simp] theorem words_nil : words p [] = [] := by
  rw [words, List.splitOnP_nil]
  rfl

/-- Words split at every separator. -/
theorem words_append_sep {sep : Char} (hsep : p sep = true) (as bs : List Char) :
    words p (as ++ sep :: bs) = words p as ++ words p bs := by
  rw [words, List.splitOnP_append_cons as bs hsep, List.filter_append]
  rfl

/-- A separator in front belongs to no word. -/
theorem words_cons_sep {sep : Char} (hsep : p sep = true) (bs : List Char) :
    words p (sep :: bs) = words p bs := by
  have happend := words_append_sep hsep [] bs
  rwa [words_nil, List.nil_append, List.nil_append] at happend

/-- A text without a separator is one word. -/
theorem words_singleton {as : List Char} (hne : as ≠ []) (has : ∀ c ∈ as, p c = false) :
    words p as = [as] := by
  rw [words, List.splitOnP_eq_singleton has]
  simp [hne]

/-- A word at the front ends where the separators begin. -/
theorem words_append_stops {as rest : List Char} (hne : as ≠ []) (has : ∀ c ∈ as, p c = false)
    (hrest : Stops (fun c => !p c) rest) : words p (as ++ rest) = as :: words p rest := by
  cases rest with
  | nil => rw [List.append_nil, words_singleton hne has, words_nil]
  | cons sep bs =>
    have hsep : p sep = true := by simpa using hrest sep rfl
    rw [words_append_sep hsep, words_singleton hne has, words_cons_sep hsep]
    rfl

/-- Induction over the runs between separators. -/
theorem split_induction (p : Char → Bool) {P : List Char → Prop}
    (run : ∀ as, (∀ c ∈ as, p c = false) → P as)
    (sep : ∀ as c bs, (∀ a ∈ as, p a = false) → p c = true → P bs → P (as ++ c :: bs))
    (cs : List Char) : P cs := by
  induction hn : cs.length using Nat.strongRecOn generalizing cs with
  | ind n ih =>
    -- the first run is cut off, and what follows its separator is shorter
    have hrun : ∀ c ∈ cs.takeWhile (fun c => !p c), p c = false :=
      fun c hc => by simpa using mem_takeWhile hc
    have hjoin := List.takeWhile_append_dropWhile (p := fun c => !p c) (l := cs)
    have hstop := Stops.dropWhile (p := fun c => !p c) cs
    cases hrest : cs.dropWhile (fun c => !p c) with
    | nil =>
      rw [hrest, List.append_nil] at hjoin
      rw [← hjoin]
      exact run _ hrun
    | cons c bs =>
      rw [hrest] at hjoin hstop
      have hc : p c = true := by simpa using hstop c rfl
      have hlen := congrArg List.length hjoin
      rw [List.length_append, List.length_cons] at hlen
      rw [← hjoin]
      exact sep _ c bs hrun hc (ih bs.length (by omega) bs rfl)

theorem words_of_run {as : List Char} (has : ∀ c ∈ as, p c = false) :
    words p as = if as = [] then [] else [as] := by
  split
  · rename_i h
    rw [h, words_nil]
  · rename_i h
    exact words_singleton h has

theorem eq_of_mem_words_run {as w : List Char} (has : ∀ c ∈ as, p c = false)
    (hw : w ∈ words p as) : w = as ∧ as ≠ [] := by
  rw [words_of_run has] at hw
  split at hw
  · exact absurd hw List.not_mem_nil
  · rename_i hne
    exact ⟨List.mem_singleton.mp hw, hne⟩

/-- A word is not empty, holds no separator, and is a part of the text. -/
theorem mem_words {cs w : List Char} (hw : w ∈ words p cs) :
    w ≠ [] ∧ (∀ c ∈ w, p c = false) ∧ ∀ c ∈ w, c ∈ cs := by
  induction cs using split_induction p with
  | run as has =>
    obtain ⟨rfl, hne⟩ := eq_of_mem_words_run has hw
    exact ⟨hne, has, fun c hc => hc⟩
  | sep as sep bs has hsep ih =>
    rw [words_append_sep hsep, List.mem_append] at hw
    rcases hw with hw | hw
    · obtain ⟨rfl, hne⟩ := eq_of_mem_words_run has hw
      exact ⟨hne, has, fun c hc => List.mem_append_left _ hc⟩
    · obtain ⟨hne, hrun, hmem⟩ := ih hw
      exact ⟨hne, hrun, fun c hc => List.mem_append_right _ (List.mem_cons_of_mem _ (hmem c hc))⟩

/-- Runs that are put together with separators come apart again, but for the empty
ones. -/
theorem words_intercalate {sep : Char} (hsep : p sep = true) {runs : List (List Char)}
    (h : ∀ run ∈ runs, ∀ c ∈ run, p c = false) :
    words p (List.intercalate [sep] runs) = runs.filter (· ≠ []) := by
  induction runs with
  | nil => exact words_nil
  | cons run runs ih =>
    have hrun := h run List.mem_cons_self
    have hruns := ih fun run hr => h run (List.mem_cons_of_mem _ hr)
    cases runs with
    | nil =>
      rw [List.intercalate_singleton, words_of_run hrun]
      by_cases hne : run = [] <;> simp [hne]
    | cons next runs =>
      rw [List.intercalate_cons_cons, List.append_assoc, List.singleton_append,
        words_append_sep hsep, hruns, words_of_run hrun]
      by_cases hne : run = [] <;> simp [hne]

theorem mem_intercalate {sep c : Char} {runs : List (List Char)}
    (h : c ∈ List.intercalate [sep] runs) : c = sep ∨ ∃ run ∈ runs, c ∈ run := by
  induction runs with
  | nil => exact absurd h List.not_mem_nil
  | cons run runs ih =>
    cases runs with
    | nil =>
      rw [List.intercalate_singleton] at h
      exact .inr ⟨run, List.mem_cons_self, h⟩
    | cons next runs =>
      rw [List.intercalate_cons_cons, List.append_assoc, List.singleton_append, List.mem_append,
        List.mem_cons] at h
      rcases h with hrun | hsep | hrest
      · exact .inr ⟨run, List.mem_cons_self, hrun⟩
      · exact .inl hsep
      · obtain hsep | ⟨other, hother, hc⟩ := ih hrest
        · exact .inl hsep
        · exact .inr ⟨other, List.mem_cons_of_mem _ hother, hc⟩

/-- The words of a text take no more bytes than the text, one byte for the
separator behind each of them included. -/
theorem byteLength_words_le (sep : Char → Bool) (cs : List Char) :
    ((words sep cs).map (byteLength · + 1)).sum ≤ byteLength cs + 1 := by
  induction cs using split_induction sep with
  | run as has =>
    rw [words_of_run has]
    split <;> simp
  | sep as c bs has hc ih =>
    have hpos : 1 ≤ c.utf8Size := c.utf8Size_pos
    rw [words_append_sep hc, List.map_append, List.sum_append, byteLength_append,
      byteLength_cons, words_of_run has]
    split
    · simp only [List.map_nil, List.sum_nil]
      omega
    · simp only [List.map_cons, List.map_nil, List.sum_cons, List.sum_nil]
      omega

theorem byteLength_replicate (n : Nat) (c : Char) :
    byteLength (List.replicate n c) = n * c.utf8Size := by
  induction n with
  | zero => exact (Nat.zero_mul _).symm
  | succ n ih => rw [List.replicate_succ, byteLength_cons, ih, Nat.succ_mul, Nat.add_comm]

theorem byteLength_map {f : Char → Char} {cs : List Char}
    (h : ∀ c ∈ cs, (f c).utf8Size = c.utf8Size) : byteLength (cs.map f) = byteLength cs := by
  induction cs with
  | nil => rfl
  | cons c cs ih =>
    rw [List.map_cons, byteLength_cons, byteLength_cons, h c List.mem_cons_self,
      ih fun d hd => h d (List.mem_cons_of_mem c hd)]

theorem byteLength_intercalate_le {sep : Char} (hsep : sep.utf8Size = 1)
    (runs : List (List Char)) :
    byteLength (List.intercalate [sep] runs) ≤ (runs.map (byteLength · + 1)).sum - 1 := by
  induction runs with
  | nil => exact Nat.le_refl _
  | cons run runs ih =>
    cases runs with
    | nil => simp [List.intercalate_singleton]
    | cons next runs =>
      rw [List.intercalate_cons_cons, byteLength_append, byteLength_append, byteLength_cons,
        byteLength_nil, hsep]
      rw [List.map_cons, List.sum_cons] at ih ⊢
      rw [List.map_cons, List.sum_cons]
      omega

/-! ### The first separator -/

theorem splitOnce_append {sep : Char} {front : List Char} (h : sep ∉ front) (back : List Char) :
    splitOnce sep (front ++ sep :: back) = some (front, back) := by
  induction front with
  | nil => simp [splitOnce]
  | cons c front ih =>
    have hc : c ≠ sep := fun hc => h (hc ▸ List.mem_cons_self)
    have hfront := ih fun hm => h (List.mem_cons_of_mem c hm)
    rw [List.cons_append, splitOnce, if_neg hc, hfront]
    rfl

theorem splitOnce_eq_none_iff {sep : Char} {cs : List Char} :
    splitOnce sep cs = none ↔ sep ∉ cs := by
  constructor
  · intro h hm
    obtain ⟨front, back, rfl, hfront⟩ := List.eq_append_cons_of_mem hm
    rw [splitOnce_append hfront] at h
    exact absurd h (by simp)
  · intro h
    induction cs with
    | nil => rfl
    | cons c cs ih =>
      have hc : c ≠ sep := fun hc => h (hc ▸ List.mem_cons_self)
      rw [splitOnce, if_neg hc, ih fun hm => h (List.mem_cons_of_mem c hm)]
      rfl

/-- The first separator is the one with none in front. -/
theorem splitOnce_eq_some_iff {sep : Char} {cs front back : List Char} :
    splitOnce sep cs = some (front, back) ↔ cs = front ++ sep :: back ∧ sep ∉ front := by
  constructor
  · intro h
    have hm : sep ∈ cs := by
      by_contra hm
      rw [splitOnce_eq_none_iff.mpr hm] at h
      exact absurd h (by simp)
    obtain ⟨front', back', rfl, hfront⟩ := List.eq_append_cons_of_mem hm
    rw [splitOnce_append hfront, Option.some_inj, Prod.mk.injEq] at h
    obtain ⟨rfl, rfl⟩ := h
    exact ⟨rfl, hfront⟩
  · rintro ⟨rfl, hfront⟩
    exact splitOnce_append hfront back

/-! ### Numbers -/

theorem isDigit_of_mem_number {n : Nat} {c : Char} (hc : c ∈ (toString n).toList) :
    c.isDigit = true := by
  rw [Nat.toString_eq_ofList_toDigits, String.toList_ofList] at hc
  exact Nat.isDigit_of_mem_toDigits (by decide) (by decide) hc

theorem number_ne_empty (n : Nat) : toString n ≠ "" := by
  rw [Nat.toString_eq_ofList_toDigits]
  intro hempty
  have hnil := congrArg String.toList hempty
  rw [String.toList_ofList] at hnil
  exact Nat.toDigits_ne_nil hnil

/-- A number breaks no line. -/
theorem lineBreaker?_number (n : Nat) : lineBreaker? (toString n) = none := by
  rw [lineBreaker?, List.find?_eq_none]
  intro c hc hbreaker
  have hdigit := isDigit_of_mem_number hc
  simp only [isLineBreaker, Bool.or_eq_true, decide_eq_true_eq] at hbreaker
  rcases hbreaker with (rfl | rfl) | rfl <;> exact absurd hdigit (by decide)

/-- A number of 64 bits has at most twenty digits. -/
theorem utf8ByteSize_number {n : Nat} (hn : n < UInt64.size) :
    (toString n).utf8ByteSize ≤ 20 := by
  have hsize : ∀ cs : List Char, (∀ c ∈ cs, c.isDigit = true) → byteLength cs = cs.length := by
    intro cs
    induction cs with
    | nil => exact fun _ => rfl
    | cons c cs ih =>
      intro hcs
      rw [List.forall_mem_cons] at hcs
      have hone : c.utf8Size = 1 := by
        have hdigit := hcs.1
        rw [Char.isDigit, Bool.and_eq_true, decide_eq_true_eq, decide_eq_true_eq] at hdigit
        exact Char.utf8Size_eq_one_iff.mpr (UInt32.le_trans hdigit.2 (by decide : '9'.val ≤ 127))
      rw [byteLength_cons, ih hcs.2, hone, List.length_cons, Nat.add_comm]
  have hdigits : (Nat.toDigits 10 n).length ≤ 20 :=
    Nat.toDigits_length 10 n 20 (by decide) (lt_trans hn (by decide))
  rw [← byteLength_toList, hsize _ fun c => isDigit_of_mem_number, Nat.toString_eq_ofList_toDigits,
    String.toList_ofList]
  exact hdigits

/-- A number of 64 bits is read back. -/
theorem word?_number {n : Nat} (hn : n < UInt64.size) : word? (toString n) = some n := by
  have hdigits : (toString n).toList = Nat.toDigits 10 n := by
    rw [Nat.toString_eq_ofList_toDigits, String.toList_ofList]
  have hall : (Nat.toDigits 10 n).all Char.isDigit = true :=
    List.all_eq_true.mpr fun c hc => isDigit_of_mem_number (hdigits ▸ hc)
  have hvalue : Nat.ofDigitChars 10 (Nat.toDigits 10 n) 0 = n := Nat.ofDigitChars_ten_toDigits
  have hread : Nat.toDigits 10 n ≠ [] && (Nat.toDigits 10 n).all Char.isDigit &&
      Nat.ofDigitChars 10 (Nat.toDigits 10 n) 0 < wordBound := by
    rw [hall, hvalue]
    simp [Nat.toDigits_ne_nil, wordBound, hn]
  rw [word?, hdigits]
  split
  · -- no digit is taken for a sign
    rename_i rest hsign
    rw [hsign, List.all_cons] at hall
    exact absurd hall (by simp [show '+'.isDigit = false from by decide])
  · rw [if_pos hread, hvalue]

end Irc.Text
