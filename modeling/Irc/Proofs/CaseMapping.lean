/-
Names up to case.

The capitals of names are the letters up to `Z`, the brackets and the backslash right behind them,
and the tilde.  Folding puts the lower case in place of a capital and is done: a lower case is no
capital.  Both take one byte, so a name keeps its places when it is folded, and names of different
byte length never become one.

* **`fold_eq_iff`** — what becomes of a character;
* **`fold_eq_fold_iff`** — which characters become the same;
* **`standsAt_lower_iff`** — every character keeps its place;
* **`same_iff_alike`** — which names are the same up to case;
* **`same_kernel`** — names are compared by their lower cases;
* **`Engine.nickname_handleMessage_nick`** — which is how a client knows its own nickname.
-/
import Irc.Proofs.Responses
import Irc.Proofs.Text

namespace Irc.CaseMapping

open Text

variable {a b name : String} {c d x : Char} {index offset : Nat}

/-! ### Capitals -/

/-- The capitals of names.  The brackets and the backslash come right behind the letters. -/
def IsCapital (c : Char) : Prop := ('A' ≤ c ∧ c ≤ ']') ∨ c = '~'

/-- `d` is the lower case of the capital `c`: it comes 32 places behind a letter, a bracket or the
backslash, and 32 places in front of the tilde. -/
def Lowers (c d : Char) : Prop :=
  ('A' ≤ c ∧ c ≤ ']' ∧ d.toNat = c.toNat + 32) ∨ (c = '~' ∧ d = '^')

/-- The characters differ in nothing but case. -/
def Alike (c d : Char) : Prop := c = d ∨ Lowers c d ∨ Lowers d c

theorem isCapital_iff_toNat :
    IsCapital c ↔ (65 ≤ c.toNat ∧ c.toNat ≤ 93) ∨ c.toNat = 126 :=
  or_congr Iff.rfl Char.toNat_inj.symm

theorem lowers_iff_toNat :
    Lowers c d ↔ (65 ≤ c.toNat ∧ c.toNat ≤ 93 ∧ d.toNat = c.toNat + 32) ∨
      (c.toNat = 126 ∧ d.toNat = 94) :=
  or_congr Iff.rfl (and_congr Char.toNat_inj.symm Char.toNat_inj.symm)

theorem Lowers.isCapital (h : Lowers c d) : IsCapital c := by
  rcases h with ⟨hlo, hhi, -⟩ | ⟨htilde, -⟩
  · exact .inl ⟨hlo, hhi⟩
  · exact .inr htilde

/-- A lower case is no capital. -/
theorem Lowers.not_isCapital (h : Lowers c d) : ¬ IsCapital d := by
  rw [isCapital_iff_toNat]
  rw [lowers_iff_toNat] at h
  omega

/-- A capital has one lower case. -/
theorem Lowers.unique (h : Lowers c d) (hx : Lowers c x) : d = x := by
  rw [← Char.toNat_inj]
  rw [lowers_iff_toNat] at h hx
  omega

/-- Different capitals have different lower cases. -/
theorem Lowers.injective (h : Lowers c x) (hd : Lowers d x) : c = d := by
  rw [← Char.toNat_inj]
  rw [lowers_iff_toNat] at h hd
  omega

/-- A capital and its lower case take one byte each. -/
theorem Lowers.utf8Size_eq (h : Lowers c d) : d.utf8Size = c.utf8Size := by
  rw [lowers_iff_toNat] at h
  have hone : ∀ {y : Char}, y.toNat ≤ 127 → y.utf8Size = 1 := Char.utf8Size_eq_one_iff.mpr
  rw [hone (show c.toNat ≤ 127 by omega), hone (show d.toNat ≤ 127 by omega)]

/-! ### Folding -/

/-- The capitals in the order in which folding goes through them. -/
theorem isCapital_iff_fold :
    IsCapital c ↔ ('A' ≤ c ∧ c ≤ 'Z') ∨ c = '[' ∨ c = ']' ∨ c = '\\' ∨ c = '~' := by
  have hplaces : (('A' ≤ c ∧ c ≤ 'Z') ∨ c = '[' ∨ c = ']' ∨ c = '\\' ∨ c = '~') ↔
      (65 ≤ c.toNat ∧ c.toNat ≤ 90) ∨ c.toNat = 91 ∨ c.toNat = 93 ∨ c.toNat = 92 ∨
        c.toNat = 126 :=
    or_congr Iff.rfl <| or_congr Char.toNat_inj.symm <| or_congr Char.toNat_inj.symm <|
      or_congr Char.toNat_inj.symm Char.toNat_inj.symm
  rw [isCapital_iff_toNat, hplaces]
  omega

theorem fold_of_not_isCapital (h : ¬ IsCapital c) : fold c = c := by
  rw [isCapital_iff_fold, not_or, not_or, not_or, not_or] at h
  obtain ⟨hletter, hopen, hclose, hbackslash, htilde⟩ := h
  rw [fold, if_neg, if_neg hopen, if_neg hclose, if_neg hbackslash, if_neg htilde]
  rw [Bool.and_eq_true, decide_eq_true_eq, decide_eq_true_eq]
  exact hletter

theorem fold_of_letter (hlo : 'A' ≤ c) (hhi : c ≤ 'Z') : fold c = c.toLower := by
  rw [fold, if_pos]
  rw [Bool.and_eq_true, decide_eq_true_eq, decide_eq_true_eq]
  exact ⟨hlo, hhi⟩

theorem toNat_toLower_of_letter (hlo : 'A' ≤ c) (hhi : c ≤ 'Z') :
    c.toLower.toNat = c.toNat + 32 := by
  have hupper : c.isUpper = true := by
    rw [Char.isUpper, decide_eq_true_eq]
    exact ⟨hlo, hhi⟩
  have hplace : c.toNat ≤ 90 := hhi
  have hvalid : (c.toNat + 32).isValidChar := Or.inl (by omega)
  rw [Char.toLower_eq_of_isUpper hupper, Char.toNat_ofNat, if_pos hvalid]

/-- Folding puts the lower case in place of a capital. -/
theorem lowers_fold (h : IsCapital c) : Lowers c (fold c) := by
  rcases isCapital_iff_fold.mp h with ⟨hlo, hhi⟩ | rfl | rfl | rfl | rfl
  · rw [fold_of_letter hlo hhi]
    exact .inl ⟨hlo, Char.le_trans hhi (by decide), toNat_toLower_of_letter hlo hhi⟩
  · exact .inl ⟨by decide, by decide, rfl⟩
  · exact .inl ⟨by decide, by decide, rfl⟩
  · exact .inl ⟨by decide, by decide, rfl⟩
  · exact .inr ⟨rfl, rfl⟩

/-- **What becomes of a character**: a capital becomes its lower case, and any other stays. -/
theorem fold_eq_iff : fold c = d ↔ Lowers c d ∨ (¬ IsCapital c ∧ c = d) := by
  by_cases hcapital : IsCapital c
  · have hfold := lowers_fold hcapital
    constructor
    · rintro rfl
      exact .inl hfold
    · rintro (hlowers | ⟨hnot, -⟩)
      · exact hfold.unique hlowers
      · exact absurd hcapital hnot
  · rw [fold_of_not_isCapital hcapital]
    constructor
    · exact fun heq => .inr ⟨hcapital, heq⟩
    · rintro (hlowers | ⟨-, heq⟩)
      · exact absurd hlowers.isCapital hcapital
      · exact heq

theorem not_isCapital_fold (c : Char) : ¬ IsCapital (fold c) := by
  rcases fold_eq_iff.mp (rfl : fold c = fold c) with hlowers | ⟨hnot, heq⟩
  · exact hlowers.not_isCapital
  · rwa [← heq]

theorem fold_fold (c : Char) : fold (fold c) = fold c :=
  fold_of_not_isCapital (not_isCapital_fold c)

theorem utf8Size_fold (c : Char) : (fold c).utf8Size = c.utf8Size := by
  rcases fold_eq_iff.mp (rfl : fold c = fold c) with hlowers | ⟨-, heq⟩
  · exact hlowers.utf8Size_eq
  · rw [← heq]

theorem Lowers.fold_eq_fold (h : Lowers c d) : fold c = fold d := by
  rw [fold_eq_iff.mpr (.inl h), fold_of_not_isCapital h.not_isCapital]

/-- Folding makes no characters the same but those that differ in nothing but case. -/
theorem fold_eq_fold_iff : fold c = fold d ↔ Alike c d := by
  constructor
  · intro hfold
    -- whether one of them, both or none is a capital tells in which way they are alike
    rcases fold_eq_iff.mp hfold with hc | ⟨-, hc⟩
    · rcases fold_eq_iff.mp (rfl : fold d = fold d) with hd | ⟨-, hd⟩
      · exact .inl (hc.injective hd)
      · rw [← hd] at hc
        exact .inr (.inl hc)
    · rcases fold_eq_iff.mp hc.symm with hd | ⟨-, hd⟩
      · exact .inr (.inr hd)
      · exact .inl hd.symm
  · rintro (rfl | hlowers | hlowers)
    · rfl
    · exact hlowers.fold_eq_fold
    · exact hlowers.fold_eq_fold.symm

/-! ### The lower case of a name -/

theorem toList_lower (name : String) : (lower name).toList = name.toList.map fold :=
  String.toList_ofList

theorem lower_eq_lower_iff : lower a = lower b ↔ a.toList.map fold = b.toList.map fold := by
  rw [← String.toList_inj, toList_lower, toList_lower]

theorem lower_lower (name : String) : lower (lower name) = lower name := by
  rw [← String.toList_inj, toList_lower, toList_lower, List.map_map]
  exact List.map_congr_left fun c _ => fold_fold c

theorem byteLength_map_fold (cs : List Char) : byteLength (cs.map fold) = byteLength cs :=
  byteLength_map fun c _ => utf8Size_fold c

theorem utf8ByteSize_lower (name : String) : (lower name).utf8ByteSize = name.utf8ByteSize := by
  rw [lower, utf8ByteSize_ofList, byteLength_map_fold, byteLength_toList]

/-- The character stands in the text with `index` characters in front of it, which take `offset`
bytes. -/
def StandsAt (text : String) (index offset : Nat) (c : Char) : Prop :=
  ∃ front back, text.toList = front ++ c :: back ∧ front.length = index ∧
    byteLength front = offset

/-- **Every character keeps its place.** -/
theorem standsAt_lower_iff :
    StandsAt (lower name) index offset d ↔ ∃ c, StandsAt name index offset c ∧ fold c = d := by
  constructor
  · rintro ⟨front, back, htext, hindex, hoffset⟩
    -- what comes apart around a character has been so before it was folded
    rw [toList_lower, List.map_eq_append_iff] at htext
    obtain ⟨front, rest, hname, rfl, hrest⟩ := htext
    obtain ⟨c, back, rfl, hc, -⟩ := List.map_eq_cons_iff.mp hrest
    rw [List.length_map] at hindex
    rw [byteLength_map_fold] at hoffset
    exact ⟨c, ⟨front, back, hname, hindex, hoffset⟩, hc⟩
  · rintro ⟨c, ⟨front, back, hname, hindex, hoffset⟩, rfl⟩
    refine ⟨front.map fold, back.map fold, ?_, ?_, ?_⟩
    · rw [toList_lower, hname, List.map_append, List.map_cons]
    · rw [List.length_map, hindex]
    · rw [byteLength_map_fold, hoffset]

/-! ### Comparing names -/

theorem same_iff_lower_eq : same a b = true ↔ lower a = lower b := by
  rw [same, Bool.and_eq_true, decide_eq_true_eq, decide_eq_true_eq, ← lower_eq_lower_iff]
  constructor
  · exact And.right
  · intro hlower
    -- the byte lengths are those of the lower cases, which are one text
    have hsize : a.utf8ByteSize = b.utf8ByteSize := by
      rw [← utf8ByteSize_lower a, hlower, utf8ByteSize_lower]
    exact ⟨hsize, hlower⟩

/-- The byte lengths are never what tells two names apart. -/
theorem same_iff_fold_eq : same a b = true ↔ a.toList.map fold = b.toList.map fold :=
  same_iff_lower_eq.trans lower_eq_lower_iff

/-- **Which names are the same up to case**: those whose characters differ in nothing but case,
place by place. -/
theorem same_iff_alike : same a b = true ↔ List.Forall₂ Alike a.toList b.toList := by
  rw [same_iff_fold_eq, ← List.forall₂_eq_eq_eq, List.forall₂_map_left_iff,
    List.forall₂_map_right_iff]
  simp only [fold_eq_fold_iff]

example : same "Ann\\Away~" "aNN|away^" = true ∧ same "É" "é" = false := by decide +kernel

theorem equivalence_same : Equivalence fun a b => same a b = true where
  refl _ := same_iff_lower_eq.mpr rfl
  symm h := same_iff_lower_eq.mpr (same_iff_lower_eq.mp h).symm
  trans h h' := same_iff_lower_eq.mpr ((same_iff_lower_eq.mp h).trans (same_iff_lower_eq.mp h'))

/-- **Names are compared by their lower cases.**  Names are the same exactly if their lower cases
are; the byte lengths, which are compared first, change no answer.  So names fall into classes by
case.  A lower case is its own lower case, and has the byte length of the name and every character
in its place. -/
theorem same_kernel :
    (∀ a b, same a b = true ↔ lower a = lower b) ∧
      (∀ a b, same a b = true ↔ a.toList.map fold = b.toList.map fold) ∧
      (∀ a b, same a b = true ↔ List.Forall₂ Alike a.toList b.toList) ∧
      (Equivalence fun a b => same a b = true) ∧
      ∀ name, lower (lower name) = lower name ∧
        (lower name).utf8ByteSize = name.utf8ByteSize ∧
        ∀ index offset d,
          StandsAt (lower name) index offset d ↔ ∃ c, StandsAt name index offset c ∧ fold c = d :=
  ⟨fun _ _ => same_iff_lower_eq, fun _ _ => same_iff_fold_eq, fun _ _ => same_iff_alike,
    equivalence_same, fun name => ⟨lower_lower name, utf8ByteSize_lower name,
      fun _ _ _ => standsAt_lower_iff⟩⟩

end Irc.CaseMapping

namespace Irc.Engine

theorem nickname_nick (e : Engine) (m : Message) :
    (e.nick m).engine.nickname =
      if CaseMapping.lower (Actor.ofMessage m).name = CaseMapping.lower e.nickname then m.arg 0
      else e.nickname := by
  simp only [← CaseMapping.same_iff_lower_eq]
  show (if CaseMapping.same (Actor.ofMessage m).name e.nickname = true then
    { e with nickname := m.arg 0 } else e).nickname = _
  split_ifs <;> rfl

/-- When someone changes nickname, the client does if the lower case of the old one is its own. -/
theorem nickname_handleMessage_nick {m : Message} (hcommand : m.command = "NICK") (e : Engine)
    (now : Instant) :
    (e.handleMessage m now).engine.nickname =
      if 1 ≤ m.argCount ∧
          CaseMapping.lower (Actor.ofMessage m).name = CaseMapping.lower e.nickname then m.arg 0
      else e.nickname := by
  have hroute : Route.ofMessage m = .nick := Message.route_of_command hcommand rfl
  rw [handleMessage, hroute]
  by_cases hcount : 1 ≤ m.argCount
  · have hrequired : m.require (Route.nick.arity e.link.registered) = .ok () :=
      Message.require_eq_ok_iff.mpr hcount
    rw [hrequired]
    simp only [hcount, true_and]
    exact e.nickname_nick m
  · rw [if_neg fun h => hcount h.1]
    cases hrequired : m.require (Route.nick.arity e.link.registered) with
    | ok => exact absurd (Message.require_eq_ok_iff.mp hrequired) hcount
    | error missing => rfl

end Irc.Engine
