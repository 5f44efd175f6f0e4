/-
The payloads of a login.

The response goes out in payloads of base64 characters.  None of these characters has a
meaning of its own in a line, so that every payload may stand in one.

* **`mem_encode`** — the characters of base64;
* **`of_mem_payloads`** — a payload is not empty, not too long, and made of the response;
* **`of_mem_credentials`** — every payload of a login may stand in a line and fits.
-/
import Irc.Proofs.Grammar
import Irc.Proofs.Splitting
import Irc.Sasl

namespace Irc.Text.Base64

/-- A character of base64 with padding. -/
def IsSymbol (c : Char) : Prop := c.isAlphanum = true ∨ c = '+' ∨ c = '/' ∨ c = '='

theorem isSymbol_digit (n : Nat) : IsSymbol (digit n) := by
  have hsmall : ∀ n < 62, (digit n).isAlphanum = true := by decide
  by_cases hn : n < 62
  · exact .inl (hsmall n hn)
  · rw [digit, if_neg (by omega), if_neg (by omega), if_neg hn]
    split_ifs
    · exact .inr (.inl rfl)
    · exact .inr (.inr (.inl rfl))

/-- Bytes are written in the characters of base64. -/
theorem mem_encode {bytes : List UInt8} {c : Char} (h : c ∈ encode bytes) : IsSymbol c := by
  have hpad : IsSymbol '=' := .inr (.inr (.inr rfl))
  induction bytes using encode.induct with
  | case1 => exact absurd h List.not_mem_nil
  | case2 a =>
    simp only [encode, List.mem_cons, List.not_mem_nil, or_false] at h
    rcases h with rfl | rfl | rfl | rfl
    · exact isSymbol_digit _
    · exact isSymbol_digit _
    · exact hpad
    · exact hpad
  | case3 a b =>
    simp only [encode, List.mem_cons, List.not_mem_nil, or_false] at h
    rcases h with rfl | rfl | rfl | rfl
    · exact isSymbol_digit _
    · exact isSymbol_digit _
    · exact isSymbol_digit _
    · exact hpad
  | case4 a b c' rest ih =>
    simp only [encode, List.mem_cons] at h
    rcases h with rfl | rfl | rfl | rfl | h
    · exact isSymbol_digit _
    · exact isSymbol_digit _
    · exact isSymbol_digit _
    · exact isSymbol_digit _
    · exact ih h

/-- A character of base64 takes one byte, and has no meaning of its own in a line. -/
theorem IsSymbol.harmless {c : Char} (h : IsSymbol c) :
    c.utf8Size = 1 ∧ c ≠ ':' ∧ c ≠ ' ' ∧ isLineBreaker c = false := by
  rcases h with h | rfl | rfl | rfl
  · obtain ⟨hlo, hhi⟩ := Message.toNat_of_isAlphanum h
    refine ⟨Char.utf8Size_eq_one_iff.mpr ?_, Message.isAlphanum_ne h (by decide),
      Message.isAlphanum_ne h (by decide), ?_⟩
    · exact UInt32.le_iff_toNat_le.mpr (hhi.trans (by decide))
    · simp only [isLineBreaker, Bool.or_eq_false_iff, decide_eq_false_iff_not]
      exact ⟨⟨Message.isAlphanum_ne h (by decide), Message.isAlphanum_ne h (by decide)⟩,
        Message.isAlphanum_ne h (by decide)⟩
  · decide
  · decide
  · decide

theorem byteLength_of_isSymbol {cs : List Char} (h : ∀ c ∈ cs, IsSymbol c) :
    byteLength cs = cs.length := by
  induction cs with
  | nil => rfl
  | cons c cs ih =>
    rw [byteLength_cons, (h c List.mem_cons_self).harmless.1,
      ih fun d hd => h d (List.mem_cons_of_mem c hd), List.length_cons, Nat.add_comm]

end Irc.Text.Base64

namespace Irc.Sasl

open Text Outgoing

/-- A payload is not empty, not too long, and made of the response or a lone `+`. -/
theorem of_mem_payloads {response piece : List Char} (h : piece ∈ payloads response) :
    piece ≠ [] ∧ piece.length ≤ payloadLimit ∧ ∀ c ∈ piece, c ∈ response ∨ c = '+' := by
  induction response using payloads.induct with
  | case1 =>
    rw [payloads, if_pos rfl, List.mem_singleton] at h
    subst h
    exact ⟨by simp, by decide, fun c hc => .inr (List.mem_singleton.mp hc)⟩
  | case2 response hne hlength =>
    rw [payloads, if_neg hne, if_pos hlength, List.mem_singleton] at h
    subst h
    exact ⟨hne, hlength.le, fun c hc => .inl hc⟩
  | case3 response hne hlength ih =>
    rw [payloads, if_neg hne, if_neg hlength, List.mem_cons] at h
    rcases h with rfl | h
    · refine ⟨?_, List.length_take_le _ _, fun c hc => .inl (List.mem_of_mem_take hc)⟩
      rw [ne_eq, List.take_eq_nil_iff]
      exact fun hnil => hnil.elim (by decide) hne
    · obtain ⟨hpiece, hle, hmem⟩ := ih h
      exact ⟨hpiece, hle, fun c hc => (hmem c hc).imp List.mem_of_mem_drop id⟩

/-- Every payload of a login may stand in a line and fits. -/
theorem of_mem_credentials {account password payload : String}
    (h : payload ∈ credentials account password) :
    Placeable payload ∧ payload.utf8ByteSize ≤ payloadLimit := by
  obtain ⟨piece, hpiece, rfl⟩ := List.mem_map.mp h
  obtain ⟨hne, hlength, hmem⟩ := of_mem_payloads hpiece
  rw [encodePlain, String.toList_ofList] at hmem
  have hsymbol : ∀ c ∈ piece, Base64.IsSymbol c := fun c hc =>
    (hmem c hc).elim Base64.mem_encode fun hplus => .inr (.inl hplus)
  constructor
  · rw [Placeable, isMiddle, lineBreaker?, String.toList_ofList, List.find?_eq_none]
    refine ⟨?_, fun c hc => by simp [(hsymbol c hc).harmless.2.2.2]⟩
    simp only [Bool.and_eq_true, decide_eq_true_eq, Bool.not_eq_true', List.contains_eq_mem,
      decide_eq_false_iff_not]
    refine ⟨⟨?_, fun hcolon => ?_⟩, fun hspace => (hsymbol _ hspace).harmless.2.2.1 rfl⟩
    · rwa [ne_eq, String.ofList_eq_empty_iff]
    · exact (hsymbol _ (List.mem_of_mem_head? hcolon)).harmless.2.1 rfl
  · rw [utf8ByteSize_ofList, Base64.byteLength_of_isSymbol hsymbol]
    exact hlength

end Irc.Sasl
