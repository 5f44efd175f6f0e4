/-
Texts cut off at a byte limit.

A limit counts bytes and a text is made of characters, so the end of the budget may lie inside of a
character.  A text is cut off at the last boundary in front of it, and a boundary is where the text
comes apart into two texts.  The search for it goes backwards from the end of the budget; what
carries the proof is that no offset it has passed is a boundary.

* **`isBoundary_iff`** — boundaries are where a text comes apart;
* **`not_isBoundary_of_passed`** — the search passes no boundary;
* **`longestFront_truncate`** — what is left of a text is the longest that fits;
* **`truncate_eq_cut`** — going back from the limit and going on from the front come to the same;
* **`truncate_latest`** — a text is cut off as late as possible;
* **`Outgoing.Draft.setTrailing_truncate`** — which is how much of it a line takes.
-/
import Irc.Proofs.Splitting

namespace Irc.Text

variable {text front back other rest : String} {room offset passed : Nat}

/-! ### The search for a boundary -/

/-- Boundaries are where a text comes apart. -/
theorem isBoundary_iff :
    isBoundary text offset = true ↔
      ∃ front back, text = front ++ back ∧ front.utf8ByteSize = offset := by
  rw [isBoundary, String.Pos.Raw.isValid_eq_true_iff, String.Pos.Raw.isValid_iff_exists_append]
  simp only [String.Pos.Raw.ext_iff, String.byteIdx_rawEndPos, eq_comm]

theorem boundaryBefore_le (text : String) (offset : Nat) : boundaryBefore text offset ≤ offset := by
  induction offset with
  | zero => exact Nat.le_refl _
  | succ offset ih =>
    rw [boundaryBefore]
    split
    · exact Nat.le_refl _
    · exact Nat.le_succ_of_le ih

/-- The search passes no boundary. -/
theorem not_isBoundary_of_passed (hpassed : boundaryBefore text offset < passed)
    (hle : passed ≤ offset) : isBoundary text passed = false := by
  induction offset with
  | zero => omega
  | succ offset ih =>
    by_cases h : isBoundary text (offset + 1) = true
    · rw [boundaryBefore, if_pos h] at hpassed
      omega
    · -- the search goes on in front of this offset, which is the last one that it has passed
      rw [boundaryBefore, if_neg h] at hpassed
      rcases Nat.le_succ_iff.mp hle with hle | rfl
      · exact ih hpassed hle
      · exact Bool.eq_false_iff.mpr h

/-- A boundary at or in front of the offset is not behind the one that is found. -/
theorem le_boundaryBefore (hboundary : isBoundary text passed = true) (hle : passed ≤ offset) :
    passed ≤ boundaryBefore text offset := by
  by_contra hpassed
  have hinside := not_isBoundary_of_passed (Nat.lt_of_not_le hpassed) hle
  exact absurd hboundary (Bool.eq_false_iff.mp hinside)

/-! ### Front parts -/

/-- The longest front part of a text that takes at most `room` bytes. -/
structure LongestFront (room : Nat) (text front : String) : Prop where
  part : ∃ back, text = front ++ back
  within : front.utf8ByteSize ≤ room
  longest : ∀ other rest, text = other ++ rest → other.utf8ByteSize ≤ room →
    ∃ more, front = other ++ more

/-- Of two front parts, the one with fewer bytes is a part of the other. -/
theorem exists_append_of_le (h : front ++ back = other ++ rest)
    (hle : other.utf8ByteSize ≤ front.utf8ByteSize) : ∃ more, front = other ++ more := by
  have hlists := congrArg String.toList h
  rw [String.toList_append, String.toList_append, List.append_eq_append_iff] at hlists
  rcases hlists with ⟨more, hother, -⟩ | ⟨more, hfront, -⟩
  · -- the other one goes on behind this one, but not with a character
    have heq : other = front ++ String.ofList more := by
      rw [← String.toList_inj, hother, String.toList_append, String.toList_ofList]
    rw [heq, String.utf8ByteSize_append] at hle
    have hmore : String.ofList more = "" := String.utf8ByteSize_eq_zero_iff.mp (by omega)
    rw [heq, hmore, String.append_empty]
    exact ⟨"", String.append_empty.symm⟩
  · refine ⟨String.ofList more, ?_⟩
    rw [← String.toList_inj, hfront, String.toList_append, String.toList_ofList]

/-- A text has one longest front part. -/
theorem LongestFront.unique (h : LongestFront room text front)
    (hother : LongestFront room text other) : front = other := by
  obtain ⟨back, hback⟩ := h.part
  obtain ⟨rest, hrest⟩ := hother.part
  obtain ⟨more, hmore⟩ := h.longest other rest hrest hother.within
  obtain ⟨less, hless⟩ := hother.longest front back hback h.within
  have hsize := congrArg String.utf8ByteSize hmore
  have hsize' := congrArg String.utf8ByteSize hless
  rw [String.utf8ByteSize_append] at hsize hsize'
  have hempty : more = "" := String.utf8ByteSize_eq_zero_iff.mp (by omega)
  rw [hmore, hempty, String.append_empty]

/-- The character behind the longest front part does not fit any more. -/
theorem LongestFront.eq_or_lt_push (h : LongestFront room text front) :
    front = text ∨ ∃ c rest, text = front.push c ++ rest ∧ room < (front.push c).utf8ByteSize := by
  obtain ⟨back, hback⟩ := h.part
  cases hcs : back.toList with
  | nil =>
    left
    rw [hback, String.toList_eq_nil_iff.mp hcs, String.append_empty]
  | cons c cs =>
    right
    have htext : text = front.push c ++ String.ofList cs := by
      rw [hback, ← String.toList_inj]
      simp [hcs]
    refine ⟨c, String.ofList cs, htext, ?_⟩
    by_contra hfits
    -- the front part with the character would be a longer one that fits
    obtain ⟨more, hmore⟩ := h.longest _ _ htext (Nat.le_of_not_lt hfits)
    have hsize := congrArg String.utf8ByteSize hmore
    rw [String.utf8ByteSize_append, String.utf8ByteSize_push] at hsize
    have hpos := c.utf8Size_pos
    omega

/-- The part in front of a boundary is a front part, and ends at the boundary. -/
theorem frontTo_append (h : isBoundary text offset = true) :
    ∃ back, text = frontTo text offset h ++ back ∧
      (frontTo text offset h).utf8ByteSize = offset := by
  have hsplits := String.Pos.splits
    (⟨⟨offset⟩, String.Pos.Raw.isValid_eq_true_iff.mp h⟩ : text.Pos)
  have hoffset := congrArg String.Pos.Raw.byteIdx hsplits.offset_eq_rawEndPos
  exact ⟨_, hsplits.eq_append, hoffset.symm⟩

/-! ### Cutting off -/

theorem utf8ByteSize_truncate (h : room < text.utf8ByteSize) :
    (truncate text room).utf8ByteSize = boundaryBefore text room := by
  rw [truncate, if_neg (Nat.not_le_of_lt h)]
  obtain ⟨back, -, hsize⟩ := frontTo_append (isBoundary_boundaryBefore text room)
  exact hsize

/-- What is left of a text is the longest that fits. -/
theorem longestFront_truncate (text : String) (room : Nat) :
    LongestFront room text (truncate text room) := by
  rw [truncate]
  split
  · rename_i hfits
    exact ⟨⟨"", String.append_empty.symm⟩, hfits, fun other rest hother _ => ⟨rest, hother⟩⟩
  · obtain ⟨back, hback, hsize⟩ := frontTo_append (isBoundary_boundaryBefore text room)
    refine ⟨⟨back, hback⟩, ?_, fun other rest hother hfits => ?_⟩
    · rw [hsize]
      exact boundaryBefore_le text room
    · -- the end of another front part is a boundary, which the search has not passed
      have hboundary : isBoundary text other.utf8ByteSize = true :=
        isBoundary_iff.mpr ⟨other, rest, hother, rfl⟩
      refine exists_append_of_le (hback.symm.trans hother) ?_
      rw [hsize]
      exact le_boundaryBefore hboundary hfits

/-- The search passes less than a character. -/
theorem le_boundaryBefore_add (h : room < text.utf8ByteSize) :
    room ≤ boundaryBefore text room + 3 := by
  have hsize := utf8ByteSize_truncate h
  rcases (longestFront_truncate text room).eq_or_lt_push with hall | ⟨c, rest, -, hnext⟩
  · rw [hall] at hsize
    have hle := boundaryBefore_le text room
    omega
  · rw [String.utf8ByteSize_push, hsize] at hnext
    have hwidth := c.utf8Size_le_four
    omega

theorem longestFront_cut (room : Nat) (cs : List Char) :
    LongestFront room (String.ofList cs) (String.ofList (cut room cs).1) where
  part := ⟨String.ofList (cut room cs).2, by rw [← String.ofList_append, cut_append]⟩
  within := by
    rw [utf8ByteSize_ofList]
    exact byteLength_cut_le room cs
  longest := by
    intro other rest hother hfits
    have hcs : cs = other.toList ++ rest.toList := by
      rw [← String.toList_append, ← hother, String.toList_ofList]
    rw [← byteLength_toList] at hfits
    rw [hcs, cut_append_of_le _ hfits]
    exact ⟨_, by rw [String.ofList_append, String.ofList_toList]⟩

/-- Going back from the limit and going on from the front come to the same. -/
theorem truncate_eq_cut (text : String) (room : Nat) :
    truncate text room = String.ofList (cut room text.toList).1 := by
  have hcut := longestFront_cut room text.toList
  rw [String.ofList_toList] at hcut
  exact (longestFront_truncate text room).unique hcut

/-- **A text is cut off as late as possible.**  What is left is the longest front part of whole
characters that keeps to the limit: it is the text, or the next character does not fit any more.
The search for the place ends at a boundary, has passed none, and has passed three bytes at most. -/
theorem truncate_latest (text : String) (room : Nat) :
    LongestFront room text (truncate text room) ∧
      (truncate text room = text ∨ ∃ c rest, text = (truncate text room).push c ++ rest ∧
        room < ((truncate text room).push c).utf8ByteSize) ∧
      isBoundary text (boundaryBefore text room) = true ∧
      (∀ passed, boundaryBefore text room < passed → passed ≤ room →
        isBoundary text passed = false) ∧
      (room < text.utf8ByteSize → (truncate text room).utf8ByteSize = boundaryBefore text room ∧
        room ≤ boundaryBefore text room + 3) := by
  have hlongest := longestFront_truncate text room
  exact ⟨hlongest, hlongest.eq_or_lt_push, isBoundary_boundaryBefore text room,
    fun passed => not_isBoundary_of_passed,
    fun hlong => ⟨utf8ByteSize_truncate hlong, le_boundaryBefore_add hlong⟩⟩

/-- A limit inside of the last of three characters. -/
theorem truncate_latest_inside :
    7 < "日本語".utf8ByteSize ∧ isBoundary "日本語" 7 = false ∧
      (truncate "日本語" 7).utf8ByteSize = 6 ∧ ∃ more, truncate "日本語" 7 = "日本" ++ more := by
  have hlong : 7 < "日本語".utf8ByteSize := by decide +kernel
  have hbefore : boundaryBefore "日本語" 7 = 6 := by decide +kernel
  obtain ⟨hlongest, -, -, hpassed, hsearch⟩ := truncate_latest "日本語" 7
  rw [hbefore] at hpassed hsearch
  exact ⟨hlong, hpassed 7 (by decide) (Nat.le_refl 7), (hsearch hlong).1,
    hlongest.longest "日本" "語" (by decide +kernel) (by decide +kernel)⟩

end Irc.Text

namespace Irc.Outgoing

open Text

/-- A line takes a trailing parameter cut off at the room it has, and gives back what stands behind
the cut. -/
theorem Draft.setTrailing_truncate (d : Draft) {text rest : String}
    (h : text = truncate text d.trailingRoom ++ rest) :
    d.setTrailing text =
      if truncate text d.trailingRoom = "" ∧ text ≠ "" then (d, some text)
      else (d.withTrailing (truncate text d.trailingRoom).toList,
        if rest = "" then none else some rest) := by
  have hfront : (cut d.trailingRoom text.toList).1 = (truncate text d.trailingRoom).toList := by
    rw [truncate_eq_cut, String.toList_ofList]
  have hrest : (cut d.trailingRoom text.toList).2 = rest.toList := by
    have hcut := cut_append d.trailingRoom text.toList
    have htext := congrArg String.toList h
    rw [String.toList_append, ← hfront] at htext
    exact List.append_cancel_left (hcut.trans htext)
  simp only [setTrailing, hfront, hrest, String.toList_eq_nil_iff, String.ofList_toList,
    Bool.and_eq_true, decide_eq_true_eq]

end Irc.Outgoing
