/-
Byte lengths and byte-limited cuts.

All limits of the line protocol count bytes of UTF-8, while a text is a list
of characters.  `byteLength` is the measure, `cut` splits a text at the last
character boundary within a byte budget, and

* **`cut_append`** — nothing is lost by a cut;
* **`byteLength_cut_le`** — the front part keeps to the budget;
* **`utf8ByteSize_ofList`** — the measure agrees with the byte size of a string.

`chunks` repeats the cut until the text is used up.  `truncate` finds the place
of the cut from the other side: it goes back from the end of the budget to the
first boundary.
-/

namespace Irc.Text

/-- Bytes that the characters take in UTF-8. -/
def byteLength : List Char → Nat
  | [] => 0
  | c :: cs => c.utf8Size + byteLength cs

@[simp] theorem byteLength_nil : byteLength [] = 0 := rfl

@[simp] theorem byteLength_cons (c : Char) (cs : List Char) :
    byteLength (c :: cs) = c.utf8Size + byteLength cs := rfl

@[simp] theorem byteLength_append (as bs : List Char) :
    byteLength (as ++ bs) = byteLength as + byteLength bs := by
  induction as with
  | nil => simp
  | cons c as ih =>
    rw [List.cons_append, byteLength_cons, byteLength_cons, ih, Nat.add_assoc]

/-- The measure agrees with the byte size of a string. -/
theorem utf8ByteSize_ofList (cs : List Char) : (String.ofList cs).utf8ByteSize = byteLength cs := by
  induction cs with
  | nil => rfl
  | cons c cs ih =>
    rw [String.ofList_cons, String.utf8ByteSize_append, String.utf8ByteSize_singleton, ih,
      byteLength_cons]

/-- The byte size of a string is the measure of its characters. -/
theorem byteLength_toList (s : String) : byteLength s.toList = s.utf8ByteSize := by
  rw [← utf8ByteSize_ofList, String.ofList_toList]

/-- The bytes of a text in UTF-8. -/
def utf8Bytes (s : String) : List UInt8 := s.toUTF8.data.toList

/-- The text that the bytes stand for in UTF-8, if they do. -/
def ofUtf8? (bytes : List UInt8) : Option String := String.fromUTF8? ⟨bytes.toArray⟩

/-- The longest run of whole characters from the front that takes at most
`room` bytes, and what follows it. -/
def cut : Nat → List Char → List Char × List Char
  | _, [] => ([], [])
  | room, c :: cs =>
    if c.utf8Size ≤ room then
      (c :: (cut (room - c.utf8Size) cs).1, (cut (room - c.utf8Size) cs).2)
    else
      ([], c :: cs)

/-- Nothing is lost by a cut. -/
theorem cut_append (room : Nat) (cs : List Char) : (cut room cs).1 ++ (cut room cs).2 = cs := by
  induction cs generalizing room with
  | nil => rfl
  | cons c cs ih =>
    by_cases h : c.utf8Size ≤ room
    · simp [cut, h, ih]
    · simp [cut, h]

/-- The front part keeps to the budget. -/
theorem byteLength_cut_le (room : Nat) (cs : List Char) : byteLength (cut room cs).1 ≤ room := by
  induction cs generalizing room with
  | nil => simp [cut]
  | cons c cs ih =>
    by_cases h : c.utf8Size ≤ room
    · have := ih (room - c.utf8Size)
      simp only [cut, h, if_true, byteLength_cons]
      omega
    · simp [cut, h]

/-- A cut that takes something leaves a shorter text. -/
theorem length_cut_lt (room : Nat) (cs : List Char) (h : (cut room cs).1 ≠ []) :
    (cut room cs).2.length < cs.length := by
  have hlen : (cut room cs).1.length + (cut room cs).2.length = cs.length := by
    rw [← List.length_append, cut_append]
  have := List.length_pos_iff.2 h
  omega

/-- The text in pieces of at most `room` bytes, each as long as possible.
The empty text is one empty piece; `none` when some character is wider than
the room. -/
def chunks (room : Nat) (cs : List Char) : Option (List (List Char)) :=
  if (cut room cs).2 = [] then
    some [(cut room cs).1]
  else if _h : (cut room cs).1 = [] then
    none
  else
    (chunks room (cut room cs).2).map ((cut room cs).1 :: ·)
termination_by cs.length
decreasing_by exact length_cut_lt room cs ‹_›

/-! ### Boundaries -/

/-- Whether a byte offset is at an end of the text or between two of its characters. -/
def isBoundary (text : String) (offset : Nat) : Bool := String.Pos.Raw.isValid text ⟨offset⟩

/-- The last boundary at or in front of a byte offset, looked for backwards byte by byte. -/
def boundaryBefore (text : String) : Nat → Nat
  | 0 => 0
  | offset + 1 =>
    if isBoundary text (offset + 1) then offset + 1 else boundaryBefore text offset

/-- The search stops at a boundary. -/
theorem isBoundary_boundaryBefore (text : String) (offset : Nat) :
    isBoundary text (boundaryBefore text offset) = true := by
  induction offset with
  | zero => exact String.Pos.Raw.isValid_eq_true_iff.mpr String.Pos.Raw.isValid_zero
  | succ offset ih =>
    by_cases h : isBoundary text (offset + 1) = true
    · rwa [boundaryBefore, if_pos h]
    · rwa [boundaryBefore, if_neg h]

/-- The part of a text in front of a boundary. -/
def frontTo (text : String) (offset : Nat) (h : isBoundary text offset = true) : String :=
  (text.sliceTo ⟨⟨offset⟩, String.Pos.Raw.isValid_eq_true_iff.mp h⟩).copy

/-- The longest front part of `text` that takes at most `room` bytes. -/
def truncate (text : String) (room : Nat) : String :=
  if text.utf8ByteSize ≤ room then
    text
  else
    frontTo text (boundaryBefore text room) (isBoundary_boundaryBefore text room)

end Irc.Text
