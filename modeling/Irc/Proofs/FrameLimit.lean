/-
The limit of the reader and the limits of messages.

The reader counts all bytes of a line, and reading a message counts the tags and the body on
their own.  `Limits.frame` leaves room for the longest tags and the longest body with its line
end, but not for the mark in front of the tags and the space behind them.  So most messages that
can be read get through the reader, and those at the very edge of both limits do not.

* **`Text.utf8Bytes_append`**, **`Text.mem_toList_of_mem_utf8Bytes`** — the bytes of a text;
* **`Framer.feedAll_line`** — what becomes of one line, wherever its bytes are cut;
* **`Message.Printable.not_roomy_iff`** — the sizes that do not get through;
* **`Framer.feedAll_render`** — what becomes of the written form of a message.
-/
import Irc.Proofs.Framing
import Irc.Proofs.WellFormed

namespace Irc

namespace Text

/-! ### The bytes of a text -/

theorem utf8Bytes_append (s t : String) : utf8Bytes (s ++ t) = utf8Bytes s ++ utf8Bytes t := by
  show (s ++ t).toByteArray.data.toList = _
  rw [String.toByteArray_append, ByteArray.data_append, Array.toList_append]
  rfl

theorem length_utf8Bytes (s : String) : (utf8Bytes s).length = s.utf8ByteSize := rfl

theorem utf8Bytes_ofList (cs : List Char) :
    utf8Bytes (String.ofList cs) = cs.flatMap String.utf8EncodeChar := by
  show (String.ofList cs).toByteArray.data.toList = _
  rw [String.toByteArray_ofList, List.utf8Encode, List.toList_data_toByteArray]

/-- A byte of ASCII stands for its own character and for nothing else. -/
theorem toNat_of_mem_utf8EncodeChar {b : UInt8} {c : Char} (hb : b.toNat < 128)
    (h : b ∈ String.utf8EncodeChar c) : c.toNat = b.toNat := by
  have hbyte : ∀ n : Nat, b = UInt8.ofNat n ↔ n % 256 = b.toNat := by
    intro n
    rw [← UInt8.toNat_inj, UInt8.toNat_ofNat', eq_comm]
  rw [String.utf8EncodeChar] at h
  -- the bytes of a wide character are all above those of the narrow ones
  split_ifs at h <;> simp only [List.mem_cons, List.not_mem_nil, or_false, hbyte] at h
  · show c.val.toNat = b.toNat
    omega
  all_goals omega

theorem mem_toList_of_mem_utf8Bytes {s : String} {c : Char} (hc : c.toNat < 128)
    (h : UInt8.ofNat c.toNat ∈ utf8Bytes s) : c ∈ s.toList := by
  have hb : (UInt8.ofNat c.toNat).toNat = c.toNat :=
    UInt8.toNat_ofNat_of_lt' (hc.trans (by decide))
  rw [← String.ofList_toList (s := s), utf8Bytes_ofList, List.mem_flatMap] at h
  obtain ⟨d, hd, hbyte⟩ := h
  have hsame : d.toNat = c.toNat :=
    (toNat_of_mem_utf8EncodeChar (by rwa [hb]) hbyte).trans hb
  exact Char.toNat_inj.mp hsame ▸ hd

end Text

namespace Framer

/-! ### One line -/

/-- A reader that has not begun gives the frames of the stream. -/
theorem feedAll_start (limit : Nat) (pieces : List (List UInt8)) :
    ∃ tail, Framed limit pieces.flatten ((ofLimit limit).feedAll [] pieces).1 tail ∧
      ((ofLimit limit).feedAll [] pieces).2 = (behind limit tail, held limit tail) := by
  have hstart : Framed limit [] [] [] := .tail List.not_mem_nil (Nat.zero_le _)
  obtain ⟨tail, hframed, hlast⟩ := feedAll_framed pieces hstart
  rw [behind_of_le (Nat.zero_le limit), held_of_le (Nat.zero_le limit)] at hframed hlast
  exact ⟨tail, hframed, hlast⟩

theorem chomp_append_carriageReturn (line : List UInt8) :
    chomp (line ++ [carriageReturn]) = line := by
  rw [chomp, if_pos List.getLast?_concat, List.dropLast_concat]

/-- **One line, wherever its bytes are cut.**  It gets through if it keeps to the limit with its
line end, and is reported as too long otherwise; either way the reader starts anew behind it. -/
theorem feedAll_line (limit : Nat) {s : String} (hs : '\n' ∉ s.toList) {pieces : List (List UInt8)}
    (hpieces : pieces.flatten = encode (s ++ "\r\n")) :
    ∃ frame, (ofLimit limit).feedAll [] pieces = ([frame], ofLimit limit, []) ∧
      (s.utf8ByteSize + 2 ≤ limit → frame = .ok s) ∧
      (limit < s.utf8ByteSize + 2 → ∃ n, limit < n ∧ frame = .error (.tooLong n limit)) := by
  have hbytes : encode (s ++ "\r\n") =
      (Text.utf8Bytes s ++ [carriageReturn]) ++ lineFeed :: [] := by
    rw [encode, Text.utf8Bytes_append, List.append_assoc]
    rfl
  have hfeed : lineFeed ∉ Text.utf8Bytes s ++ [carriageReturn] := by
    rw [List.mem_append, not_or]
    exact ⟨fun hmem => hs (Text.mem_toList_of_mem_utf8Bytes (by decide) hmem), by decide⟩
  have hlength : (Text.utf8Bytes s ++ [carriageReturn]).length + 1 = s.utf8ByteSize + 2 := by
    rw [List.length_append, Text.length_utf8Bytes]
    rfl
  obtain ⟨tail, hframed, hlast⟩ := feedAll_start limit pieces
  rw [hpieces, hbytes] at hframed
  obtain ⟨frame, more, hframes, hframe, hrest⟩ := hframed.of_line hfeed
  -- nothing is left behind the line
  obtain ⟨rfl, ⟨-, rfl⟩ | ⟨hlong, -⟩⟩ := hrest.of_notMem List.not_mem_nil
  · rw [behind_of_le (Nat.zero_le limit), held_of_le (Nat.zero_le limit)] at hlast
    refine ⟨frame, Prod.ext hframes hlast, fun hle => ?_, fun hlt => ?_⟩
    · cases hframe with
      | tooLong hline hlength' => exact absurd hline (by omega)
      | text hline hs' =>
        rw [chomp_append_carriageReturn] at hs'
        have hsame := (Text.ofUtf8?_eq_some_iff.mpr hs').symm.trans
          (Text.ofUtf8?_eq_some_iff.mpr rfl)
        rw [Option.some_inj.mp hsame]
      | undecodable hline hs' =>
        rw [chomp_append_carriageReturn] at hs'
        exact absurd rfl (hs' s)
    · cases hframe with
      | tooLong hline hlength' => exact ⟨_, hlength', rfl⟩
      | text hline hs' => exact absurd hline (by omega)
      | undecodable hline hs' => exact absurd hline (by omega)
  · exact absurd hlong (Nat.not_lt_zero limit)

end Framer

namespace Message

open Text

variable {m : Message}

/-! ### The size of a message -/

/-- The written form leaves room for its line end, the mark in front of the tags and the space
behind them. -/
def Roomy (m : Message) : Prop :=
  m.tags = [] ∨
    byteLength (Tag.renderSection m.tags) + byteLength (renderBody m) + 4 ≤ Limits.frame

instance (m : Message) : Decidable m.Roomy := inferInstanceAs (Decidable (_ ∨ _))

theorem utf8ByteSize_render (m : Message) :
    m.render.utf8ByteSize =
      (if m.tags = [] then 0 else byteLength (Tag.renderSection m.tags) + 2) +
        byteLength (renderBody m) := by
  have hmark : ('@' : Char).utf8Size = 1 := by decide
  have hspace : (' ' : Char).utf8Size = 1 := by decide
  rw [render, utf8ByteSize_ofList, byteLength_append, renderTags]
  split_ifs with htags
  · rfl
  · rw [List.cons_append, byteLength_cons, byteLength_append, byteLength_cons, byteLength_nil,
      hmark, hspace]
    omega

/-- A message that can be read is roomy just when its line keeps to the limit of the reader. -/
theorem Printable.roomy_iff (h : m.Printable) :
    m.Roomy ↔ m.render.utf8ByteSize + 2 ≤ Limits.frame := by
  have hbody : byteLength (renderBody m) ≤ 510 := h.byteLength_body
  rw [Roomy, utf8ByteSize_render]
  split_ifs with htags
  · have hframe : (510 : Nat) + 2 ≤ Limits.frame := by decide
    exact iff_of_true (.inl htags) (by omega)
  · rw [or_iff_right htags]
    omega

/-- The sizes that do not get through: the tags and the body are both all but full. -/
theorem Printable.not_roomy_iff (h : m.Printable) :
    ¬ m.Roomy ↔ m.tags ≠ [] ∧
      (byteLength (Tag.renderSection m.tags) = Limits.tags ∧
          Limits.body ≤ byteLength (renderBody m) + 1 ∨
        byteLength (Tag.renderSection m.tags) + 1 = Limits.tags ∧
          byteLength (renderBody m) = Limits.body) := by
  have htags : byteLength (Tag.renderSection m.tags) ≤ 8191 := h.byteLength_tags
  have hbody : byteLength (renderBody m) ≤ 510 := h.byteLength_body
  rw [Roomy, not_or, and_congr_right_iff]
  intro hne
  show ¬ _ ≤ 8703 ↔ _ = 8191 ∧ 510 ≤ _ ∨ _ = 8191 ∧ _ = 510
  omega

theorem utf8ByteSize_render_filled (key text : Nat) :
    (filled key text).render.utf8ByteSize = key + text + 8 := by
  have htags : (filled key text).tags ≠ [] := List.cons_ne_nil _ _
  rw [utf8ByteSize_render, if_neg htags, byteLength_renderSection_filled,
    byteLength_renderBody_filled]
  omega

end Message

namespace Framer

open Message

/-- **The written form of a message, wherever its bytes are cut.**  A reader with the usual limit
gives back the written form of every message that is read back from it and is roomy.  Otherwise
the line is reported as too long. -/
theorem feedAll_render {m : Message} (h : parse m.render = .ok m) {pieces : List (List UInt8)}
    (hpieces : pieces.flatten = encode (m.render ++ "\r\n")) :
    (m.Roomy → ({} : Framer).feedAll [] pieces = ([.ok m.render], {}, [])) ∧
      (¬ m.Roomy → ∃ n, Limits.frame < n ∧
        ({} : Framer).feedAll [] pieces = ([.error (.tooLong n Limits.frame)], {}, [])) := by
  have hm := (parse_render_eq_ok_iff.mp h).1
  have hnewline : '\n' ∉ m.render.toList := fun hmem => (hm.unbroken '\n' hmem).2.2 rfl
  obtain ⟨frame, hfeed, hfits, hlong⟩ := feedAll_line Limits.frame hnewline hpieces
  refine ⟨fun hroomy => ?_, fun hnot => ?_⟩
  · rw [← hfits (hm.roomy_iff.mp hroomy)]
    exact hfeed
  · rw [hm.roomy_iff, Nat.not_le] at hnot
    obtain ⟨n, hn, hframe⟩ := hlong hnot
    refine ⟨n, hn, ?_⟩
    rw [← hframe]
    exact hfeed

/-- The longest line that gets through. -/
theorem feedAll_render_filled :
    ∃ m, parse m.render = .ok m ∧ m.render.utf8ByteSize + 2 = Limits.frame ∧
      ({} : Framer).feedAll [] [encode (m.render ++ "\r\n")] = ([.ok m.render], {}, []) := by
  have hread : parse (filled 8190 503).render = .ok (filled 8190 503) :=
    parse_render_filled (by decide) (by decide) (by decide)
  have hroomy : (filled 8190 503).Roomy := by
    rw [Roomy, byteLength_renderSection_filled, byteLength_renderBody_filled]
    decide
  refine ⟨filled 8190 503, hread, ?_, (feedAll_render hread (List.append_nil _)).1 hroomy⟩
  rw [utf8ByteSize_render_filled]
  rfl

/-- A message that fills its tags and its body is read and read back, and its line does not get
through. -/
theorem too_long_of_filled :
    ∃ line m, parse line = .ok m ∧ parse m.render = .ok m ∧
      (({} : Framer).feedAll [] [encode (m.render ++ "\r\n")]).1 ≠ [.ok m.render] := by
  have hread : parse (filled 8191 504).render = .ok (filled 8191 504) :=
    parse_render_filled (by decide) (by decide) (by decide)
  have hm := (parse_render_eq_ok_iff.mp hread).1
  have hnewline : '\n' ∉ (filled 8191 504).render.toList :=
    fun hmem => (hm.unbroken '\n' hmem).2.2 rfl
  have hpieces : [encode ((filled 8191 504).render ++ "\r\n")].flatten =
      encode ((filled 8191 504).render ++ "\r\n") := List.append_nil _
  refine ⟨_, _, hread, hread, fun hsame => ?_⟩
  obtain ⟨frame, hfeed, -, hlong⟩ := feedAll_line Limits.frame hnewline hpieces
  have hsize : Limits.frame < (filled 8191 504).render.utf8ByteSize + 2 := by
    rw [utf8ByteSize_render_filled]
    decide
  obtain ⟨n, -, hframe⟩ := hlong hsize
  have hfirst := (congrArg Prod.fst hfeed).symm.trans hsame
  rw [List.singleton_inj, hframe] at hfirst
  exact absurd hfirst (by simp)

end Framer

end Irc
