/-
Lines that are sent can be read.

A line of a command is the written form of a message that has no tags and no source,
with a line end behind it.  So the grammar says how it is read, and the one limit of
reading that building does not keep is the one on the number of middle parameters.

* **`lineText_eq_render`** — a line is a written message;
* **`Built.unbroken_render`**, **`Built.utf8ByteSize_lineText_le`** — what is built is
  one short line;
* **`Built.parse_lineText`** — what is built is read back, unless it has too many
  middle parameters;
* **`parse_lines_of_request`** — the lines of a request are read back as its command.
-/
import Irc.Proofs.Requests

namespace Irc.Message

open Text

/-- A line end makes no difference to what is read. -/
theorem parse_append_lineEnd (line : String) : parse (line ++ "\r\n") = parse line := by
  have hcrlf : ("\r\n" : String).toList = ['\r'] ++ ['\n'] := by decide
  rw [parse, parse, String.toList_append, hcrlf, ← List.append_assoc, trimEnd_eq_rdropWhile,
    trimEnd_eq_rdropWhile, List.rdropWhile_concat_pos _ _ _ (by decide),
    List.rdropWhile_concat_pos _ _ _ (by decide)]

/-- A line with a layout is read as the limits allow. -/
theorem parse_of_layout {l : Layout} {line : String} (hl : l.WellFormed)
    (hline : l.text = line.toList) (hunbroken : ∀ c ∈ l.text, Unbroken c) :
    parse line = (checkLimits l.sections).map fun _ => l.message := by
  rw [parse, ← hline, trimEnd_of_unbroken hunbroken, parseChars, if_neg hl.not_all_isBlank,
    find?_isLineBreaker_eq_none_iff.mpr hunbroken]
  simp only [hl.splitSections_text, Layout.ofSections_sections]
  cases checkLimits l.sections <;> rfl

end Irc.Message

namespace Irc.Outgoing

open Text Message

variable {command : String} {middles : List String} {trailing piece : Option String}
  {carried : List (Option String)}

/-! ### A line is a written message -/

theorem toList_headText (command : String) (middles : List String) :
    (headText command middles).toList = command.toList ++ middles.flatMap (' ' :: ·.toList) := by
  induction middles generalizing command with
  | nil => rw [headText_nil, List.flatMap_nil, List.append_nil]
  | cons param rest ih =>
    have hspace : (" " : String).toList = [' '] := by decide
    rw [headText_cons, ih, String.toList_append, String.toList_append, hspace,
      List.flatMap_cons, List.append_assoc, List.append_assoc]
    rfl

/-- The message of a command with a piece of its trailing parameter. -/
def lineMessage (command : String) (middles : List String) (piece : Option String) : Message :=
  { command := command, middles := middles, trailing := piece }

theorem toList_render_lineMessage (command : String) (middles : List String)
    (piece : Option String) :
    (lineMessage command middles piece).render.toList =
      command.toList ++ renderArgs middles piece := by
  rw [render, String.toList_ofList]
  rfl

/-- **A line is a written message** with a line end behind it. -/
theorem lineText_eq_render (command : String) (middles : List String) (piece : Option String) :
    lineText command middles piece = (lineMessage command middles piece).render ++ "\r\n" := by
  have hmark : (" :" : String).toList = [' ', ':'] := by decide
  rw [← String.toList_inj, String.toList_append, toList_render_lineMessage]
  cases piece with
  | none => simp [lineText, toList_headText, renderArgs]
  | some t => simp [lineText, toList_headText, renderArgs, hmark]

/-! ### What is built is one short line -/

/-- What is taken for a middle parameter is what can be read as one. -/
theorem placeable_iff_standalone {param : String} : Placeable param ↔ Standalone param := by
  rw [Placeable, lineBreaker?, find?_isLineBreaker_eq_none_iff]
  simp only [isMiddle, Bool.and_eq_true, decide_eq_true_eq, Bool.not_eq_true',
    List.contains_eq_mem, decide_eq_false_iff_not]
  constructor
  · rintro ⟨⟨⟨hne, hcolon⟩, hspace⟩, hunbroken⟩
    exact ⟨hne, hcolon, fun c hc => ⟨fun hc' => hspace (hc' ▸ hc), hunbroken c hc⟩⟩
  · rintro ⟨hne, hcolon, hchars⟩
    exact ⟨⟨⟨hne, hcolon⟩, fun hspace => (hchars ' ' hspace).1 rfl⟩, fun c hc => (hchars c hc).2⟩

/-- A piece that is carried fits behind the head, and is made of the text. -/
theorem Carries.of_mem {room : Nat} {t : String} (h : Carries room trailing carried)
    (ht : some t ∈ carried) :
    t.utf8ByteSize ≤ room ∧ ∃ text, trailing = some text ∧ ∀ c ∈ t.toList, c ∈ text.toList := by
  cases trailing with
  | none =>
    rw [show carried = [none] from h, List.mem_singleton] at ht
    exact absurd ht (by simp)
  | some text =>
    obtain ⟨pieces, hpieces, rfl⟩ := h
    obtain ⟨t', ht', heq⟩ := List.mem_map.mp ht
    rw [Option.some_inj] at heq
    subst heq
    refine ⟨hpieces.fits _ ht', text, rfl, fun c hc => ?_⟩
    rw [← hpieces.join, String.toList_join]
    exact List.mem_flatMap.mpr ⟨_, ht', hc⟩

namespace Built

theorem standalone (h : Built command middles trailing carried) :
    ∀ param ∈ middles, Standalone param :=
  fun param hparam => placeable_iff_standalone.mp (h.placeable param hparam)

/-- A line goes over the budget by no more than the mark of an empty text. -/
theorem utf8ByteSize_lineText_le (h : Built command middles trailing carried)
    (hpiece : piece ∈ carried) :
    (lineText command middles piece).utf8ByteSize ≤ Limits.outgoing + 2 := by
  have hhead := h.head
  cases piece with
  | none =>
    rw [utf8ByteSize_lineText_none]
    omega
  | some t =>
    obtain ⟨hroom, -⟩ := h.carries.of_mem hpiece
    rw [roomBehind, utf8ByteSize_headText] at hroom
    rw [utf8ByteSize_lineText_some]
    omega

/-- Nothing in front of its line end breaks a line apart. -/
theorem unbroken_render (h : Built command middles trailing carried) (hpiece : piece ∈ carried) :
    ∀ c ∈ (lineMessage command middles piece).render.toList, Unbroken c := by
  intro c hc
  rw [toList_render_lineMessage, List.mem_append, mem_renderArgs] at hc
  rcases hc with hc | ⟨param, hparam, rfl | hc⟩ | ⟨t, rfl, rfl | rfl | hc⟩
  · have halnum := (isCommandWord_iff.mp h.word).2 c hc
    exact ⟨isAlphanum_ne halnum (by decide), isAlphanum_ne halnum (by decide),
      isAlphanum_ne halnum (by decide)⟩
  · decide
  · exact ((h.standalone param hparam).2.2 c hc).2
  · decide
  · decide
  · obtain ⟨-, text, htext, hmem⟩ := h.carries.of_mem hpiece
    exact find?_isLineBreaker_eq_none_iff.mp (h.unbroken text htext) c (hmem c hc)

/-! ### What is built is read back -/

theorem wellFormed_printed (h : Built command middles trailing carried) (piece : Option String) :
    (printed (lineMessage command middles piece)).WellFormed where
  tags := fun t ht => absurd ht (by simp [printed, lineMessage])
  gap := fun c hc => absurd hc (by simp [printed, lineMessage])
  source := fun p v hsource => absurd hsource (by simp [printed, lineMessage])
  command_ne := (isCommandWord_iff.mp h.word).1
  command := (isCommandWord_iff.mp h.word).2
  args := renderArgs_eq_nil_or middles piece

theorem message_printed (h : Built command middles trailing carried) (piece : Option String) :
    (printed (lineMessage command middles piece)).message =
      lineMessage (upper command) middles piece := by
  have hcommand : String.ofList (printed (lineMessage command middles piece)).command = command :=
    String.ofList_toList
  rw [Layout.message, middles_printed h.standalone, trailing_printed h.standalone, hcommand]
  rfl

/-- Of the limits, only the one on middle parameters is not kept by all that is built. -/
theorem checkLimits_printed (h : Built command middles trailing carried)
    (hpiece : piece ∈ carried) :
    checkLimits (printed (lineMessage command middles piece)).sections =
      if middles.length ≤ Limits.middles then .ok ()
      else .error (.tooManyMiddles Limits.middles middles.length) := by
  have hend : ("\r\n" : String).utf8ByteSize = 2 := by decide
  have hline := h.utf8ByteSize_lineText_le hpiece
  rw [lineText_eq_render, String.utf8ByteSize_append, hend, ← byteLength_toList,
    ← text_printed] at hline
  have hbody : byteLength (printed (lineMessage command middles piece)).body ≤ Limits.body :=
    (Nat.le_of_add_le_add_right hline).trans (by decide)
  have hlength : (printed (lineMessage command middles piece)).middles.length = middles.length :=
    length_middles_printed h.standalone
  rw [checkLimits]
  simp only [Layout.sections, hlength]
  rw [if_neg (by simp [printed, lineMessage]), if_neg (Nat.not_lt.mpr hbody)]
  by_cases hmiddles : middles.length ≤ Limits.middles
  · rw [if_neg (Nat.not_lt.mpr hmiddles), if_pos hmiddles]
  · rw [if_pos (Nat.not_le.mp hmiddles), if_neg hmiddles]

/-- **What is built is read back**, unless it has too many middle parameters. -/
theorem parse_lineText (h : Built command middles trailing carried) (hpiece : piece ∈ carried) :
    parse (lineText command middles piece) =
      if middles.length ≤ Limits.middles then .ok (lineMessage (upper command) middles piece)
      else .error (.tooManyMiddles Limits.middles middles.length) := by
  have htext := text_printed (lineMessage command middles piece)
  rw [lineText_eq_render, parse_append_lineEnd, parse_of_layout (h.wellFormed_printed piece) htext
    (htext ▸ h.unbroken_render hpiece), h.checkLimits_printed hpiece, h.message_printed]
  split_ifs <;> rfl

end Built

/-! ### The lines of a request -/

/-- The lines of a command carry its trailing parameter, whether split or not. -/
theorem Command.built_of_lines {c : Command} {lines : List String} (h : c.lines = .ok lines) :
    ∃ carried, Built c.verb c.middles c.trailing carried ∧
      lines = carried.map (lineText c.verb c.middles) := by
  rw [Command.lines] at h
  split_ifs at h
  · exact buildSplit_eq_ok h
  · split at h
    · exact absurd h (by simp)
    rename_i line hline
    obtain ⟨hbuilt, rfl⟩ := buildSingle_eq_ok hline
    exact ⟨[c.trailing], hbuilt, (Except.ok.inj h).symm⟩

/-- **The lines of a request are read back as its command**, each with its piece of the
trailing parameter.  A request with too many middle parameters is written out as well,
but none of its lines is read. -/
theorem parse_lines_of_request {r : Request} {c : Command} {lines : List String}
    (hc : r.command = .ok c) (hlines : c.lines = .ok lines) :
    ∃ carried, Carries (roomBehind (headText c.verb c.middles)) c.trailing carried ∧
      lines = carried.map (lineText c.verb c.middles) ∧
        ∀ piece ∈ carried, parse (lineText c.verb c.middles piece) =
          if r.isOverfull then .error (.tooManyMiddles Limits.middles c.middles.length)
          else .ok { command := c.verb, middles := c.middles, trailing := piece } := by
  obtain ⟨carried, hbuilt, rfl⟩ := c.built_of_lines hlines
  refine ⟨carried, hbuilt.carries, rfl, fun piece hpiece => ?_⟩
  have hoverfull := length_middles_iff_isOverfull hc
  rw [hbuilt.parse_lineText hpiece, (sound_of_command hc).upper]
  by_cases hmiddles : c.middles.length ≤ Limits.middles
  · rw [if_pos hmiddles, if_neg fun h => absurd (hoverfull.mpr h) (Nat.not_lt.mpr hmiddles)]
    rfl
  · rw [if_neg hmiddles, if_pos (hoverfull.mp (Nat.not_le.mp hmiddles))]

theorem parse_lines_of_request_kick :
    ∃ c line, (Request.kick "#c" "nick" (some ": bye ")).command = .ok c ∧
      c.lines = .ok [line] ∧ ∃ carried : List (Option String),
        [line] = carried.map (lineText "KICK" ["#c", "nick"]) ∧
          ∀ piece ∈ carried, parse (lineText "KICK" ["#c", "nick"] piece) =
            .ok { command := "KICK", middles := ["#c", "nick"], trailing := piece } := by
  have hcommand : (Request.kick "#c" "nick" (some ": bye ")).command =
      .ok ⟨"KICK", ["#c", "nick"], some ": bye ", false⟩ := by
    decide +kernel
  have hlines : Command.lines ⟨"KICK", ["#c", "nick"], some ": bye ", false⟩ =
      .ok ["KICK #c nick :: bye \r\n"] := by
    decide +kernel
  obtain ⟨carried, -, hcarried, hparse⟩ := parse_lines_of_request hcommand hlines
  exact ⟨_, _, hcommand, hlines, carried, hcarried, hparse⟩

/-- A request whose command is written out, and not read. -/
theorem unread_of_fifteen_middles :
    ∃ c line, (Request.mode "#c" (List.replicate 14 "+i")).command = .ok c ∧
      c.lines = .ok [line] ∧ ∀ m, parse line ≠ .ok m := by
  have hcommand : (Request.mode "#c" (List.replicate 14 "+i")).command =
      .ok ⟨"MODE", "#c" :: List.replicate 14 "+i", none, false⟩ := by
    decide +kernel
  have hlines : Command.lines ⟨"MODE", "#c" :: List.replicate 14 "+i", none, false⟩ =
      .ok ["MODE #c +i +i +i +i +i +i +i +i +i +i +i +i +i +i\r\n"] := by
    decide +kernel
  have hparse : parse "MODE #c +i +i +i +i +i +i +i +i +i +i +i +i +i +i\r\n" =
      .error (.tooManyMiddles 14 15) := by
    decide +kernel
  refine ⟨_, _, hcommand, hlines, fun m hm => ?_⟩
  rw [hparse] at hm
  exact absurd hm (by simp)

end Irc.Outgoing
