/-
What the lines of a request say.

A line begins with the word of its command, so lines of different commands differ.  Two
kinds of line matter for a connection that opens: the one that ends the negotiation, and
those that carry a part of a login.

* **`frontWord_of_mem_lines`** — the command word stands at the front of each line;
* **`neutral_of_mem_lines`** — only the requests for it end a negotiation or log in;
* **`Request.lines_single`** — a command that is not split has one line or none;
* **`Request.lines_of_checkMiddle`**, **`Request.lines_of_text`** — a command with one parameter has
  its line if there is room;
* **`lines_user`**, **`lines_pong`**, **`lines_ping`**, **`lines_capEnd`** — what these requests
  say;
* **`parse_pingLine`** — a request for a sign of life is read back;
* **`lines_credentials`** — every part of a response fits into a line.
-/
import Irc.Proofs.Lines
import Irc.Proofs.Payloads
import Irc.Proofs.ReadBack

namespace Irc.Outgoing

open Text Message

/-- The command word at the front of a line. -/
def frontWord (line : String) : String := String.ofList (line.toList.takeWhile Char.isAlphanum)

/-- The line that ends a negotiation. -/
def capEndLine : String := "CAP END\r\n"

/-- The line that carries a part of a login. -/
def authenticateLine (payload : String) : String := "AUTHENTICATE " ++ payload ++ "\r\n"

/-- Whether a line carries a part of a login. -/
def isAuthenticate (line : String) : Bool := frontWord line = "AUTHENTICATE"

/-- A line that neither ends a negotiation nor carries a part of a login. -/
def Neutral (line : String) : Prop := line ≠ capEndLine ∧ isAuthenticate line = false

/-- Whether a request has nothing to do with the end of a negotiation or with a login. -/
def Request.isNeutral : Request → Bool
  | capEnd | authenticate _ | raw _ _ _ => false
  | _ => true

variable {r : Request} {c : Command} {line : String}

/-! ### The front of a line -/

theorem frontWord_lineText {verb : String} (hword : isCommandWord verb = true)
    (middles : List String) (piece : Option String) :
    frontWord (lineText verb middles piece) = verb := by
  have hend : ("\r\n" : String).toList = ['\r', '\n'] := by decide
  have hstops : Stops Char.isAlphanum (renderArgs middles piece ++ ['\r', '\n']) := by
    rcases renderArgs_eq_nil_or middles piece with hnil | hspace
    · rw [hnil]
      exact Stops.cons (by decide) _
    · obtain ⟨rest, hrest⟩ := List.head?_eq_some_iff.mp hspace
      rw [hrest]
      exact Stops.cons (by decide) _
  rw [frontWord, lineText_eq_render, String.toList_append, toList_render_lineMessage, hend,
    List.append_assoc, takeWhile_append (isCommandWord_iff.mp hword).2 hstops, String.ofList_toList]

/-- A line of a request is that of its command with a piece of the trailing parameter. -/
theorem Request.built_of_mem_lines (hc : r.command = .ok c) (h : line ∈ r.lines) :
    ∃ carried piece, Built c.verb c.middles c.trailing carried ∧ piece ∈ carried ∧
      line = lineText c.verb c.middles piece := by
  obtain ⟨c', lines, hc', hlines, hline⟩ := mem_lines h
  obtain rfl := Except.ok.inj (hc.symm.trans hc')
  obtain ⟨carried, hbuilt, rfl⟩ := c.built_of_lines hlines
  obtain ⟨piece, hpiece, rfl⟩ := List.mem_map.mp hline
  exact ⟨carried, piece, hbuilt, hpiece, rfl⟩

/-- The command word stands at the front of each line. -/
theorem frontWord_of_mem_lines (hc : r.command = .ok c) (h : line ∈ r.lines) :
    frontWord line = c.verb := by
  obtain ⟨carried, piece, hbuilt, -, rfl⟩ := Request.built_of_mem_lines hc h
  exact frontWord_lineText hbuilt.word c.middles piece

/-- Only one command is written out as the line that ends a negotiation. -/
theorem eq_of_capEndLine_mem (hc : r.command = .ok c) (h : capEndLine ∈ r.lines) :
    c.verb = "CAP" ∧ c.middles = ["END"] := by
  -- lines are read back as their commands, so no two commands share a line
  have hread : parse capEndLine = .ok (lineMessage "CAP" ["END"] none) := by decide +kernel
  obtain ⟨carried, piece, hbuilt, hpiece, hline⟩ := Request.built_of_mem_lines hc h
  have hparse := hbuilt.parse_lineText hpiece
  rw [← hline, hread, (sound_of_command hc).upper] at hparse
  split_ifs at hparse
  simp only [lineMessage, Except.ok.injEq, Message.mk.injEq] at hparse
  exact ⟨hparse.2.2.1.symm, hparse.2.2.2.1.symm⟩

/-- **Only the requests for it end a negotiation or log in.** -/
theorem neutral_of_mem_lines (hr : r.isNeutral = true) (h : line ∈ r.lines) : Neutral line := by
  obtain ⟨c, -, hc, -, -⟩ := Request.mem_lines h
  have hcommand : c.verb ≠ "AUTHENTICATE" ∧ ¬ (c.verb = "CAP" ∧ c.middles = ["END"]) := by
    -- the words and parameters of a command do not depend on how its checks come out
    revert c
    show Yields (fun c => c.verb ≠ "AUTHENTICATE" ∧ ¬ (c.verb = "CAP" ∧ c.middles = ["END"]))
      r.command
    cases r with
    | raw verb middles trailing => exact absurd hr (by simp [Request.isNeutral])
    | capEnd => exact absurd hr (by simp [Request.isNeutral])
    | authenticate payload => exact absurd hr (by simp [Request.isNeutral])
    | join channel key => cases key <;> simp [Request.command, Request.single]
    | _ => simp [Request.command, Request.single, Request.talk, Request.ctcp]
  constructor
  · rintro rfl
    exact hcommand.2 (eq_of_capEndLine_mem hc h)
  · rw [isAuthenticate, frontWord_of_mem_lines hc h]
    exact decide_eq_false hcommand.1

/-! ### Commands that go out in one line -/

/-- There is room for a command with its middle parameters, and for its trailing parameter. -/
def HasRoom (verb : String) (middles : List String) (trailing : Option String) : Prop :=
  headBytes verb middles + 2 ≤ Limits.outgoing ∧
    (trailing.getD "").utf8ByteSize ≤ roomBehind (headText verb middles)

instance (verb : String) (middles : List String) (trailing : Option String) :
    Decidable (HasRoom verb middles trailing) := inferInstanceAs (Decidable (_ ∧ _))

/-- A command that is not split is written out if there is room. -/
theorem Request.built_of_single {verb : String} {middles : List String} {trailing : Option String}
    (hc : r.command = .ok (single verb middles trailing)) :
    Built verb middles trailing [trailing] ↔ HasRoom verb middles trailing := by
  have hsound := sound_of_command hc
  constructor
  · intro h
    refine ⟨h.head, ?_⟩
    cases trailing with
    | none => exact Nat.zero_le _
    | some text =>
      obtain ⟨pieces, hpieces, hsome⟩ := h.carries
      have hmem : some text ∈ pieces.map some := hsome ▸ List.mem_singleton_self _
      exact hpieces.fits text (by simpa using hmem)
  · rintro ⟨hhead, hroom⟩
    refine ⟨hsound.word, hsound.placeable, hhead, hsound.unbroken, ?_⟩
    cases trailing with
    | none => rfl
    | some text => exact ⟨[text], Pieces.self hroom, rfl⟩

/-- **A command that is not split** has its line if there is room, and none otherwise. -/
theorem Request.lines_single {verb : String} {middles : List String} {trailing : Option String}
    (hc : r.command = .ok (single verb middles trailing)) :
    r.lines = if HasRoom verb middles trailing then [lineText verb middles trailing] else [] := by
  have hbuilt := built_of_single hc
  rw [Request.lines, hc]
  simp only [Command.lines, single, Bool.false_eq_true, if_false]
  split_ifs with hroom
  · rw [buildSingle_eq_ok_iff.mpr ⟨hbuilt.mpr hroom, rfl⟩]
  · cases hline : buildSingle verb middles trailing with
    | error err => rfl
    | ok line => exact absurd (hbuilt.mp (buildSingle_eq_ok_iff.mp hline).1) hroom

/-- The line of a command with one parameter. -/
def paramLine (verb param : String) : String := verb ++ " " ++ param ++ "\r\n"

theorem utf8ByteSize_paramLine (verb param : String) :
    (paramLine verb param).utf8ByteSize = verb.utf8ByteSize + param.utf8ByteSize + 3 := by
  have hspace : (" " : String).utf8ByteSize = 1 := by decide
  have hend : ("\r\n" : String).utf8ByteSize = 2 := by decide
  rw [paramLine, String.utf8ByteSize_append, String.utf8ByteSize_append,
    String.utf8ByteSize_append, hspace, hend]
  omega

/-- A command with one parameter is sent if the parameter may stand between spaces and there is
room for it. -/
theorem Request.lines_of_checkMiddle (verb : String) {what param : String}
    (hr : r.command = checkMiddle param what >>= fun param => .ok (single verb [param] none)) :
    r.lines =
      if Placeable param ∧ (paramLine verb param).utf8ByteSize ≤ Limits.outgoing then
        [paramLine verb param] else [] := by
  by_cases hplace : Placeable param
  · have hroom : HasRoom verb [param] none ↔
        Placeable param ∧ (paramLine verb param).utf8ByteSize ≤ Limits.outgoing := by
      have hnone : (Option.getD none "").utf8ByteSize ≤ roomBehind (headText verb [param]) :=
        Nat.zero_le _
      rw [HasRoom, headBytes, List.map_singleton, List.sum_singleton, and_iff_left hnone,
        and_iff_right hplace, utf8ByteSize_paramLine]
      omega
    have hline : lineText verb [param] none = paramLine verb param := by
      rw [lineText, headText_cons, headText_nil, paramLine]
    rw [checkMiddle_eq_ok_iff.mpr ⟨hplace, rfl⟩] at hr
    rw [lines_single hr, hline]
    exact if_congr hroom rfl rfl
  · rw [if_neg fun h => hplace h.1, Request.lines, hr]
    cases hparam : checkMiddle param what with
    | error err => rfl
    | ok param => exact absurd (checkMiddle_eq_ok_iff.mp hparam).1 hplace

/-- The line that gives the name of a user. -/
def userLine (username realname : String) : String :=
  "USER " ++ username ++ " 0 * :" ++ realname ++ "\r\n"

theorem utf8ByteSize_userLine (username realname : String) :
    (userLine username realname).utf8ByteSize =
      username.utf8ByteSize + realname.utf8ByteSize + 13 := by
  have hverb : ("USER " : String).utf8ByteSize = 5 := by decide
  have hfixed : (" 0 * :" : String).utf8ByteSize = 6 := by decide
  have hend : ("\r\n" : String).utf8ByteSize = 2 := by decide
  rw [userLine, String.utf8ByteSize_append, String.utf8ByteSize_append,
    String.utf8ByteSize_append, String.utf8ByteSize_append, hverb, hfixed, hend]
  omega

/-- The names of a user are sent if they may stand in a line and there is room for them. -/
theorem lines_user {username realname : String} (hrealname : realname ≠ "") :
    (Request.user username realname).lines =
      if Placeable username ∧ lineBreaker? realname = none ∧
          (userLine username realname).utf8ByteSize ≤ Limits.outgoing then
        [userLine username realname] else [] := by
  by_cases hsound : Placeable username ∧ lineBreaker? realname = none
  · have hcommand : (Request.user username realname).command =
        .ok (Request.single "USER" [username, "0", "*"] (some realname)) := by
      rw [Request.command, (checkPresent_eq_ok_iff (u := ())).mpr hrealname,
        checkMiddle_eq_ok_iff.mpr ⟨hsound.1, rfl⟩, checkText_eq_ok_iff.mpr ⟨hsound.2, rfl⟩]
      rfl
    have hroom : HasRoom "USER" [username, "0", "*"] (some realname) ↔
        Placeable username ∧ lineBreaker? realname = none ∧
          (userLine username realname).utf8ByteSize ≤ Limits.outgoing := by
      have hhead : headBytes "USER" [username, "0", "*"] = username.utf8ByteSize + 9 := by
        show 4 + (username.utf8ByteSize + 1 + 4) = _
        omega
      -- a name that is not empty takes a byte, so there is room for its mark
      have hpos : realname.utf8ByteSize ≠ 0 := by
        rw [ne_eq, String.utf8ByteSize_eq_zero_iff]
        exact hrealname
      rw [HasRoom, roomBehind, utf8ByteSize_headText, hhead, and_iff_right hsound.1,
        and_iff_right hsound.2, utf8ByteSize_userLine]
      show _ ≤ 462 ∧ realname.utf8ByteSize ≤ 462 - _ ↔ _ ≤ 462
      omega
    have hline : lineText "USER" [username, "0", "*"] (some realname) =
        userLine username realname := by
      simp [lineText, headText, userLine, String.append_assoc]
    rw [Request.lines_single hcommand, hline]
    exact if_congr hroom rfl rfl
  · rw [if_neg fun h => hsound ⟨h.1, h.2.1⟩, Request.lines]
    cases hc : (Request.user username realname).command with
    | error err => rfl
    | ok c =>
      have hchecked : Yields (fun _ => Placeable username ∧ lineBreaker? realname = none)
          (Request.user username realname).command := by
        simp +contextual [Request.command]
      exact absurd (hchecked c hc) hsound

/-- The line of a command whose one parameter is a text. -/
def textLine (verb text : String) : String := verb ++ " :" ++ text ++ "\r\n"

theorem utf8ByteSize_textLine (verb text : String) :
    (textLine verb text).utf8ByteSize = verb.utf8ByteSize + text.utf8ByteSize + 4 := by
  have hmark : (" :" : String).utf8ByteSize = 2 := by decide
  have hend : ("\r\n" : String).utf8ByteSize = 2 := by decide
  rw [textLine, String.utf8ByteSize_append, String.utf8ByteSize_append,
    String.utf8ByteSize_append, hmark, hend]
  omega

/-- A command whose one parameter is a text is sent if there is room for it. -/
theorem Request.lines_of_text {verb text : String}
    (hr : r.command = .ok (single verb [] (some text)))
    (hverb : verb.utf8ByteSize + 4 ≤ Limits.outgoing) :
    r.lines =
      if (textLine verb text).utf8ByteSize ≤ Limits.outgoing then [textLine verb text] else [] := by
  have hroom : HasRoom verb [] (some text) ↔
      (textLine verb text).utf8ByteSize ≤ Limits.outgoing := by
    rw [HasRoom, roomBehind, utf8ByteSize_headText, headBytes, List.map_nil, List.sum_nil,
      utf8ByteSize_textLine]
    show _ ∧ text.utf8ByteSize ≤ _ ↔ _
    omega
  have hline : lineText verb [] (some text) = textLine verb text := by
    rw [lineText, headText_nil, textLine]
  rw [lines_single hr, hline]
  exact if_congr hroom rfl rfl

/-- The line that answers a request for a sign of life. -/
def pongLine (token : String) : String := "PONG :" ++ token ++ "\r\n"

theorem utf8ByteSize_pongLine (token : String) :
    (pongLine token).utf8ByteSize = token.utf8ByteSize + 8 := by
  have hverb : ("PONG" : String).utf8ByteSize = 4 := by decide
  have hsize := utf8ByteSize_textLine "PONG" token
  rw [hverb] at hsize
  show (textLine "PONG" token).utf8ByteSize = _
  omega

/-- A token that does not break the line is sent back if there is room for it. -/
theorem lines_pong {token : String} (htoken : lineBreaker? token = none) :
    (Request.pong token).lines =
      if (pongLine token).utf8ByteSize ≤ Limits.outgoing then [pongLine token] else [] := by
  have hcommand : (Request.pong token).command =
      .ok (Request.single "PONG" [] (some token)) := by
    rw [Request.command, checkText_eq_ok_iff.mpr ⟨htoken, rfl⟩]
    rfl
  have hline : textLine "PONG" token = pongLine token := rfl
  rw [Request.lines_of_text hcommand (by decide), hline]

/-- The line that asks for a sign of life. -/
def pingLine (token : Nat) : String := "PING :" ++ toString token ++ "\r\n"

theorem command_ping (token : Nat) :
    (Request.ping (toString token)).command =
      .ok (Request.single "PING" [] (some (toString token))) := by
  rw [Request.command, checkPresent, if_neg (number_ne_empty token),
    checkText_eq_ok_iff.mpr ⟨lineBreaker?_number token, rfl⟩]
  rfl

/-- A number of 64 bits is sent. -/
theorem lines_ping {token : Nat} (htoken : token < UInt64.size) :
    (Request.ping (toString token)).lines = [pingLine token] := by
  have hfits : (textLine "PING" (toString token)).utf8ByteSize ≤ Limits.outgoing := by
    have hverb : ("PING" : String).utf8ByteSize = 4 := by decide
    have houtgoing : Limits.outgoing = 462 := by decide
    have hnumber := utf8ByteSize_number htoken
    rw [utf8ByteSize_textLine]
    omega
  rw [Request.lines_of_text (command_ping token) (by decide), if_pos hfits]
  rfl

/-- It is read back with its token. -/
theorem parse_pingLine {token : Nat} (htoken : token < UInt64.size) :
    parse (pingLine token) = .ok { command := "PING", trailing := some (toString token) } := by
  have hroom : HasRoom "PING" [] (some (toString token)) := by
    by_contra hnone
    have hlines := lines_ping htoken
    rw [Request.lines_single (command_ping token), if_neg hnone] at hlines
    exact absurd hlines (by simp)
  have hline : pingLine token = lineText "PING" [] (some (toString token)) := by
    rw [lineText, headText_nil, pingLine]
    rfl
  rw [hline, ((Request.built_of_single (command_ping token)).mpr hroom).parse_lineText
    (List.mem_singleton_self _), if_pos (by decide)]
  rfl

/-! ### The end of a negotiation and a login -/

theorem lines_capEnd : Request.capEnd.lines = [capEndLine] := by
  decide +kernel

/-- A payload that may stand in a line and is not too long is sent. -/
theorem lines_authenticate {payload : String} (hplace : Placeable payload)
    (hlength : payload.utf8ByteSize ≤ 447) :
    (Request.authenticate payload).lines = [authenticateLine payload] := by
  have hfits : (paramLine "AUTHENTICATE" payload).utf8ByteSize ≤ Limits.outgoing := by
    have hverb : ("AUTHENTICATE" : String).utf8ByteSize = 12 := by decide
    have houtgoing : Limits.outgoing = 462 := by decide
    rw [utf8ByteSize_paramLine]
    omega
  have hlines : (Request.authenticate payload).lines = _ :=
    Request.lines_of_checkMiddle "AUTHENTICATE" rfl
  rw [hlines, if_pos ⟨hplace, hfits⟩]
  rfl

theorem lines_authenticate_plain :
    (Request.authenticate "PLAIN").lines = [authenticateLine "PLAIN"] :=
  lines_authenticate (by rw [Placeable]; decide) (by decide)

/-- Every part of a response is sent. -/
theorem lines_credentials (account password : String) :
    ((Sasl.credentials account password).flatMap fun payload =>
        (Request.authenticate payload).lines) =
      (Sasl.credentials account password).map authenticateLine := by
  rw [List.map_eq_flatMap]
  refine List.flatMap_congr fun payload hpayload => ?_
  obtain ⟨hplace, hlength⟩ := Sasl.of_mem_credentials hpayload
  exact lines_authenticate hplace (hlength.trans (by decide))

theorem isAuthenticate_authenticateLine (payload : String) :
    isAuthenticate (authenticateLine payload) = true := by
  have hline : authenticateLine payload = lineText "AUTHENTICATE" [payload] none := by
    simp [authenticateLine, lineText, headText]
  rw [isAuthenticate, hline, frontWord_lineText (by decide)]
  exact decide_eq_true rfl

end Irc.Outgoing
