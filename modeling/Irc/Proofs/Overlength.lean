/-
Commands that are too long to be written out.

The commands that requests come to are checked before, so that nothing but their length can keep
them from being written out.  `Command.TooLong` says which part of a command has no room and what
the error then is: the word, the first middle parameter that goes over the budget, the text of a
command that has to fit into one line, or one character of a text that may go out in several.

* **`draftHead_eq_error`**, **`exists_overflow`** — the first parameter without room;
* **`Command.Sound.lines_eq_error_iff`** — what a sound command fails with;
* **`Request.raw_of_long_verb`** — whose word is too long;
* **`fails_for_length`** — the commands of requests fail for their length alone.
-/
import Irc.Proofs.Building

namespace Irc.Outgoing

open Text

variable {command : String} {middles : List String} {d : Draft} {r : Request} {c : Command}
  {e : BuildError}

/-! ### The first parameter without room -/

theorem headBytes_append (command : String) (before after : List String) :
    headBytes command (before ++ after) =
      headBytes command before + (after.map (·.utf8ByteSize + 1)).sum := by
  rw [headBytes, headBytes, List.map_append, List.sum_append, Nat.add_assoc]

theorem Draft.addMiddles_append {d' : Draft} {before : List String}
    (h : d.addMiddles before = .ok d') (after : List String) :
    d.addMiddles (before ++ after) = d'.addMiddles after := by
  induction before generalizing d with
  | nil =>
    obtain rfl := Except.ok.inj h
    rfl
  | cons param rest ih =>
    obtain ⟨next, hnext, hrest⟩ := addMiddles_cons.mp h
    rw [List.cons_append, addMiddles, hnext]
    exact ih hrest

theorem Draft.addMiddle_of_full {param : String} (hparam : Placeable param)
    (hfull : d.budget < d.expectedLength + 1 + param.utf8ByteSize) :
    d.addMiddle param = .error (.middleDoesNotFit param d.budget) := by
  rw [addMiddle, if_neg (by simp [hparam.1]), hparam.2]
  exact if_pos (by simp [hfull])

/-- A head fails at the first parameter for which there is no room. -/
theorem draftHead_eq_error {before after : List String} {param : String}
    (hd : draftHead command before = .ok d) (hparam : Placeable param)
    (hfull : Limits.outgoing < headBytes command (before ++ [param]) + 2) :
    draftHead command (before ++ param :: after) =
      .error (.middleDoesNotFit param Limits.outgoing) := by
  have hnext : d.addMiddle param = .error (.middleDoesNotFit param Limits.outgoing) := by
    obtain ⟨-, -, -, rfl⟩ := draftHead_eq_ok_iff.mp hd
    refine Draft.addMiddle_of_full hparam ?_
    rw [headBytes_append, List.map_singleton, List.sum_singleton] at hfull
    rw [Draft.expectedLength, utf8ByteSize_headText]
    show Limits.outgoing < _
    omega
  rw [draftHead] at hd ⊢
  cases hstart : Draft.start command Limits.outgoing with
  | error e =>
    rw [hstart] at hd
    exact absurd hd (by simp)
  | ok first =>
    rw [hstart] at hd
    simp only [Draft.addMiddles_append hd, Draft.addMiddles, hnext]

/-- If there is room for the word but not for all parameters, there is a first one without. -/
theorem exists_overflow (hword : command.utf8ByteSize + 2 ≤ Limits.outgoing)
    (hfull : Limits.outgoing < headBytes command middles + 2) :
    ∃ before param after, middles = before ++ param :: after ∧
      headBytes command before + 2 ≤ Limits.outgoing ∧
        Limits.outgoing < headBytes command (before ++ [param]) + 2 := by
  induction middles using List.reverseRecOn with
  | nil => exact absurd hfull (by rw [headBytes]; simpa using hword)
  | append_singleton front last ih =>
    by_cases hfront : headBytes command front + 2 ≤ Limits.outgoing
    · exact ⟨front, last, [], rfl, hfront, hfull⟩
    · obtain ⟨before, param, after, rfl, hbefore, hparam⟩ := ih (Nat.lt_of_not_le hfront)
      exact ⟨before, param, after ++ [last], by simp, hbefore, hparam⟩

/-! ### What a sound command fails with -/

/-- A command of which some part has no room, with the error that says so. -/
inductive Command.TooLong (c : Command) : BuildError → Prop where
  | word (h : Limits.outgoing < c.verb.utf8ByteSize + 2) : c.TooLong (.invalidCommand c.verb)
  /-- The parameters before fit, and this one does not. -/
  | middle {before after : List String} {param : String}
      (hsplit : c.middles = before ++ param :: after)
      (hbefore : headBytes c.verb before + 2 ≤ Limits.outgoing)
      (h : Limits.outgoing < headBytes c.verb (before ++ [param]) + 2) :
      c.TooLong (.middleDoesNotFit param Limits.outgoing)
  /-- The text has to fit into one line, and does not. -/
  | text {text : String} (hone : c.splittable = false) (htext : c.trailing = some text)
      (hhead : headBytes c.verb c.middles + 2 ≤ Limits.outgoing)
      (h : roomBehind (headText c.verb c.middles) < text.utf8ByteSize) :
      c.TooLong (.trailingTooLong text.utf8ByteSize (roomBehind (headText c.verb c.middles)))
  /-- The text may go out in several lines, but one of its characters fits into none. -/
  | character {text : String} {x : Char} (hsplit : c.splittable = true)
      (htext : c.trailing = some text)
      (hhead : headBytes c.verb c.middles + 2 ≤ Limits.outgoing) (hx : x ∈ text.toList)
      (h : roomBehind (headText c.verb c.middles) < x.utf8Size) : c.TooLong .noRoomForTrailing

namespace Command

/-- The head of a sound command, if there is room for it. -/
theorem Sound.draftHead (hc : c.Sound) {before : List String}
    (hbefore : ∀ param ∈ before, param ∈ c.middles)
    (hhead : headBytes c.verb before + 2 ≤ Limits.outgoing) :
    Outgoing.draftHead c.verb before = .ok ⟨headText c.verb before, Limits.outgoing, false⟩ :=
  draftHead_eq_ok_iff.mpr
    ⟨hc.word, fun param hparam => hc.placeable param (hbefore param hparam), hhead, rfl⟩

/-- A command without a head is not written out. -/
theorem lines_of_head_error (h : Outgoing.draftHead c.verb c.middles = .error e) :
    c.lines = .error e := by
  rw [lines, buildSplit, buildSingle, h]
  split_ifs <;> rfl

/-- What is written out of a sound command with a text, if there is room for its head. -/
theorem Sound.lines_of_text (hc : c.Sound) {text : String} (htext : c.trailing = some text)
    (hhead : headBytes c.verb c.middles + 2 ≤ Limits.outgoing) :
    ∃ d : Draft, d.trailingRoom = roomBehind (headText c.verb c.middles) ∧
      c.lines =
        if c.splittable = true then d.linesOf (chunks d.trailingRoom text.toList)
        else if text.utf8ByteSize ≤ d.trailingRoom then .ok [(d.withTrailing text.toList).finish]
        else .error (.trailingTooLong text.utf8ByteSize d.trailingRoom) := by
  have hd := hc.draftHead (fun _ => id) hhead
  have hbreaker := hc.unbroken text htext
  refine ⟨_, trailingRoom_of_head hd, ?_⟩
  rw [lines, htext, buildSplit_of_head hd hbreaker, buildSingle_of_head hd hbreaker]
  split_ifs <;> rfl

/-- A command that is too long is not written out, and fails as it should. -/
theorem TooLong.lines_eq (hc : c.Sound) (h : c.TooLong e) : c.lines = .error e := by
  cases h with
  | word hlong =>
    refine lines_of_head_error ?_
    rw [Outgoing.draftHead, Draft.start, if_neg (by simp; omega)]
  | middle hsplit hbefore hfull =>
    refine lines_of_head_error ?_
    rw [hsplit]
    refine draftHead_eq_error (hc.draftHead (fun param hparam => ?_) hbefore) ?_ hfull
    · rw [hsplit]
      exact List.mem_append_left _ hparam
    · exact hc.placeable _ (hsplit ▸ List.mem_append_right _ List.mem_cons_self)
  | text hone htext hhead hlong =>
    obtain ⟨d, hroom, hlines⟩ := hc.lines_of_text htext hhead
    rw [hlines, hone, if_neg Bool.false_ne_true, hroom, if_neg (Nat.not_le.mpr hlong)]
  | character hsplit htext hhead hx hwide =>
    obtain ⟨d, hroom, hlines⟩ := hc.lines_of_text htext hhead
    rw [hlines, hsplit, if_pos rfl, hroom, chunks_eq_none_iff.mpr ⟨_, hx, hwide⟩]
    rfl

/-- A sound command that is not written out is too long. -/
theorem Sound.lines_or_tooLong (hc : c.Sound) :
    (∃ lines, c.lines = .ok lines) ∨ ∃ e, c.TooLong e := by
  -- the parts are written out from the left, so the first of them without room decides
  by_cases hword : c.verb.utf8ByteSize + 2 ≤ Limits.outgoing
  swap
  · exact .inr ⟨_, .word (Nat.lt_of_not_le hword)⟩
  by_cases hhead : headBytes c.verb c.middles + 2 ≤ Limits.outgoing
  swap
  · obtain ⟨before, param, after, hsplit, hbefore, hfull⟩ :=
      exists_overflow hword (Nat.lt_of_not_le hhead)
    exact .inr ⟨_, .middle hsplit hbefore hfull⟩
  cases htext : c.trailing with
  | none =>
    refine .inl ?_
    have hd := hc.draftHead (fun _ => id) hhead
    rw [lines, htext, buildSplit, buildSingle, hd]
    split_ifs <;> exact ⟨_, rfl⟩
  | some text =>
    obtain ⟨d, hroom, hlines⟩ := hc.lines_of_text htext hhead
    rw [hlines]
    cases hsplit : c.splittable with
    | true =>
      rw [if_pos rfl]
      by_cases hwide : ∃ x ∈ text.toList, d.trailingRoom < x.utf8Size
      · obtain ⟨x, hx, hwide⟩ := hwide
        exact .inr ⟨_, .character hsplit htext hhead hx (hroom ▸ hwide)⟩
      · refine .inl ((d.exists_linesOf_iff _).mpr fun x hx => ?_)
        exact Nat.le_of_not_lt fun h => hwide ⟨x, hx, h⟩
    | false =>
      rw [if_neg Bool.false_ne_true]
      split_ifs with hfits
      · exact .inl ⟨_, rfl⟩
      · exact .inr ⟨_, .text hsplit htext hhead (hroom ▸ Nat.lt_of_not_le hfits)⟩

/-- **What a sound command fails with.** -/
theorem Sound.lines_eq_error_iff (hc : c.Sound) : c.lines = .error e ↔ c.TooLong e := by
  refine ⟨fun h => ?_, fun h => h.lines_eq hc⟩
  rcases hc.lines_or_tooLong with ⟨lines, hlines⟩ | ⟨e', he'⟩
  · exact absurd (hlines.symm.trans h) (by simp)
  · exact Except.error.inj ((he'.lines_eq hc).symm.trans h) ▸ he'

end Command

/-! ### The commands of requests -/

theorem utf8ByteSize_upper {word : String} (h : isCommandWord word = true) :
    (upper word).utf8ByteSize = word.utf8ByteSize := by
  rw [upper, utf8ByteSize_ofList, ← byteLength_toList word]
  exact byteLength_map fun x hx =>
    (Message.toUpper_of_isAlphanum ((isCommandWord_iff.mp h).2 x hx)).2.2

/-- **Whose word is too long**: only one that the caller has chosen. -/
theorem Request.raw_of_long_verb (hc : r.command = .ok c)
    (h : Limits.outgoing < c.verb.utf8ByteSize + 2) :
    ∃ verb middles trailing, r = .raw verb middles trailing ∧ c.verb = upper verb ∧
      460 < verb.utf8ByteSize := by
  have hlimit : Limits.outgoing = 462 := rfl
  -- the words of all other requests are short
  have hshort : ∀ verb ∈ ["PASS", "NICK", "USER", "JOIN", "PART", "QUIT", "TOPIC", "KICK", "MODE",
      "INVITE", "NAMES", "WHOIS", "LIST", "AWAY", "PING", "PONG", "PRIVMSG", "NOTICE", "CAP",
      "AUTHENTICATE"], verb.utf8ByteSize + 2 ≤ Limits.outgoing := by
    decide
  simp only [List.forall_mem_cons] at hshort
  revert c
  show Yields (fun c => Limits.outgoing < c.verb.utf8ByteSize + 2 → _) r.command
  cases r with
  | raw verb middles trailing =>
    simp only [Request.command, Request.single, yields_checkPresent_bind, yields_ite,
      yields_error_bind, yields_checkMiddles_bind, yields_checkText?_bind, yields_ok]
    intro hne
    refine ⟨fun _ => trivial, fun hword _ _ hlong => ⟨verb, middles, trailing, rfl, rfl, ?_⟩⟩
    rw [Bool.not_eq_true', Bool.not_eq_false] at hword
    rw [utf8ByteSize_upper hword] at hlong
    omega
  | join channel key =>
    cases key <;> simp [Request.command, Request.single, hshort]
  | _ => simp [Request.command, Request.single, Request.talk, Request.ctcp, hshort]

/-- **The commands of requests fail for their length alone.** -/
theorem fails_for_length (hc : r.command = .ok c) :
    (∀ e, c.lines = .error e ↔ c.TooLong e) ∧
      ((∃ lines, c.lines = .ok lines) ∨
        (∃ param budget, c.lines = .error (.middleDoesNotFit param budget)) ∨
        c.lines = .error .noRoomForTrailing ∨
        (∃ length room, c.lines = .error (.trailingTooLong length room)) ∨
        ∃ verb middles trailing, r = .raw verb middles trailing ∧ 460 < verb.utf8ByteSize ∧
          c.lines = .error (.invalidCommand (upper verb))) ∧
      (∀ param, c.lines ≠ .error (.invalidMiddle param)) ∧
      ∀ x, c.lines ≠ .error (.illegalChar x) := by
  have hfails : ∀ e, c.lines = .error e ↔ c.TooLong e :=
    fun e => (sound_of_command hc).lines_eq_error_iff
  refine ⟨hfails, ?_, fun param h => ?_, fun x h => ?_⟩
  case refine_2 => cases (hfails _).mp h
  case refine_3 => cases (hfails _).mp h
  cases hlines : c.lines with
  | ok lines => exact .inl ⟨lines, rfl⟩
  | error e =>
    refine .inr ?_
    cases (hfails e).mp hlines with
    | word hlong =>
      obtain ⟨verb, middles, trailing, hr, hverb, hsize⟩ := Request.raw_of_long_verb hc hlong
      exact .inr (.inr (.inr ⟨verb, middles, trailing, hr, hsize, by rw [hverb]⟩))
    | middle => exact .inl ⟨_, _, rfl⟩
    | text => exact .inr (.inr (.inl ⟨_, _, rfl⟩))
    | character => exact .inr (.inl rfl)

/-- A word of 461 bytes is the one that is too long. -/
theorem fails_for_length_of_long_word :
    let long := String.ofList (List.replicate 461 'a')
    let upcased := String.ofList (List.replicate 461 'A')
    (Request.raw long ["x"] none).command = .ok ⟨upcased, ["x"], none, false⟩ ∧
      (Command.mk upcased ["x"] none false).lines = .error (.invalidCommand upcased) := by
  intro long upcased
  have hword : isCommandWord long = true := by
    rw [isCommandWord_iff, String.toList_ofList]
    refine ⟨List.cons_ne_nil _ _, fun x hx => ?_⟩
    rw [List.eq_of_mem_replicate hx]
    decide
  have hupper : upper long = upcased := by
    rw [upper, String.toList_ofList, List.map_replicate]
    rfl
  have hcommand : (Request.raw long ["x"] none).command = .ok ⟨upcased, ["x"], none, false⟩ := by
    have hne : checkPresent long "command" = .ok () := if_neg fun h => by
      rw [h] at hword
      exact absurd hword (by decide)
    have hmiddles : checkMiddles "parameter" ["x"] = .ok ["x"] := by decide +kernel
    simp only [Request.command, Request.single, hne, hword, hmiddles, hupper, checkText?]
    rfl
  refine ⟨hcommand, ((fails_for_length hcommand).1 _).mpr (.word ?_)⟩
  show Limits.outgoing < upcased.utf8ByteSize + 2
  rw [utf8ByteSize_ofList, byteLength_replicate]
  decide

end Irc.Outgoing
