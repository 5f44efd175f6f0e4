/-
When lines are built.

A command is built from its head, the command word with its middle parameters, and a trailing
parameter that is spread over lines, one line a round.  A round that takes nothing of the text
fails, and so building does; but a round before it may have been good, so what decides is the
widest character of the text and not its first.

Building one line is another road to the same end: it says just what building lines says, but for
a text that does not fit into one line.

* **`chunks_eq_none_iff`** — which texts cannot be used up;
* **`Draft.setTrailing_eq`**, **`Draft.spread_eq`** — what one round does, and what rounds come to;
* **`exists_buildSplit_iff`** — when lines are built;
* **`building_ends`** — the rounds end, and lines are built just when they can be;
* **`matching`**, **`oneLine_agrees`** — one line or lines.
-/
import Irc.Proofs.ReadBack

namespace Irc.Text

/-! ### Texts that cannot be used up -/

theorem utf8Size_le_byteLength {cs : List Char} {c : Char} (h : c ∈ cs) :
    c.utf8Size ≤ byteLength cs := by
  obtain ⟨before, after, rfl⟩ := List.append_of_mem h
  rw [byteLength_append, byteLength_cons]
  omega

/-- Nothing is left of a text just when there is room for all of it. -/
theorem cut_snd_eq_nil_iff {room : Nat} {cs : List Char} :
    (cut room cs).2 = [] ↔ byteLength cs ≤ room := by
  constructor
  · intro hrest
    have hall := cut_append room cs
    rw [hrest, List.append_nil] at hall
    have hfits := byteLength_cut_le room cs
    rwa [hall] at hfits
  · intro hfits
    rw [cut_of_le hfits]

/-- **A text cannot be used up** just when one of its characters is wider than the room. -/
theorem chunks_eq_none_iff {room : Nat} {cs : List Char} :
    chunks room cs = none ↔ ∃ c ∈ cs, room < c.utf8Size := by
  induction cs using chunks.induct room with
  | case1 cs hrest =>
    rw [chunks, if_pos hrest]
    refine ⟨fun h => absurd h (by simp), ?_⟩
    rintro ⟨c, hc, hwide⟩
    have hfits := cut_snd_eq_nil_iff.mp hrest
    exact absurd (utf8Size_le_byteLength hc) (by omega)
  | case2 cs hrest hfront =>
    rw [chunks, if_neg hrest, dif_pos hfront]
    refine ⟨fun _ => ?_, fun _ => rfl⟩
    -- the cut took nothing, so the first character is too wide
    obtain ⟨c, rest, hc⟩ := List.exists_cons_of_ne_nil hrest
    have hall := cut_append room cs
    rw [hfront, List.nil_append, hc] at hall
    have hwide := lt_byteLength_cut hc
    rw [hfront, List.nil_append, byteLength_cons, byteLength_nil] at hwide
    exact ⟨c, hall ▸ List.mem_cons_self, hwide⟩
  | case3 cs hrest hfront ih =>
    rw [chunks, if_neg hrest, dif_neg hfront, Option.map_eq_none_iff, ih]
    constructor
    · rintro ⟨c, hc, hwide⟩
      refine ⟨c, ?_, hwide⟩
      rw [← cut_append room cs]
      exact List.mem_append_right _ hc
    · rintro ⟨c, hc, hwide⟩
      rw [← cut_append room cs] at hc
      rcases List.mem_append.mp hc with hc | hc
      · have hfits := byteLength_cut_le room cs
        exact absurd (utf8Size_le_byteLength hc) (by omega)
      · exact ⟨c, hc, hwide⟩

example : chunks 1 ['a', 'é'] = none := by decide +kernel

theorem chunks_ne_nil {room : Nat} {cs : List Char} : chunks room cs ≠ some [] := by
  rw [chunks]
  split_ifs
  · simp
  · simp
  · cases chunks room (cut room cs).2 <;> simp

end Irc.Text

namespace Irc.Outgoing

open Text

/-! ### One line a round -/

namespace Draft

/-- Spreads a text over lines that begin as `d`, one line a round, behind the lines that are done.
A round that takes nothing of the text fails.  `none` when there would have to be more rounds. -/
def spread (d : Draft) : Nat → List String → String → Option (Except BuildError (List String))
  | 0, _, _ => none
  | limit + 1, done, text =>
    match d.setTrailing text with
    | (line, none) => some (.ok (done ++ [line.finish]))
    | (line, some rest) =>
      if rest.utf8ByteSize = text.utf8ByteSize then some (.error .noRoomForTrailing)
      else spread d limit (done ++ [line.finish]) rest

/-- The lines that begin as `d` and carry a text in pieces, if it has them. -/
def linesOf (d : Draft) : Option (List (List Char)) → Except BuildError (List String)
  | none => .error .noRoomForTrailing
  | some pieces => .ok (pieces.map fun piece => (d.withTrailing piece).finish)

/-- **What one round does.** -/
theorem setTrailing_eq (d : Draft) (cs : List Char) :
    d.setTrailing (String.ofList cs) =
      if (cut d.trailingRoom cs).2 = [] then (d.withTrailing (cut d.trailingRoom cs).1, none)
      else if (cut d.trailingRoom cs).1 = [] then (d, some (String.ofList cs))
      else (d.withTrailing (cut d.trailingRoom cs).1,
        some (String.ofList (cut d.trailingRoom cs).2)) := by
  have hall := cut_append d.trailingRoom cs
  have hempty : String.ofList cs = "" ↔ cs = [] := String.ofList_eq_empty_iff
  simp only [setTrailing, String.toList_ofList]
  by_cases hrest : (cut d.trailingRoom cs).2 = []
  · rw [hrest, List.append_nil] at hall
    rw [if_neg (by simp [hall, hempty]), if_pos hrest, if_pos hrest]
  · by_cases hfront : (cut d.trailingRoom cs).1 = []
    · have hcs : cs ≠ [] := by
        rintro rfl
        exact hrest rfl
      rw [if_pos (by simp [hfront, hempty, hcs]), if_neg hrest, if_pos hfront]
    · rw [if_neg (by simp [hfront]), if_neg hrest, if_neg hrest, if_neg hfront]

/-- **What the rounds come to**: there are no more of them than characters, and one for the end of
the text, and they make the pieces that the text is cut into. -/
theorem spread_eq (d : Draft) {limit : Nat} {done : List String} {cs : List Char}
    (hlimit : cs.length < limit) :
    d.spread limit done (String.ofList cs) =
      some ((d.linesOf (chunks d.trailingRoom cs)).map (done ++ ·)) := by
  induction cs using chunks.induct d.trailingRoom generalizing limit done with
  | case1 cs hrest =>
    obtain ⟨limit, rfl⟩ := Nat.exists_eq_succ_of_ne_zero (Nat.ne_zero_of_lt hlimit)
    rw [spread, setTrailing_eq, chunks, if_pos hrest, if_pos hrest]
    rfl
  | case2 cs hrest hfront =>
    obtain ⟨limit, rfl⟩ := Nat.exists_eq_succ_of_ne_zero (Nat.ne_zero_of_lt hlimit)
    rw [spread, setTrailing_eq, chunks, if_neg hrest, if_neg hrest, if_pos hfront, dif_pos hfront]
    exact if_pos rfl
  | case3 cs hrest hfront ih =>
    obtain ⟨limit, rfl⟩ := Nat.exists_eq_succ_of_ne_zero (Nat.ne_zero_of_lt hlimit)
    rw [spread, setTrailing_eq, chunks, if_neg hrest, if_neg hrest, if_neg hfront, dif_neg hfront]
    -- the round took something, so what is left is shorter, in characters and in bytes
    have hshorter := length_cut_lt d.trailingRoom cs hfront
    have hbytes : (String.ofList (cut d.trailingRoom cs).2).utf8ByteSize ≠
        (String.ofList cs).utf8ByteSize := by
      obtain ⟨c, front, hc⟩ := List.exists_cons_of_ne_nil hfront
      have hpos : 1 ≤ c.utf8Size := c.utf8Size_pos
      have hall := congrArg byteLength (cut_append d.trailingRoom cs)
      rw [byteLength_append, hc, byteLength_cons] at hall
      rw [utf8ByteSize_ofList, utf8ByteSize_ofList]
      omega
    simp only [if_neg hbytes]
    rw [ih (by omega)]
    cases chunks d.trailingRoom (cut d.trailingRoom cs).2 with
    | none => rfl
    | some pieces => simp [linesOf, Except.map]

theorem exists_linesOf_iff (d : Draft) (cs : List Char) :
    (∃ lines, d.linesOf (chunks d.trailingRoom cs) = .ok lines) ↔
      ∀ c ∈ cs, c.utf8Size ≤ d.trailingRoom := by
  have hnone : chunks d.trailingRoom cs = none ↔ ∃ c ∈ cs, d.trailingRoom < c.utf8Size :=
    chunks_eq_none_iff
  cases hchunks : chunks d.trailingRoom cs with
  | none =>
    obtain ⟨c, hc, hwide⟩ := hnone.mp hchunks
    refine ⟨fun ⟨lines, hlines⟩ => absurd hlines (by simp [linesOf]), fun hnarrow => ?_⟩
    exact absurd (hnarrow c hc) (Nat.not_le.mpr hwide)
  | some pieces =>
    refine ⟨fun _ c hc => ?_, fun _ => ⟨_, rfl⟩⟩
    by_contra hwide
    exact absurd (hchunks.symm.trans (hnone.mpr ⟨c, hc, Nat.not_le.mp hwide⟩)) (by simp)

end Draft

variable {command : String} {middles : List String} {trailing : Option String} {d : Draft}

theorem trailingRoom_of_head (hd : draftHead command middles = .ok d) :
    d.trailingRoom = roomBehind (headText command middles) := by
  obtain ⟨-, -, -, rfl⟩ := draftHead_eq_ok_iff.mp hd
  rfl

/-- What is built for a text once there is a head. -/
theorem buildSplit_of_head {text : String} (hd : draftHead command middles = .ok d)
    (htext : lineBreaker? text = none) :
    buildSplit command middles (some text) = d.linesOf (chunks d.trailingRoom text.toList) := by
  rw [buildSplit, hd]
  simp only [htext]
  cases chunks d.trailingRoom text.toList <;> rfl

/-- What is built for a text if it has to fit into one line. -/
theorem buildSingle_of_head {text : String} (hd : draftHead command middles = .ok d)
    (htext : lineBreaker? text = none) :
    buildSingle command middles (some text) =
      if text.utf8ByteSize ≤ d.trailingRoom then .ok (d.withTrailing text.toList).finish
      else .error (.trailingTooLong text.utf8ByteSize d.trailingRoom) := by
  have hset := d.setTrailing_eq text.toList
  rw [String.ofList_toList] at hset
  simp only [buildSingle, hd, htext, hset, cut_snd_eq_nil_iff, byteLength_toList]
  split_ifs with hfits
  · rw [cut_of_le (byteLength_toList text ▸ hfits)]
  · rfl
  · rfl

/-- Builds lines in at most `limit` rounds. -/
def buildWithin (limit : Nat) (command : String) (middles : List String)
    (trailing : Option String) : Option (Except BuildError (List String)) :=
  match draftHead command middles with
  | .error e => some (.error e)
  | .ok d =>
    match trailing with
    | none => some (.ok [d.finish])
    | some text =>
      match lineBreaker? text with
      | some c => some (.error (.illegalChar c))
      | none => d.spread limit [] text

/-- **The rounds end**, and they build the lines. -/
theorem buildWithin_eq (command : String) (middles : List String) (trailing : Option String) :
    buildWithin ((trailing.getD "").length + 1) command middles trailing =
      some (buildSplit command middles trailing) := by
  cases hd : draftHead command middles with
  | error e => simp only [buildWithin, buildSplit, hd]
  | ok d =>
    cases trailing with
    | none => simp only [buildWithin, buildSplit, hd]
    | some text =>
      cases htext : lineBreaker? text with
      | some c => simp only [buildWithin, buildSplit, hd, htext]
      | none =>
        have hlimit : text.toList.length < text.length + 1 := by
          rw [String.length_toList]
          exact Nat.lt_succ_self _
        have hrounds : d.spread (text.length + 1) [] _ = _ := d.spread_eq hlimit
        rw [String.ofList_toList] at hrounds
        rw [buildSplit_of_head hd htext]
        simp only [buildWithin, hd, htext, Option.getD_some, hrounds, List.nil_append]
        cases d.linesOf (chunks d.trailingRoom text.toList) <;> rfl

/-! ### Which lines are built -/

/-- A command that lines can be built for. -/
structure Buildable (command : String) (middles : List String) (trailing : Option String) :
    Prop where
  word : command ≠ "" ∧ ∀ c ∈ command.toList, c.isAlphanum = true
  params : ∀ param ∈ middles, param ≠ "" ∧ param.toList.head? ≠ some ':' ∧
    ∀ c ∈ param.toList, c ≠ ' ' ∧ c ≠ '\x00' ∧ c ≠ '\r' ∧ c ≠ '\n'
  /-- The head fits into a line that has nothing else. -/
  head : (headText command middles ++ "\r\n").utf8ByteSize ≤ 462
  unbroken : ∀ text, trailing = some text → ∀ c ∈ text.toList, c ≠ '\x00' ∧ c ≠ '\r' ∧ c ≠ '\n'
  /-- Every character fits into a line behind the head and the mark. -/
  narrow : ∀ text, trailing = some text → ∀ c ∈ text.toList,
    c.utf8Size ≤ 458 - (headText command middles).utf8ByteSize

/-- The conditions as they are checked. -/
theorem buildable_iff :
    Buildable command middles trailing ↔ isCommandWord command = true ∧
      (∀ param ∈ middles, Placeable param) ∧ headBytes command middles + 2 ≤ Limits.outgoing ∧
        ∀ text, trailing = some text → lineBreaker? text = none ∧
          ∀ c ∈ text.toList, c.utf8Size ≤ roomBehind (headText command middles) := by
  have hword : isCommandWord command = true ↔
      command ≠ "" ∧ ∀ c ∈ command.toList, c.isAlphanum = true := by
    rw [isCommandWord_iff, ne_eq, String.toList_eq_nil_iff]
  have hhead : headBytes command middles + 2 =
      (headText command middles ++ "\r\n").utf8ByteSize :=
    (utf8ByteSize_lineText_none command middles).symm
  have hroom : roomBehind (headText command middles) =
      458 - (headText command middles).utf8ByteSize := by
    show 462 - (_ + 4) = _
    omega
  have hunbroken : ∀ text, lineBreaker? text = none ↔
      ∀ c ∈ text.toList, c ≠ '\x00' ∧ c ≠ '\r' ∧ c ≠ '\n' :=
    fun text => Message.find?_isLineBreaker_eq_none_iff
  rw [hword, hhead, hroom]
  constructor
  · intro h
    exact ⟨h.word, fun param hparam => placeable_iff_standalone.mpr (h.params param hparam),
      h.head, fun text ht => ⟨(hunbroken text).mpr (h.unbroken text ht), h.narrow text ht⟩⟩
  · rintro ⟨hword, hparams, hhead, htext⟩
    exact ⟨hword, fun param hparam => placeable_iff_standalone.mp (hparams param hparam), hhead,
      fun text ht => (hunbroken text).mp (htext text ht).1, fun text ht => (htext text ht).2⟩

/-- **Which lines are built.** -/
theorem exists_buildSplit_iff :
    (∃ lines, buildSplit command middles trailing = .ok lines) ↔
      Buildable command middles trailing := by
  rw [buildable_iff]
  constructor
  · rintro ⟨lines, hlines⟩
    obtain ⟨carried, hbuilt, -⟩ := buildSplit_eq_ok hlines
    have hd := draftHead_eq_ok_iff.mpr ⟨hbuilt.word, hbuilt.placeable, hbuilt.head, rfl⟩
    refine ⟨hbuilt.word, hbuilt.placeable, hbuilt.head, ?_⟩
    rintro text rfl
    rw [buildSplit_of_head hd (hbuilt.unbroken text rfl)] at hlines
    exact ⟨hbuilt.unbroken text rfl, (Draft.exists_linesOf_iff _ _).mp ⟨lines, hlines⟩⟩
  · rintro ⟨hword, hparams, hhead, htext⟩
    have hd := draftHead_eq_ok_iff.mpr ⟨hword, hparams, hhead, rfl⟩
    cases trailing with
    | none => exact ⟨_, by rw [buildSplit, hd]⟩
    | some text =>
      rw [buildSplit_of_head hd (htext text rfl).1]
      exact (Draft.exists_linesOf_iff _ _).mpr (htext text rfl).2

/-- **Building ends, and lines are built just when they can be.**  There are no more rounds than
the text has characters, and one for its end. -/
theorem building_ends (command : String) (middles : List String) (trailing : Option String) :
    buildWithin ((trailing.getD "").length + 1) command middles trailing =
        some (buildSplit command middles trailing) ∧
      ((∃ lines, buildSplit command middles trailing = .ok lines) ↔
        Buildable command middles trailing) :=
  ⟨buildWithin_eq command middles trailing, exists_buildSplit_iff⟩

/-! ### One line or lines -/

/-- Whether an error is about the room for a trailing parameter. -/
def BuildError.isShortage : BuildError → Bool
  | .noRoomForTrailing | .trailingTooLong .. => true
  | _ => false

theorem Draft.isShortage_addMiddle {param : String} {e : BuildError}
    (h : d.addMiddle param = .error e) : e.isShortage = false := by
  rw [addMiddle] at h
  split at h
  · exact Except.error.inj h ▸ rfl
  · split at h
    · exact Except.error.inj h ▸ rfl
    · split at h
      · exact Except.error.inj h ▸ rfl
      · exact absurd h (by simp)

theorem Draft.isShortage_addMiddles {e : BuildError} (h : d.addMiddles middles = .error e) :
    e.isShortage = false := by
  induction middles generalizing d with
  | nil => exact absurd h (by simp [addMiddles])
  | cons param rest ih =>
    rw [addMiddles] at h
    cases hparam : d.addMiddle param with
    | ok next =>
      rw [hparam] at h
      exact ih h
    | error e' =>
      rw [hparam] at h
      exact Except.error.inj h ▸ isShortage_addMiddle hparam

/-- A head does not fail for a trailing parameter. -/
theorem isShortage_draftHead {e : BuildError} (h : draftHead command middles = .error e) :
    e.isShortage = false := by
  rw [draftHead] at h
  cases hstart : Draft.start command Limits.outgoing with
  | ok first =>
    rw [hstart] at h
    exact first.isShortage_addMiddles h
  | error e' =>
    rw [hstart] at h
    rw [Draft.start] at hstart
    split_ifs at hstart
    exact Except.error.inj h ▸ Except.error.inj hstart ▸ rfl

/-- How the answers to building one line and to building lines go together, where there are `room`
bytes behind the head. -/
inductive Matching (trailing : Option String) (room : Nat) :
    Except BuildError String → Except BuildError (List String) → Prop where
  /-- One line is enough. -/
  | one (line : String) : Matching trailing room (.ok line) (.ok [line])
  /-- The text has to be cut, which it is or cannot be. -/
  | long {text : String} {split : Except BuildError (List String)} (htext : trailing = some text)
      (hlong : room < text.utf8ByteSize)
      (hsplit : split = .error .noRoomForTrailing ∨ ∃ lines, split = .ok lines ∧ 2 ≤ lines.length) :
      Matching trailing room (.error (.trailingTooLong text.utf8ByteSize room)) split
  /-- Something is wrong before there is any question of room for the text. -/
  | failed {e : BuildError} (he : e.isShortage = false) :
      Matching trailing room (.error e) (.error e)

/-- **Both ways of building decide alike.** -/
theorem matching (command : String) (middles : List String) (trailing : Option String) :
    Matching trailing (roomBehind (headText command middles))
      (buildSingle command middles trailing) (buildSplit command middles trailing) := by
  cases hd : draftHead command middles with
  | error e =>
    simp only [buildSingle, buildSplit, hd]
    exact .failed (isShortage_draftHead hd)
  | ok d =>
    cases trailing with
    | none =>
      simp only [buildSingle, buildSplit, hd]
      exact .one _
    | some text =>
      cases htext : lineBreaker? text with
      | some c =>
        simp only [buildSingle, buildSplit, hd, htext]
        exact .failed rfl
      | none =>
        rw [buildSingle_of_head hd htext, buildSplit_of_head hd htext, ← trailingRoom_of_head hd,
          chunks]
        simp only [cut_snd_eq_nil_iff, byteLength_toList]
        split_ifs with hfits hfront
        · rw [cut_of_le (byteLength_toList text ▸ hfits)]
          exact .one _
        · exact .long rfl (Nat.lt_of_not_le hfits) (.inl rfl)
        · -- the first line is done, and what is left needs one more at least
          cases hchunks : chunks d.trailingRoom (cut d.trailingRoom text.toList).2 with
          | none => exact .long rfl (Nat.lt_of_not_le hfits) (.inl rfl)
          | some pieces =>
            have hpieces : pieces ≠ [] := by
              rintro rfl
              exact chunks_ne_nil hchunks
            refine .long rfl (Nat.lt_of_not_le hfits) (.inr ⟨_, rfl, ?_⟩)
            rw [List.length_map, List.length_cons]
            exact Nat.succ_le_succ (List.length_pos_iff.mpr hpieces)

/-- **Building one line agrees with building lines.**  There is one line when building lines comes
to just that line.  A text is too long for one line when it has more bytes than there is room for,
and then it goes into two lines at least or into none at all.  All else goes wrong alike. -/
theorem oneLine_agrees (command : String) (middles : List String) (trailing : Option String) :
    (∀ line, buildSingle command middles trailing = .ok line ↔
        buildSplit command middles trailing = .ok [line]) ∧
      (∀ length room, buildSingle command middles trailing = .error (.trailingTooLong length room) →
        room = roomBehind (headText command middles) ∧ room < length ∧
          (∃ text, trailing = some text ∧ length = text.utf8ByteSize) ∧
          (buildSplit command middles trailing = .error .noRoomForTrailing ∨
            ∃ lines, buildSplit command middles trailing = .ok lines ∧ 2 ≤ lines.length)) ∧
      ∀ e, buildSingle command middles trailing = .error e →
        (∀ length room, e ≠ .trailingTooLong length room) →
          buildSplit command middles trailing = .error e := by
  have hmatching := matching command middles trailing
  generalize buildSingle command middles trailing = single at hmatching ⊢
  generalize buildSplit command middles trailing = split at hmatching ⊢
  cases hmatching with
  | one line => simp [eq_comm]
  | long htext hlong hsplit =>
    refine ⟨fun line => ⟨fun h => absurd h (by simp), ?_⟩, ?_, ?_⟩
    · -- one line is neither none nor two
      intro hline
      rcases hsplit with hnone | ⟨lines, hlines, htwo⟩
      · exact absurd (hline.symm.trans hnone) (by simp)
      · obtain rfl := Except.ok.inj (hline.symm.trans hlines)
        exact absurd htwo (by simp)
    · intro length room h
      obtain ⟨rfl, rfl⟩ := BuildError.trailingTooLong.inj (Except.error.inj h)
      exact ⟨rfl, hlong, ⟨_, htext, rfl⟩, hsplit⟩
    · intro e h hother
      exact absurd (Except.error.inj h).symm (hother _ _)
  | failed he =>
    refine ⟨fun line => by simp, ?_, fun e h _ => congrArg _ (Except.error.inj h)⟩
    intro length room h
    rw [Except.error.inj h] at he
    exact absurd he (by simp [BuildError.isShortage])

/-- A text that is one byte too long for its line. -/
theorem oneLine_agrees_away :
    let text := String.ofList (List.replicate 455 'x')
    buildSingle "AWAY" [] (some text) = .error (.trailingTooLong 455 454) ∧ 454 < 455 ∧
      (buildSplit "AWAY" [] (some text) = .error .noRoomForTrailing ∨
        ∃ lines, buildSplit "AWAY" [] (some text) = .ok lines ∧ 2 ≤ lines.length) := by
  intro text
  have hhead : draftHead "AWAY" [] = .ok ⟨"AWAY", 462, false⟩ := by decide +kernel
  have hlength : text.utf8ByteSize = 455 := by
    rw [utf8ByteSize_ofList, byteLength_replicate]
    decide
  have htext : lineBreaker? text = none := by
    rw [lineBreaker?, String.toList_ofList, Message.find?_isLineBreaker_eq_none_iff]
    intro c hc
    rw [List.eq_of_mem_replicate hc]
    decide
  have hsingle : buildSingle "AWAY" [] (some text) = .error (.trailingTooLong 455 454) := by
    rw [buildSingle_of_head hhead htext, hlength]
    rfl
  obtain ⟨-, hlt, -, hsplit⟩ := (oneLine_agrees "AWAY" [] (some text)).2.1 455 454 hsingle
  exact ⟨hsingle, hlt, hsplit⟩

end Irc.Outgoing
