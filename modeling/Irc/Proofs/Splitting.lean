/-
A long trailing parameter over several lines.

Every line of a split command has the same head in front, the command word and its
middle parameters with single spaces between them, and carries one piece of the
trailing parameter.  `Pieces` says what pieces these are: put together they are the
text, and each but the last is full.

* **`lt_byteLength_cut`** — a cut could not take the next character;
* **`pieces_chunks`** — the text is used up piece by piece;
* **`draftHead_eq_ok_iff`** — which heads are built;
* **`buildSplit_eq_ok`**, **`buildSingle_eq_ok`** — the lines of a command;
* **`buildSingle_eq_ok_iff`** — when a command that is not split has a line;
* **`buildSplit_pieces`** — splitting loses, doubles and reorders nothing.
-/
import Irc.Proofs.Draft

namespace Irc.Text

/-- The pieces of a text under a limit on their bytes. -/
structure Pieces (room : Nat) (text : String) (pieces : List String) : Prop where
  join : String.join pieces = text
  fits : ∀ piece ∈ pieces, piece.utf8ByteSize ≤ room
  /-- Only the empty text has an empty piece, and that is its only one. -/
  empty : "" ∈ pieces → text = ""
  single : text = "" → pieces = [""]
  /-- A piece with another behind it could not take the next character. -/
  full : ∀ before piece next after, pieces = before ++ piece :: next :: after →
    ∃ c, next.toList.head? = some c ∧ room < (piece.push c).utf8ByteSize

/-! ### Cuts -/

/-- What a cut leaves over begins with a character that it could not take. -/
theorem lt_byteLength_cut {room : Nat} {cs rest : List Char} {c : Char}
    (h : (cut room cs).2 = c :: rest) : room < byteLength ((cut room cs).1 ++ [c]) := by
  induction cs generalizing room with
  | nil => exact absurd h (by simp [cut])
  | cons d cs ih =>
    by_cases hd : d.utf8Size ≤ room
    · rw [cut, if_pos hd] at h ⊢
      have hrest := ih h
      rw [List.cons_append, byteLength_cons]
      omega
    · rw [cut, if_neg hd] at h ⊢
      rw [List.cons.injEq] at h
      rw [List.nil_append, byteLength_cons, byteLength_nil, ← h.1]
      omega

/-- A part for which there is room is taken as a whole, and the cut goes on behind it. -/
theorem cut_append_of_le {room : Nat} {as : List Char} (bs : List Char) (h : byteLength as ≤ room) :
    cut room (as ++ bs) =
      (as ++ (cut (room - byteLength as) bs).1, (cut (room - byteLength as) bs).2) := by
  induction as generalizing room with
  | nil => simp
  | cons c as ih =>
    rw [byteLength_cons] at h
    have hroom : byteLength as ≤ room - c.utf8Size := by omega
    rw [List.cons_append, cut, if_pos (by omega), ih hroom, byteLength_cons, Nat.sub_sub]
    rfl

/-- A text for which there is room is taken as a whole. -/
theorem cut_of_le {room : Nat} {cs : List Char} (h : byteLength cs ≤ room) :
    cut room cs = (cs, []) := by
  have hall := cut_append_of_le [] h
  rwa [List.append_nil, cut, List.append_nil] at hall

/-- A text for which there is room is its only piece. -/
theorem Pieces.self {room : Nat} {text : String} (h : text.utf8ByteSize ≤ room) :
    Pieces room text [text] where
  join := by rw [String.join_cons, String.join_nil, String.append_empty]
  fits := fun piece hpiece => by rwa [List.mem_singleton.mp hpiece]
  empty := fun hempty => (List.mem_singleton.mp hempty).symm
  single := fun hnil => by rw [hnil]
  full := by
    intro before piece next after hsplit
    have hlength := congrArg List.length hsplit
    simp only [List.length_append, List.length_cons, List.length_nil] at hlength
    omega

/-- A text that is cut in two is its front piece and the pieces of the rest. -/
theorem Pieces.cons {room : Nat} {cs : List Char} {pieces : List String}
    (hfront : (cut room cs).1 ≠ []) (hrest : (cut room cs).2 ≠ [])
    (h : Pieces room (String.ofList (cut room cs).2) pieces) :
    Pieces room (String.ofList cs) (String.ofList (cut room cs).1 :: pieces) where
  join := by
    rw [String.join_cons, h.join, ← String.ofList_append, cut_append]
  fits := by
    intro piece hpiece
    rcases List.mem_cons.mp hpiece with rfl | hpiece
    · rw [utf8ByteSize_ofList]
      exact byteLength_cut_le room cs
    · exact h.fits piece hpiece
  empty := by
    intro hempty
    rcases List.mem_cons.mp hempty with hnil | hmem
    · exact absurd (String.ofList_eq_empty_iff.mp hnil.symm) hfront
    · exact absurd (String.ofList_eq_empty_iff.mp (h.empty hmem)) hrest
  single := by
    intro hnil
    rw [String.ofList_eq_empty_iff] at hnil
    subst hnil
    exact absurd rfl hfront
  full := by
    intro before piece next after hsplit
    rcases List.cons_eq_append_iff.mp hsplit with ⟨-, hcons⟩ | ⟨before', -, htail⟩
    · -- the next character stands at the front of what the cut left over
      obtain ⟨rfl, rfl⟩ := List.cons.inj hcons
      obtain ⟨c, rest, hc⟩ := List.exists_cons_of_ne_nil hrest
      have hjoin := congrArg String.toList h.join
      rw [String.join_cons, String.toList_append, String.toList_ofList, hc] at hjoin
      have hnext : next.toList ≠ [] := by
        intro hnil
        have hmem : "" ∈ next :: after := by
          rw [String.toList_eq_nil_iff.mp hnil]
          exact List.mem_cons_self
        exact hrest (String.ofList_eq_empty_iff.mp (h.empty hmem))
      obtain ⟨d, tail, hd⟩ := List.exists_cons_of_ne_nil hnext
      rw [hd, List.cons_append, List.cons.injEq] at hjoin
      refine ⟨d, by rw [hd, List.head?_cons], ?_⟩
      have hlt := lt_byteLength_cut hc
      rw [byteLength_append, byteLength_cons, byteLength_nil] at hlt
      rw [String.utf8ByteSize_push, utf8ByteSize_ofList, hjoin.1]
      omega
    · exact h.full before' piece next after htail

/-- **The text is used up piece by piece.** -/
theorem pieces_chunks {room : Nat} {cs : List Char} {chunked : List (List Char)}
    (h : chunks room cs = some chunked) :
    Pieces room (String.ofList cs) (chunked.map String.ofList) := by
  induction cs using chunks.induct room generalizing chunked with
  | case1 cs hrest =>
    rw [chunks, if_pos hrest, Option.some_inj] at h
    subst h
    have hall : (cut room cs).1 = cs := by
      have happend := cut_append room cs
      rwa [hrest, List.append_nil] at happend
    rw [List.map_cons, List.map_nil, hall]
    refine Pieces.self ?_
    rw [utf8ByteSize_ofList, ← hall]
    exact byteLength_cut_le room cs
  | case2 cs hrest hfront =>
    rw [chunks, if_neg hrest, dif_pos hfront] at h
    exact absurd h (by simp)
  | case3 cs hrest hfront ih =>
    rw [chunks, if_neg hrest, dif_neg hfront] at h
    obtain ⟨tail, htail, rfl⟩ := Option.map_eq_some_iff.mp h
    rw [List.map_cons]
    exact (ih htail).cons hfront hrest

end Irc.Text

namespace Irc.Outgoing

open Text

/-- A command with its middle parameters, single spaces between them. -/
def headText (command : String) (middles : List String) : String :=
  String.intercalate " " (command :: middles)

/-- Bytes of a command with its middle parameters behind it. -/
def headBytes (command : String) (middles : List String) : Nat :=
  command.utf8ByteSize + (middles.map (·.utf8ByteSize + 1)).sum

/-- A middle parameter that is taken wherever there is room for it. -/
def Placeable (param : String) : Prop := isMiddle param = true ∧ lineBreaker? param = none

instance (param : String) : Decidable (Placeable param) := inferInstanceAs (Decidable (_ ∧ _))

/-! ### The head -/

theorem headText_nil (command : String) : headText command [] = command := by
  rw [headText, String.intercalate_singleton]

/-- A parameter is put behind what is there. -/
theorem headText_cons (command param : String) (rest : List String) :
    headText command (param :: rest) = headText (command ++ " " ++ param) rest := by
  rw [headText, headText, String.intercalate_cons_cons, String.intercalate_cons_append]

theorem utf8ByteSize_headText (command : String) (middles : List String) :
    (headText command middles).utf8ByteSize = headBytes command middles := by
  have hspace : (" " : String).utf8ByteSize = 1 := by decide
  induction middles generalizing command with
  | nil => rw [headText_nil, headBytes, List.map_nil, List.sum_nil, Nat.add_zero]
  | cons param rest ih =>
    rw [headText_cons, ih, headBytes, headBytes, String.utf8ByteSize_append,
      String.utf8ByteSize_append, hspace, List.map_cons, List.sum_cons]
    omega

namespace Draft

variable {d d' : Draft}

/-- Middle parameters are put behind the line when they may stand there and fit. -/
theorem addMiddles_eq_ok_iff {middles : List String} (htrailing : d.hasTrailing = false)
    (hd : d.expectedLength ≤ d.budget) :
    d.addMiddles middles = .ok d' ↔ (∀ param ∈ middles, Placeable param) ∧
      d'.expectedLength ≤ d.budget ∧
        d' = { d with text := headText d.text middles } := by
  induction middles generalizing d with
  | nil =>
    rw [addMiddles, Except.ok.injEq, headText_nil]
    constructor
    · rintro rfl
      exact ⟨fun param hparam => absurd hparam List.not_mem_nil, hd, rfl⟩
    · rintro ⟨-, -, rfl⟩
      rfl
  | cons param rest ih =>
    rw [addMiddles_cons, List.forall_mem_cons, headText_cons]
    constructor
    · rintro ⟨next, hnext, hrest⟩
      obtain ⟨hmiddle, hbreaker, -, hfits, rfl⟩ := addMiddle_eq_ok_iff.mp hnext
      have hlength := expectedLength_addMiddle hnext
      obtain ⟨hplace, hle, heq⟩ := (ih (d := { d with text := d.text ++ " " ++ param })
        htrailing (hlength.trans_le hfits)).mp hrest
      exact ⟨⟨⟨hmiddle, hbreaker⟩, hplace⟩, hle, heq⟩
    · rintro ⟨⟨⟨hmiddle, hbreaker⟩, hplace⟩, hle, rfl⟩
      -- the line with this parameter is no longer than the whole one
      have hfits : d.expectedLength + 1 + param.utf8ByteSize ≤ d.budget := by
        have hspace : (" " : String).utf8ByteSize = 1 := by decide
        rw [expectedLength, utf8ByteSize_headText, headBytes,
          String.utf8ByteSize_append, String.utf8ByteSize_append, hspace] at hle
        rw [expectedLength]
        omega
      have hnext := addMiddle_eq_ok_iff.mpr ⟨hmiddle, hbreaker, htrailing, hfits, rfl⟩
      have hlength := expectedLength_addMiddle hnext
      exact ⟨_, hnext, (ih (d := { d with text := d.text ++ " " ++ param }) htrailing
        (hlength.trans_le hfits)).mpr ⟨hplace, hle, rfl⟩⟩

end Draft

/-- **Which heads are built.** -/
theorem draftHead_eq_ok_iff {command : String} {middles : List String} {d : Draft} :
    draftHead command middles = .ok d ↔ isCommandWord command = true ∧
      (∀ param ∈ middles, Placeable param) ∧ headBytes command middles + 2 ≤ Limits.outgoing ∧
        d = ⟨headText command middles, Limits.outgoing, false⟩ := by
  have hbytes := utf8ByteSize_headText command middles
  constructor
  · intro h
    rw [draftHead] at h
    split at h
    · exact absurd h (by simp)
    rename_i first hfirst
    obtain ⟨hword, hfits, rfl⟩ := Draft.start_eq_ok_iff.mp hfirst
    obtain ⟨hplace, hle, rfl⟩ :=
      (Draft.addMiddles_eq_ok_iff (d := ⟨command, Limits.outgoing, false⟩) rfl hfits).mp h
    rw [Draft.expectedLength, hbytes] at hle
    exact ⟨hword, hplace, hle, rfl⟩
  · rintro ⟨hword, hplace, hle, rfl⟩
    have hfits : command.utf8ByteSize + 2 ≤ Limits.outgoing := by
      rw [headBytes] at hle
      omega
    rw [draftHead, Draft.start_eq_ok_iff.mpr ⟨hword, hfits, rfl⟩]
    refine (Draft.addMiddles_eq_ok_iff (d := ⟨command, Limits.outgoing, false⟩) rfl hfits).mpr
      ⟨hplace, ?_, rfl⟩
    rwa [Draft.expectedLength, hbytes]

/-! ### The lines -/

/-- Bytes for a piece of the trailing parameter behind a head, the mark and CRLF. -/
def roomBehind (head : String) : Nat := Limits.outgoing - (head.utf8ByteSize + 4)

/-- The line of a command that carries a piece of its trailing parameter. -/
def lineText (command : String) (middles : List String) : Option String → String
  | none => headText command middles ++ "\r\n"
  | some piece => headText command middles ++ " :" ++ piece ++ "\r\n"

theorem utf8ByteSize_lineText_none (command : String) (middles : List String) :
    (lineText command middles none).utf8ByteSize = headBytes command middles + 2 := by
  have hend : ("\r\n" : String).utf8ByteSize = 2 := by decide
  rw [lineText, String.utf8ByteSize_append, utf8ByteSize_headText, hend]

theorem utf8ByteSize_lineText_some (command : String) (middles : List String) (piece : String) :
    (lineText command middles (some piece)).utf8ByteSize =
      headBytes command middles + 4 + piece.utf8ByteSize := by
  have hmark : (" :" : String).utf8ByteSize = 2 := by decide
  have hend : ("\r\n" : String).utf8ByteSize = 2 := by decide
  rw [lineText, String.utf8ByteSize_append, String.utf8ByteSize_append, String.utf8ByteSize_append,
    utf8ByteSize_headText, hmark, hend]
  omega

/-- What lines carry of a trailing parameter. -/
def Carries (room : Nat) : Option String → List (Option String) → Prop
  | none, carried => carried = [none]
  | some text, carried => ∃ pieces, Pieces room text pieces ∧ carried = pieces.map some

/-- A command that was written out, and what its lines carry. -/
structure Built (command : String) (middles : List String) (trailing : Option String)
    (carried : List (Option String)) : Prop where
  word : isCommandWord command = true
  placeable : ∀ param ∈ middles, Placeable param
  head : headBytes command middles + 2 ≤ Limits.outgoing
  unbroken : ∀ text, trailing = some text → lineBreaker? text = none
  carries : Carries (roomBehind (headText command middles)) trailing carried

variable {command : String} {middles : List String} {trailing : Option String}

/-- **The lines of a split command.** -/
theorem buildSplit_eq_ok {lines : List String}
    (h : buildSplit command middles trailing = .ok lines) :
    ∃ carried, Built command middles trailing carried ∧
      lines = carried.map (lineText command middles) := by
  rw [buildSplit] at h
  split at h
  · exact absurd h (by simp)
  rename_i d hd
  obtain ⟨hword, hplace, hhead, rfl⟩ := draftHead_eq_ok_iff.mp hd
  cases trailing with
  | none =>
    simp only [Except.ok.injEq] at h
    exact ⟨[none], ⟨hword, hplace, hhead, fun text htext => absurd htext (by simp), rfl⟩, h.symm⟩
  | some text =>
    simp only at h
    split at h
    · exact absurd h (by simp)
    rename_i hbreaker
    split at h
    · exact absurd h (by simp)
    rename_i chunked hchunked
    rw [Except.ok.injEq] at h
    have hpieces := pieces_chunks hchunked
    rw [String.ofList_toList] at hpieces
    refine ⟨(chunked.map String.ofList).map some,
      ⟨hword, hplace, hhead, fun text' htext => ?_, _, hpieces, rfl⟩, ?_⟩
    · rwa [← Option.some_inj.mp htext]
    · rw [← h, List.map_map, List.map_map]
      rfl

/-- **The line of a command that is not split.** -/
theorem buildSingle_eq_ok {line : String} (h : buildSingle command middles trailing = .ok line) :
    Built command middles trailing [trailing] ∧ line = lineText command middles trailing := by
  rw [buildSingle] at h
  split at h
  · exact absurd h (by simp)
  rename_i d hd
  obtain ⟨hword, hplace, hhead, rfl⟩ := draftHead_eq_ok_iff.mp hd
  cases trailing with
  | none =>
    simp only [Except.ok.injEq] at h
    exact ⟨⟨hword, hplace, hhead, fun text htext => absurd htext (by simp), rfl⟩, h.symm⟩
  | some text =>
    simp only at h
    split at h
    · exact absurd h (by simp)
    rename_i hbreaker
    split at h
    · rename_i full hfull
      rw [Except.ok.injEq] at h
      -- nothing came back, so all of the text was taken
      rcases Draft.setTrailing_cases _ text with ⟨-, hset⟩ | ⟨front, rest, htext, hroom, -, hset⟩
      · rw [hset] at hfull
        exact absurd hfull (by simp)
      · rw [hset, Prod.mk.injEq] at hfull
        obtain ⟨rfl, hrest⟩ := hfull
        split_ifs at hrest with hnil
        rw [hnil, List.append_nil] at htext
        subst htext
        rw [byteLength_toList] at hroom
        refine ⟨⟨hword, hplace, hhead, fun text' htext => ?_, _, Pieces.self hroom, rfl⟩, ?_⟩
        · rwa [← Option.some_inj.mp htext]
        · rw [← h, Draft.withTrailing, String.ofList_toList]
          rfl
    · exact absurd h (by simp)

/-- **When a command that is not split has a line.** -/
theorem buildSingle_eq_ok_iff {line : String} :
    buildSingle command middles trailing = .ok line ↔
      Built command middles trailing [trailing] ∧ line = lineText command middles trailing := by
  refine ⟨buildSingle_eq_ok, ?_⟩
  rintro ⟨⟨hword, hplace, hhead, hunbroken, hcarries⟩, rfl⟩
  rw [buildSingle, draftHead_eq_ok_iff.mpr ⟨hword, hplace, hhead, rfl⟩]
  cases trailing with
  | none => rfl
  | some text =>
    obtain ⟨pieces, hpieces, hsome⟩ := hcarries
    have hroom : text.utf8ByteSize ≤ roomBehind (headText command middles) := by
      refine hpieces.fits text ?_
      have hmem : some text ∈ pieces.map some := hsome ▸ List.mem_singleton_self _
      simpa using hmem
    -- all of the text is taken, so nothing comes back
    have hset : Draft.setTrailing ⟨headText command middles, Limits.outgoing, false⟩ text =
        (Draft.withTrailing ⟨headText command middles, Limits.outgoing, false⟩ text.toList,
          none) := by
      rw [Draft.setTrailing, cut_of_le (byteLength_toList text ▸ hroom)]
      simp
    simp only [hunbroken text rfl, hset]
    rw [Draft.finish, Draft.withTrailing, String.ofList_toList]
    rfl

/-- **Splitting loses, doubles and reorders nothing.**  Without a trailing parameter
there is one line, the head alone.  With one, every line is the head with a piece of
the text behind the mark, and the pieces are those of the room behind the head. -/
theorem buildSplit_pieces {lines : List String}
    (h : buildSplit command middles trailing = .ok lines) :
    (trailing = none → lines = [headText command middles ++ "\r\n"]) ∧
      ∀ text, trailing = some text →
        ∃ pieces, Pieces (roomBehind (headText command middles)) text pieces ∧
          lines = pieces.map fun piece =>
            headText command middles ++ " :" ++ piece ++ "\r\n" := by
  obtain ⟨carried, hbuilt, rfl⟩ := buildSplit_eq_ok h
  have hcarries := hbuilt.carries
  constructor
  · rintro rfl
    rw [show carried = [none] from hcarries]
    rfl
  · rintro text rfl
    obtain ⟨pieces, hpieces, rfl⟩ := hcarries
    exact ⟨pieces, hpieces, by rw [List.map_map]; rfl⟩

theorem buildSplit_pieces_notice :
    ∃ channel lines, buildSplit "NOTICE" [channel] (some "größer 日本語") = .ok lines ∧
      lines.length = 3 ∧
        ∃ pieces, Pieces (roomBehind (headText "NOTICE" [channel])) "größer 日本語" pieces ∧
          lines = pieces.map fun piece =>
            headText "NOTICE" [channel] ++ " :" ++ piece ++ "\r\n" := by
  have hplace : Placeable (String.ofList (List.replicate 443 '#')) := by
    rw [Placeable, isMiddle, lineBreaker?, String.toList_ofList]
    decide +kernel
  have hbytes : headBytes "NOTICE" [String.ofList (List.replicate 443 '#')] = 450 := by
    rw [headBytes, List.map_cons, utf8ByteSize_ofList]
    decide +kernel
  have hhead : draftHead "NOTICE" [String.ofList (List.replicate 443 '#')] =
      .ok ⟨headText "NOTICE" [String.ofList (List.replicate 443 '#')], Limits.outgoing, false⟩ :=
    draftHead_eq_ok_iff.mpr ⟨by decide +kernel, List.forall_mem_singleton.mpr hplace,
      by rw [hbytes]; decide, rfl⟩
  have hroom : Draft.trailingRoom ⟨headText "NOTICE" [String.ofList (List.replicate 443 '#')],
      Limits.outgoing, false⟩ = 8 := by
    rw [Draft.trailingRoom, Draft.expectedLength, utf8ByteSize_headText, hbytes]
    rfl
  have hchunks : chunks 8 "größer 日本語".toList =
      some ["größer".toList, " 日本".toList, "語".toList] := by
    decide +kernel
  have hlines : buildSplit "NOTICE" [String.ofList (List.replicate 443 '#')]
      (some "größer 日本語") = .ok (["größer", " 日本", "語"].map fun piece =>
        headText "NOTICE" [String.ofList (List.replicate 443 '#')] ++ " :" ++ piece ++ "\r\n") := by
    have hbreaker : lineBreaker? "größer 日本語" = none := by decide +kernel
    rw [buildSplit, hhead]
    simp only [hbreaker, hroom, hchunks]
    rfl
  exact ⟨_, _, hlines, rfl, (buildSplit_pieces hlines).2 _ rfl⟩

end Irc.Outgoing
