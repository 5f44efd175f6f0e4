/-
The grammar of lines.

A `Layout` is a line in its parts, from left to right: tags and the blanks behind
them, a source and the blanks behind it, the command word, and the parameters
with the spaces around them.  `WellFormed` is the grammar, `Fits` are the limits,
and `message` is what the parts stand for.  The parser takes lines apart as the
grammar does:

* **`splitArgs_eq`** — taking the parameters token by token finds the words in
  front of the first ` :` and the text behind it;
* **`splitSections_eq_ok_iff`** — a line falls apart just when it has a layout;
* **`Layout.text_inj`** — a line has one layout at most;
* **`parse_ok_iff_layout`** — the parser accepts a line just when it has a layout
  within the limits, and gives the message of that layout.
-/
import Irc.Message.Parser
import Irc.Proofs.Text

namespace Irc.Message

open Text

/-- A line in its parts. -/
structure Layout where
  /-- The tag section without its mark. -/
  tags : Option (List Char)
  /-- The blanks in front of what the length limit counts. -/
  gap : List Char
  /-- The source without its mark, and the blanks behind it. -/
  source : Option (List Char × List Char)
  command : List Char
  /-- The parameters with all spaces around them. -/
  args : List Char

namespace Layout

/-- A tag section as it stands in a line. -/
def tagsText : Option (List Char) → List Char
  | none => []
  | some t => '@' :: t

/-- A source and the blanks behind it as they stand in a line. -/
def sourceText : Option (List Char × List Char) → List Char
  | none => []
  | some (p, v) => ':' :: p ++ v

/-- The part of the line that the length limit counts. -/
def body (l : Layout) : List Char := sourceText l.source ++ l.command ++ l.args

/-- The whole line. -/
def text (l : Layout) : List Char := tagsText l.tags ++ l.gap ++ l.body

/-- The grammar. -/
structure WellFormed (l : Layout) : Prop where
  tags : ∀ t, l.tags = some t → t ≠ [] ∧ ' ' ∉ t ∧ l.gap.head? = some ' '
  gap : ∀ c ∈ l.gap, c = ' ' ∨ c = '\t'
  source : ∀ p v, l.source = some (p, v) →
    p ≠ [] ∧ ' ' ∉ p ∧ v.head? = some ' ' ∧ ∀ c ∈ v, c = ' ' ∨ c = '\t'
  command_ne : l.command ≠ []
  command : ∀ c ∈ l.command, c.isAlphanum = true
  args : l.args = [] ∨ l.args.head? = some ' '

/-- The parameters in front of the first ` :`, and the text behind it. -/
def cutAtMark : List Char → List Char × Option (List Char)
  | ' ' :: ':' :: rest => ([], some rest)
  | c :: rest => (c :: (cutAtMark rest).1, (cutAtMark rest).2)
  | [] => ([], none)

/-- The middle parameters: what stands between spaces in front of the first ` :`. -/
def middles (l : Layout) : List (List Char) := words (· = ' ') (cutAtMark l.args).1

/-- The trailing parameter: all that stands behind the first ` :`. -/
def trailing (l : Layout) : Option (List Char) := (cutAtMark l.args).2

/-- The limits. -/
structure Fits (l : Layout) : Prop where
  tags : ∀ t, l.tags = some t → byteLength t ≤ Limits.tags
  body : byteLength l.body ≤ Limits.body
  middles : l.middles.length ≤ Limits.middles

/-- The message that the parts stand for. -/
def message (l : Layout) : Message where
  tags := (l.tags.map Tag.parseSection).getD []
  source := l.source.map fun s => Source.parse (String.ofList s.1)
  command := upper (String.ofList l.command)
  middles := l.middles.map String.ofList
  trailing := l.trailing.map String.ofList

/-- The layout is one of the line: without its line end, the line is the text of
the layout, and nothing in it may break a line apart. -/
structure Of (line : String) (l : Layout) : Prop where
  wellFormed : l.WellFormed
  text_eq : l.text = line.toList.rdropWhile isLineEnd
  unbroken : ∀ c ∈ l.text, c ≠ '\x00' ∧ c ≠ '\r' ∧ c ≠ '\n'

end Layout

/-! ### Parameters -/

section Args

open Layout

theorem cutAtMark_mark (rest : List Char) : cutAtMark (' ' :: ':' :: rest) = ([], some rest) :=
  rfl

/-- A space that no colon follows opens nothing. -/
theorem cutAtMark_space {rest : List Char} (h : rest.head? ≠ some ':') :
    cutAtMark (' ' :: rest) = (' ' :: (cutAtMark rest).1, (cutAtMark rest).2) := by
  rw [cutAtMark]
  rintro rest' - rfl
  exact h rfl

/-- A text without spaces holds no mark. -/
theorem cutAtMark_append {token : List Char} (h : ' ' ∉ token) (rest : List Char) :
    cutAtMark (token ++ rest) = (token ++ (cutAtMark rest).1, (cutAtMark rest).2) := by
  induction token with
  | nil => rfl
  | cons c token ih =>
    have hc : c ≠ ' ' := fun hc => h (hc ▸ List.mem_cons_self)
    have htoken := ih fun hm => h (List.mem_cons_of_mem c hm)
    rw [List.cons_append, cutAtMark, htoken]
    · rfl
    · rintro rest' hcs -
      exact hc hcs

/-- Where the parameters are cut, a token ends. -/
theorem stops_cutAtMark {rest : List Char} (h : Stops (fun c => !decide (c = ' ')) rest) :
    Stops (fun c => !decide (c = ' ')) (cutAtMark rest).1 := by
  cases rest with
  | nil => exact Stops.nil
  | cons c rest =>
    have hc : c = ' ' := by simpa using h c rfl
    subst hc
    by_cases hcolon : rest.head? = some ':'
    · obtain ⟨rest', rfl⟩ := List.head?_eq_some_iff.mp hcolon
      exact Stops.nil
    · rw [cutAtMark_space hcolon]
      exact Stops.cons (by simp) _

/-- A space in front of what ends a token changes nothing. -/
theorem cutAtMark_space_of_stops {rest : List Char}
    (h : Stops (fun c => !decide (c = ' ')) rest) :
    cutAtMark (' ' :: rest) = (' ' :: (cutAtMark rest).1, (cutAtMark rest).2) := by
  refine cutAtMark_space fun hcolon => ?_
  have hspace := h ':' hcolon
  simp at hspace

/-- Taking the parameters token by token agrees with cutting them at the first
mark, also where a colon stands in front. -/
theorem splitArgs_eq_cut (cs : List Char) :
    splitArgs cs =
      (words (· = ' ') (cutAtMark (' ' :: cs)).1, (cutAtMark (' ' :: cs)).2) := by
  induction cs using splitArgs.induct with
  | case1 =>
    rw [splitArgs, cutAtMark_space (by simp)]
    simp [cutAtMark, words_cons_sep]
  | case2 rest ih =>
    have hhead : (' ' :: rest).head? ≠ some ':' := by simp
    rw [splitArgs, if_pos rfl, ih, cutAtMark_space hhead, words_cons_sep (by simp)]
  | case3 rest =>
    rw [splitArgs, if_neg (by decide), if_pos rfl, cutAtMark_mark, words_nil]
  | case4 c rest hspace hcolon _ _ _ ih =>
    -- the token ends at a space, so the space put in front of what follows is one too many
    have hstop : Stops (fun c => !decide (c = ' ')) (rest.dropWhile (· ≠ ' ')) := by
      simpa using Stops.dropWhile (p := fun c => !decide (c = ' ')) rest
    have htoken : ' ' ∉ c :: rest.takeWhile (· ≠ ' ') := by
      intro hm
      rcases List.mem_cons.mp hm with hc | hm
      · exact hspace hc.symm
      · exact absurd (mem_takeWhile hm) (by simp)
    have hcut : cutAtMark (' ' :: c :: rest) =
        (' ' :: (c :: rest.takeWhile (· ≠ ' ') ++ (cutAtMark (rest.dropWhile (· ≠ ' '))).1),
          (cutAtMark (rest.dropWhile (· ≠ ' '))).2) := by
      have htail := cutAtMark_append htoken (rest.dropWhile (· ≠ ' '))
      rw [List.cons_append, List.takeWhile_append_dropWhile] at htail
      rw [cutAtMark_space (by simpa using hcolon), htail]
    rw [splitArgs, if_neg hspace, if_neg hcolon, ih, hcut, cutAtMark_space_of_stops hstop]
    simp only [words_cons_sep (p := (· = ' ')) (decide_eq_true rfl)]
    rw [words_append_stops (by simp) _ (stops_cutAtMark hstop)]
    intro d hd
    exact decide_eq_false fun hds => htoken (hds ▸ hd)

/-- **Taking the parameters token by token** finds the words in front of the first
mark and the text behind it. -/
theorem splitArgs_eq {args : List Char} (h : args = [] ∨ args.head? = some ' ') :
    splitArgs args = (words (· = ' ') (cutAtMark args).1, (cutAtMark args).2) := by
  rcases h with rfl | h
  · rw [splitArgs, cutAtMark, words_nil]
  · obtain ⟨rest, rfl⟩ := List.head?_eq_some_iff.mp h
    rw [splitArgs, if_pos rfl, splitArgs_eq_cut]

end Args

/-! ### Sections -/

theorem takeSection_none {mark : Char} {cs : List Char} (h : cs.head? ≠ some mark) :
    takeSection mark cs = (none, cs) := by
  cases cs with
  | nil => rfl
  | cons c rest =>
    have hc : c ≠ mark := fun hc => h (by rw [hc, List.head?_cons])
    simp [takeSection, hc]

theorem takeSection_cons (mark c : Char) (rest : List Char) :
    takeSection mark (c :: rest) =
      if c = mark ∧ rest.takeWhile (· ≠ ' ') ≠ [] then
        (some (rest.takeWhile (· ≠ ' ')), rest.dropWhile (· ≠ ' '))
      else (none, c :: rest) := by
  rw [takeSection]
  simp only [Bool.and_eq_true, decide_eq_true_eq]

/-- A section is taken off up to the space that ends it. -/
theorem takeSection_some {mark : Char} {t rest : List Char} (hne : t ≠ []) (ht : ' ' ∉ t)
    (hrest : rest.head? = some ' ') :
    takeSection mark (mark :: (t ++ rest)) = (some t, rest) := by
  have hrun : ∀ c ∈ t, decide (c ≠ ' ') = true :=
    fun c hc => decide_eq_true fun hspace => ht (hspace ▸ hc)
  have hstop : Stops (fun c => decide (c ≠ ' ')) rest := by
    intro c hc
    rw [hrest, Option.mem_some_iff] at hc
    simp [← hc]
  rw [takeSection_cons, takeWhile_append hrun hstop, dropWhile_append hrun hstop,
    if_pos ⟨rfl, hne⟩]

/-- What is taken off is a section, or nothing is. -/
theorem takeSection_cases (mark : Char) (cs : List Char) :
    takeSection mark cs = (none, cs) ∨
      ∃ t rest, takeSection mark cs = (some t, rest) ∧ cs = mark :: (t ++ rest) ∧
        t ≠ [] ∧ ' ' ∉ t ∧ (rest = [] ∨ rest.head? = some ' ') := by
  cases cs with
  | nil => exact .inl rfl
  | cons c rest =>
    by_cases hc : c = mark ∧ rest.takeWhile (· ≠ ' ') ≠ []
    · refine .inr ⟨rest.takeWhile (· ≠ ' '), rest.dropWhile (· ≠ ' '), ?_, ?_, hc.2, ?_, ?_⟩
      · rw [takeSection_cons, if_pos hc]
      · rw [List.takeWhile_append_dropWhile, hc.1]
      · exact fun hm => absurd (mem_takeWhile hm) (by simp)
      · have hstop := Stops.dropWhile (p := fun c => decide (c ≠ ' ')) rest
        cases hrest : rest.dropWhile (· ≠ ' ') with
        | nil => exact .inl rfl
        | cons d rest' =>
          have hd := hstop d (by rw [hrest]; rfl)
          exact .inr (by simpa using hd)
    · left
      rw [takeSection_cons, if_neg hc]

/-- The blanks that a layout allows are the ones that are skipped. -/
theorem isSectionBlank_iff {c : Char} : isSectionBlank c = true ↔ c = ' ' ∨ c = '\t' := by
  simp [isSectionBlank]

theorem isAlphanum_ne {c d : Char} (hc : c.isAlphanum = true) (hd : d.isAlphanum = false) :
    c ≠ d := by
  rintro rfl
  rw [hc] at hd
  exact absurd hd (by simp)

theorem skipBlanks_append {v rest : List Char} (hv : ∀ c ∈ v, c = ' ' ∨ c = '\t')
    (hrest : Stops isSectionBlank rest) : skipBlanks (v ++ rest) = rest :=
  dropWhile_append (fun c hc => isSectionBlank_iff.mpr (hv c hc)) hrest

/-- The blanks that are skipped, with what they stand in front of. -/
theorem takeBlanks_append (cs : List Char) :
    cs.takeWhile isSectionBlank ++ skipBlanks cs = cs := List.takeWhile_append_dropWhile

theorem stops_skipBlanks (cs : List Char) : Stops isSectionBlank (skipBlanks cs) :=
  Stops.dropWhile cs

theorem mem_takeBlanks {cs : List Char} {c : Char} (h : c ∈ cs.takeWhile isSectionBlank) :
    c = ' ' ∨ c = '\t' := isSectionBlank_iff.mp (mem_takeWhile h)

theorem head?_takeBlanks {cs : List Char} (h : cs.head? = some ' ') :
    (cs.takeWhile isSectionBlank).head? = some ' ' := by
  rw [List.head?_takeWhile, h]
  rfl

/-! ### Layouts and sections -/

theorem checkLimits_eq_ok_iff {s : Sections} :
    checkLimits s = .ok () ↔ byteLength (s.tags.getD []) ≤ Limits.tags ∧
      byteLength s.body ≤ Limits.body ∧ s.middles.length ≤ Limits.middles := by
  rw [checkLimits]
  by_cases ht : byteLength (s.tags.getD []) > Limits.tags
  · simp [ht, Nat.not_le.mpr ht]
  · by_cases hb : byteLength s.body > Limits.body
    · simp [ht, hb, Nat.not_le.mpr hb]
    · by_cases hm : s.middles.length > Limits.middles
      · simp [ht, hb, hm, Nat.not_le.mpr hm]
      · simp [ht, hb, hm, Nat.not_lt.mp ht, Nat.not_lt.mp hb, Nat.not_lt.mp hm]

namespace Layout

/-- The raw pieces of a layout. -/
def sections (l : Layout) : Sections where
  tags := l.tags
  source := l.source.map Prod.fst
  command := l.command
  middles := l.middles
  trailing := l.trailing
  body := l.body

theorem ofSections_sections (l : Layout) : ofSections l.sections = l.message := by
  rw [ofSections, message, sections, Option.map_map]
  rfl

theorem checkLimits_sections {l : Layout} : checkLimits l.sections = .ok () ↔ l.Fits := by
  have htags : byteLength (l.tags.getD []) ≤ Limits.tags ↔
      ∀ t, l.tags = some t → byteLength t ≤ Limits.tags := by
    cases l.tags with
    | none => simp
    | some t => simp
  rw [checkLimits_eq_ok_iff]
  show byteLength (l.tags.getD []) ≤ Limits.tags ∧ byteLength l.body ≤ Limits.body ∧
    l.middles.length ≤ Limits.middles ↔ _
  rw [htags]
  exact ⟨fun ⟨ht, hb, hm⟩ => ⟨ht, hb, hm⟩, fun ⟨ht, hb, hm⟩ => ⟨ht, hb, hm⟩⟩

variable {l : Layout}

/-- The command word and what follows begin with no blank and with no mark. -/
theorem WellFormed.head_command (h : l.WellFormed) (rest : List Char) :
    ∃ c, (l.command ++ rest).head? = some c ∧ c.isAlphanum = true := by
  obtain ⟨c, command, hc⟩ := List.exists_cons_of_ne_nil h.command_ne
  exact ⟨c, by rw [hc]; rfl, h.command c (by rw [hc]; exact List.mem_cons_self)⟩

theorem WellFormed.stops_command (h : l.WellFormed) (rest : List Char) :
    Stops isSectionBlank (l.command ++ rest) := by
  obtain ⟨c, hhead, hc⟩ := h.head_command rest
  intro d hd
  rw [hhead, Option.mem_some_iff] at hd
  subst hd
  rw [Bool.eq_false_iff]
  intro hblank
  rcases isSectionBlank_iff.mp hblank with rfl | rfl <;> exact absurd hc (by decide)

theorem WellFormed.stops_args (h : l.WellFormed) : Stops Char.isAlphanum l.args := by
  rcases h.args with hargs | hargs
  · rw [hargs]
    exact Stops.nil
  · intro c hc
    rw [hargs, Option.mem_some_iff] at hc
    subst hc
    decide

/-- The source is taken off the body. -/
theorem WellFormed.takeSection_body (h : l.WellFormed) :
    takeSection ':' l.body =
      (l.source.map Prod.fst, ((l.source.map Prod.snd).getD []) ++ (l.command ++ l.args)) := by
  cases hsource : l.source with
  | none =>
    obtain ⟨c, hhead, hc⟩ := h.head_command l.args
    rw [body, hsource, sourceText, List.nil_append]
    rw [takeSection_none]
    · rfl
    · rw [hhead, Ne, Option.some_inj]
      exact isAlphanum_ne hc (by decide)
  | some s =>
    obtain ⟨p, v⟩ := s
    -- the first of the blanks is the space that ends the source
    obtain ⟨hne, hp, hv, -⟩ := h.source p v hsource
    obtain ⟨v', rfl⟩ := List.head?_eq_some_iff.mp hv
    rw [body, hsource, sourceText]
    show takeSection ':' (':' :: (p ++ ' ' :: v') ++ l.command ++ l.args) = _
    rw [List.append_assoc, List.cons_append, List.append_assoc, takeSection_some hne hp rfl]
    rfl

theorem WellFormed.stops_body (h : l.WellFormed) : Stops isSectionBlank l.body := by
  cases hsource : l.source with
  | none =>
    rw [body, hsource, sourceText, List.nil_append]
    exact h.stops_command l.args
  | some s =>
    rw [body, hsource, sourceText]
    exact Stops.cons (by decide) _

/-- The tags are taken off the line. -/
theorem WellFormed.takeSection_text (h : l.WellFormed) :
    takeSection '@' l.text = (l.tags, l.gap ++ l.body) := by
  cases htags : l.tags with
  | none =>
    rw [text, htags, tagsText, List.nil_append]
    refine takeSection_none fun hmark => ?_
    -- the line begins with a blank, a colon or a character of the command word
    cases hgap : l.gap with
    | cons c gap =>
      rw [hgap, List.cons_append, List.head?_cons, Option.some_inj] at hmark
      have hc := h.gap c (by rw [hgap]; exact List.mem_cons_self)
      rw [hmark] at hc
      exact absurd hc (by decide)
    | nil =>
      rw [hgap, List.nil_append] at hmark
      cases hsource : l.source with
      | none =>
        obtain ⟨c, hhead, hc⟩ := h.head_command l.args
        rw [body, hsource, sourceText, List.nil_append, hhead, Option.some_inj] at hmark
        exact isAlphanum_ne hc (by decide) hmark
      | some s =>
        rw [body, hsource, sourceText] at hmark
        exact absurd hmark (by simp)
  | some t =>
    -- the first blank of the gap is the space that ends the tags
    obtain ⟨hne, ht, hgap⟩ := h.tags t htags
    obtain ⟨gap, hgap⟩ := List.head?_eq_some_iff.mp hgap
    rw [text, htags, tagsText, hgap]
    show takeSection '@' ('@' :: t ++ ' ' :: gap ++ l.body) = _
    rw [List.append_assoc, List.cons_append, takeSection_some hne ht rfl]

theorem WellFormed.skipBlanks_source (h : l.WellFormed) :
    skipBlanks (((l.source.map Prod.snd).getD []) ++ (l.command ++ l.args)) =
      l.command ++ l.args := by
  refine skipBlanks_append (fun c hc => ?_) (h.stops_command l.args)
  cases hsource : l.source with
  | none => rw [hsource] at hc; exact absurd hc List.not_mem_nil
  | some s =>
    rw [hsource] at hc
    exact (h.source s.1 s.2 hsource).2.2.2 c hc

/-- The text of a layout falls apart into its pieces. -/
theorem WellFormed.splitSections_text (h : l.WellFormed) :
    splitSections l.text = .ok l.sections := by
  have hcommand := Text.takeWhile_append (p := Char.isAlphanum) h.command h.stops_args
  have hargs := Text.dropWhile_append (p := Char.isAlphanum) h.command h.stops_args
  simp only [splitSections, h.takeSection_text, skipBlanks_append h.gap h.stops_body,
    h.takeSection_body, h.skipBlanks_source, hcommand, hargs]
  rw [if_pos (by simpa [h.command_ne] using h.args), splitArgs_eq h.args]
  rfl

/-- A line has one layout at most. -/
theorem text_inj {l' : Layout} (h : l.WellFormed) (h' : l'.WellFormed) (ht : l.text = l'.text) :
    l = l' := by
  have hsections : l.sections = l'.sections := by
    have hok := h.splitSections_text
    rw [ht, h'.splitSections_text, Except.ok.injEq] at hok
    exact hok.symm
  have htags : l.tags = l'.tags := congrArg Sections.tags hsections
  have hcommand : l.command = l'.command := congrArg Sections.command hsections
  have hbody : l.body = l'.body := congrArg Sections.body hsections
  have hgap : l.gap = l'.gap := by
    rw [text, text, htags, hbody, List.append_left_inj, List.append_right_inj] at ht
    exact ht
  -- behind the source, the blanks end where the command word begins
  have hrest : l.source.map Prod.fst = l'.source.map Prod.fst ∧
      (l.source.map Prod.snd).getD [] ++ (l.command ++ l.args) =
        (l'.source.map Prod.snd).getD [] ++ (l'.command ++ l'.args) := by
    have hsource := h.takeSection_body
    rw [hbody, h'.takeSection_body, Prod.mk.injEq] at hsource
    exact ⟨hsource.1.symm, hsource.2.symm⟩
  have hargs : l.args = l'.args := by
    have hskip := h.skipBlanks_source
    rw [hrest.2, h'.skipBlanks_source, hcommand, List.append_right_inj] at hskip
    exact hskip.symm
  have hsource : l.source = l'.source := by
    obtain ⟨hname, hblanks⟩ := hrest
    rw [hcommand, hargs, List.append_left_inj] at hblanks
    cases hs : l.source with
    | none =>
      rw [hs, Option.map_none] at hname
      exact (Option.map_eq_none_iff.mp hname.symm).symm
    | some s =>
      cases hs' : l'.source with
      | none => rw [hs, hs'] at hname; exact absurd hname (by simp)
      | some s' =>
        rw [hs, hs', Option.map_some, Option.map_some, Option.some_inj] at hname
        rw [hs, hs'] at hblanks
        rw [Option.some_inj]
        exact Prod.ext hname hblanks
  cases l
  cases l'
  simp only at htags hgap hsource hcommand hargs
  rw [htags, hgap, hsource, hcommand, hargs]

end Layout

/-- What is in front of the body when a line falls apart. -/
theorem exists_tagsText {line : List Char} (hne : skipBlanks (takeSection '@' line).2 ≠ []) :
    ∃ gap, line = Layout.tagsText (takeSection '@' line).1 ++ gap ++
        skipBlanks (takeSection '@' line).2 ∧
      (∀ c ∈ gap, c = ' ' ∨ c = '\t') ∧
      ∀ t, (takeSection '@' line).1 = some t → t ≠ [] ∧ ' ' ∉ t ∧ gap.head? = some ' ' := by
  refine ⟨(takeSection '@' line).2.takeWhile isSectionBlank, ?_, fun c => mem_takeBlanks, ?_⟩
  · rw [List.append_assoc, takeBlanks_append]
    rcases takeSection_cases '@' line with h | ⟨t, rest, h, hline, -⟩
    · rw [h]
      rfl
    · rw [h]
      exact hline
  · intro t ht
    rcases takeSection_cases '@' line with h | ⟨t', rest, h, -, htne, hspace, hrest⟩
    · rw [h] at ht
      exact absurd ht (by simp)
    · rw [h] at ht hne ⊢
      rw [Option.some_inj] at ht
      subst ht
      -- tags that reach to the end of the line leave no body
      rcases hrest with rfl | hrest
      · exact absurd rfl hne
      · exact ⟨htne, hspace, head?_takeBlanks hrest⟩

/-- What is in front of the command word when a body falls apart. -/
theorem exists_sourceText {body : List Char} (hbody : Stops isSectionBlank body)
    (hne : skipBlanks (takeSection ':' body).2 ≠ []) :
    ∃ source, source.map Prod.fst = (takeSection ':' body).1 ∧
      body = Layout.sourceText source ++ skipBlanks (takeSection ':' body).2 ∧
      ∀ p v, source = some (p, v) →
        p ≠ [] ∧ ' ' ∉ p ∧ v.head? = some ' ' ∧ ∀ c ∈ v, c = ' ' ∨ c = '\t' := by
  rcases takeSection_cases ':' body with h | ⟨t, rest, h, hline, htne, hspace, hrest⟩
  · refine ⟨none, by rw [h]; rfl, ?_, fun p v hsource => absurd hsource (by simp)⟩
    rw [h]
    exact (dropWhile_of_stops hbody).symm
  · -- neither does a source leave a command word
    rw [h] at hne ⊢
    rcases hrest with rfl | hrest
    · exact absurd rfl hne
    · refine ⟨some (t, rest.takeWhile isSectionBlank), rfl, ?_, ?_⟩
      · rw [Layout.sourceText, List.append_assoc, takeBlanks_append]
        exact hline
      · rintro p v hsource
        rw [Option.some_inj, Prod.mk.injEq] at hsource
        obtain ⟨rfl, rfl⟩ := hsource
        exact ⟨htne, hspace, head?_takeBlanks hrest, fun c => mem_takeBlanks⟩

/-- A line that falls apart has a layout. -/
theorem exists_layout_of_splitSections {line : List Char} {s : Sections}
    (h : splitSections line = .ok s) :
    ∃ l : Layout, l.WellFormed ∧ l.text = line ∧ l.sections = s := by
  simp only [splitSections] at h
  split_ifs at h with hok
  rw [Except.ok.injEq] at h
  simp only [Bool.and_eq_true, Bool.or_eq_true, decide_eq_true_eq] at hok
  obtain ⟨hcommand, hargs⟩ := hok
  -- the command word is not empty, so each section in front of it ended at a space
  have hafter : skipBlanks (takeSection ':' (skipBlanks (takeSection '@' line).2)).2 ≠ [] := by
    intro hnil
    rw [hnil] at hcommand
    exact hcommand rfl
  have hbody : skipBlanks (takeSection '@' line).2 ≠ [] := by
    intro hnil
    rw [hnil] at hafter
    exact hafter rfl
  obtain ⟨gap, hline, hgap, htags⟩ := exists_tagsText hbody
  obtain ⟨source, hfst, hsource, hwf⟩ := exists_sourceText (stops_skipBlanks _) hafter
  set after := skipBlanks (takeSection ':' (skipBlanks (takeSection '@' line).2)).2
  have hjoin : after.takeWhile Char.isAlphanum ++ after.dropWhile Char.isAlphanum = after :=
    List.takeWhile_append_dropWhile
  have hlayout : Layout.sourceText source ++ after.takeWhile Char.isAlphanum ++
      after.dropWhile Char.isAlphanum = skipBlanks (takeSection '@' line).2 := by
    rw [List.append_assoc, hjoin, ← hsource]
  refine ⟨⟨(takeSection '@' line).1, gap, source, after.takeWhile Char.isAlphanum,
    after.dropWhile Char.isAlphanum⟩, ⟨htags, hgap, hwf, hcommand, fun c => mem_takeWhile, hargs⟩,
    ?_, ?_⟩
  · rw [Layout.text, Layout.body, hlayout]
    exact hline.symm
  · rw [← h, Layout.sections, Layout.middles, Layout.trailing, Layout.body, hlayout, hfst,
      splitArgs_eq hargs]

/-- A line falls apart just when it has a layout. -/
theorem splitSections_eq_ok_iff {line : List Char} {s : Sections} :
    splitSections line = .ok s ↔ ∃ l : Layout, l.WellFormed ∧ l.text = line ∧ l.sections = s := by
  constructor
  · exact exists_layout_of_splitSections
  · rintro ⟨l, hl, rfl, rfl⟩
    exact hl.splitSections_text

/-! ### The parser -/

/-- The characters of a command word lie between `0` and `z`. -/
theorem toNat_of_isAlphanum {c : Char} (h : c.isAlphanum = true) :
    48 ≤ c.toNat ∧ c.toNat ≤ 122 := by
  simp only [Char.isAlphanum, Char.isAlpha, Char.isUpper, Char.isLower, Char.isDigit,
    Bool.or_eq_true, Bool.and_eq_true, decide_eq_true_eq, UInt32.le_iff_toNat_le, ge_iff_le] at h
  change (((65 ≤ c.toNat ∧ c.toNat ≤ 90) ∨ (97 ≤ c.toNat ∧ c.toNat ≤ 122)) ∨
    (48 ≤ c.toNat ∧ c.toNat ≤ 57)) at h
  omega

/-- No character of a command word is a blank. -/
theorem isBlank_of_isAlphanum {c : Char} (h : c.isAlphanum = true) : isBlank c = false := by
  obtain ⟨hlo, hhi⟩ := toNat_of_isAlphanum h
  rw [isBlank, Ranges.contains, List.any_eq_false]
  intro range hrange
  -- no range of blanks meets the ones from `0` to `z`
  have hout : range.2 < 48 ∨ 122 < range.1 := by
    revert range
    decide
  simp only [Bool.and_eq_true, decide_eq_true_eq, not_and]
  omega

theorem find?_isLineBreaker_eq_none_iff {cs : List Char} :
    cs.find? isLineBreaker = none ↔ ∀ c ∈ cs, c ≠ '\x00' ∧ c ≠ '\r' ∧ c ≠ '\n' := by
  rw [List.find?_eq_none]
  refine forall₂_congr fun c _ => ?_
  simp only [isLineBreaker, Bool.or_eq_true, decide_eq_true_eq, not_or]
  tauto

/-- A line with a layout is not blank. -/
theorem Layout.WellFormed.not_all_isBlank {l : Layout} (h : l.WellFormed) :
    ¬ l.text.all isBlank = true := by
  intro hall
  obtain ⟨c, command, hcommand⟩ := List.exists_cons_of_ne_nil h.command_ne
  have hc : c ∈ l.command := by rw [hcommand]; exact List.mem_cons_self
  have hmem : c ∈ l.text := by simp [Layout.text, Layout.body, hc]
  have hblank := List.all_eq_true.mp hall c hmem
  rw [isBlank_of_isAlphanum (h.command c hc)] at hblank
  exact absurd hblank (by simp)

theorem parseChars_eq_ok_iff {line : List Char} {m : Message} :
    parseChars line = .ok m ↔ (∀ c ∈ line, c ≠ '\x00' ∧ c ≠ '\r' ∧ c ≠ '\n') ∧
      ∃ l : Layout, l.WellFormed ∧ l.text = line ∧ l.Fits ∧ m = l.message := by
  constructor
  · intro h
    rw [parseChars] at h
    split at h
    · exact absurd h (by simp)
    split at h
    · exact absurd h (by simp)
    rename_i hbreaker
    split at h
    · exact absurd h (by simp)
    rename_i s hs
    obtain ⟨l, hl, htext, rfl⟩ := splitSections_eq_ok_iff.mp hs
    split at h
    · exact absurd h (by simp)
    rename_i hlimits
    rw [Except.ok.injEq, Layout.ofSections_sections] at h
    exact ⟨find?_isLineBreaker_eq_none_iff.mp hbreaker, l, hl, htext,
      Layout.checkLimits_sections.mp hlimits, h.symm⟩
  · rintro ⟨hunbroken, l, hl, rfl, hfits, rfl⟩
    rw [parseChars, if_neg hl.not_all_isBlank,
      find?_isLineBreaker_eq_none_iff.mpr hunbroken]
    simp only [hl.splitSections_text, Layout.checkLimits_sections.mpr hfits,
      Layout.ofSections_sections]

/-- **The parser accepts its grammar.**  A line is accepted just when it has a
layout within the limits, and then stands for the message of that layout; it has
one layout at most. -/
theorem parse_ok_iff_layout (line : String) :
    (∀ m, parse line = .ok m ↔ ∃ l : Layout, l.Of line ∧ l.Fits ∧ m = l.message) ∧
      ∀ l l' : Layout, l.Of line → l'.Of line → l = l' := by
  refine ⟨fun m => ?_, fun l l' h h' => ?_⟩
  · rw [parse, parseChars_eq_ok_iff, trimEnd_eq_rdropWhile]
    constructor
    · rintro ⟨hunbroken, l, hl, htext, hfits, rfl⟩
      exact ⟨l, ⟨hl, htext, htext ▸ hunbroken⟩, hfits, rfl⟩
    · rintro ⟨l, ⟨hl, htext, hunbroken⟩, hfits, rfl⟩
      exact ⟨htext ▸ hunbroken, l, hl, htext, hfits, rfl⟩
  · exact Layout.text_inj h.wellFormed h'.wellFormed (h.text_eq.trans h'.text_eq.symm)

end Irc.Message
