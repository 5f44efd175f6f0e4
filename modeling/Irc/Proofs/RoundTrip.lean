/-
Messages read back as they were written.

`Printable` collects what the written form of a message needs: that no part of it
ends early or breaks the line, and that the limits hold.  `printed` is the layout
of the written form, so that the grammar says how it is read:

* **`parse_render_of_printable`** — a printable message is read back, without its
  empty tags;
* **`parse_render_of_empty`** — a message whose only tag is empty is not read back;
* **`printable_of_parse`** — every message that was read is printable;
* **`parse_render_of_parse`** — a message that was read comes back from its written
  form just when it has no empty tag.
-/
import Irc.Message.Printer
import Irc.Proofs.Grammar
import Irc.Proofs.Source
import Irc.Proofs.Tag

namespace Irc.Message

open Text

/-- A character that may stand anywhere in a line. -/
def Unbroken (c : Char) : Prop := c ≠ '\x00' ∧ c ≠ '\r' ∧ c ≠ '\n'

instance (c : Char) : Decidable (Unbroken c) := inferInstanceAs (Decidable (_ ∧ _ ∧ _))

/-- A parameter that may stand between spaces. -/
def Standalone (p : String) : Prop :=
  p ≠ "" ∧ p.toList.head? ≠ some ':' ∧ ∀ c ∈ p.toList, c ≠ ' ' ∧ Unbroken c

/-- A message whose written form keeps to the grammar and to the limits. -/
structure Printable (m : Message) : Prop where
  tags : ∀ tag ∈ m.tags, tag.WellFormed
  source : ∀ s, m.source = some s →
    Source.parse s.render = s ∧ s.render ≠ "" ∧ ∀ c ∈ s.render.toList, c ≠ ' ' ∧ Unbroken c
  command_ne : m.command ≠ ""
  command : ∀ c ∈ m.command.toList, c.isAlphanum = true
  upper_command : upper m.command = m.command
  middles : ∀ p ∈ m.middles, Standalone p
  trailing : ∀ t, m.trailing = some t → ∀ c ∈ t.toList, Unbroken c
  byteLength_tags : byteLength (Tag.renderSection m.tags) ≤ Limits.tags
  byteLength_body : byteLength (renderBody m) ≤ Limits.body
  length_middles : m.middles.length ≤ Limits.middles

/-- The layout of the written form. -/
def printed (m : Message) : Layout where
  tags := if m.tags = [] then none else some (Tag.renderSection m.tags)
  gap := if m.tags = [] then [] else [' ']
  source := m.source.map fun s => (s.render.toList, [' '])
  command := m.command.toList
  args := renderArgs m.middles m.trailing

/-! ### Parameters -/

theorem renderArgs_cons (p : String) (middles : List String) (trailing : Option String) :
    renderArgs (p :: middles) trailing = ' ' :: (p.toList ++ renderArgs middles trailing) := by
  unfold renderArgs
  rw [List.flatMap_cons, List.cons_append, List.cons_append, List.append_assoc]

theorem renderArgs_eq_nil_or (middles : List String) (trailing : Option String) :
    renderArgs middles trailing = [] ∨ (renderArgs middles trailing).head? = some ' ' := by
  cases middles with
  | nil =>
    cases trailing with
    | none => exact .inl rfl
    | some t => exact .inr rfl
  | cons p middles =>
    rw [renderArgs_cons]
    exact .inr rfl

/-- Written parameters are cut at the mark of the trailing one. -/
theorem cutAtMark_renderArgs {middles : List String} (trailing : Option String)
    (h : ∀ p ∈ middles, Standalone p) :
    Layout.cutAtMark (renderArgs middles trailing) =
      (middles.flatMap (' ' :: ·.toList), trailing.map String.toList) := by
  induction middles with
  | nil => cases trailing <;> rfl
  | cons p middles ih =>
    obtain ⟨hne, hcolon, hchars⟩ := h p List.mem_cons_self
    have hrest := ih fun q hq => h q (List.mem_cons_of_mem p hq)
    have hspace : ' ' ∉ p.toList := fun hm => (hchars ' ' hm).1 rfl
    have hhead : (p.toList ++ renderArgs middles trailing).head? ≠ some ':' := by
      obtain ⟨c, cs, hcs⟩ := List.exists_cons_of_ne_nil
        (fun hnil => hne (String.toList_eq_nil_iff.mp hnil))
      rw [hcs] at hcolon ⊢
      exact hcolon
    rw [renderArgs_cons, cutAtMark_space hhead, cutAtMark_append hspace, hrest,
      List.flatMap_cons, List.cons_append]

/-- The middle parameters are the words in front of the mark. -/
theorem words_middles {middles : List String}
    (h : ∀ p ∈ middles, Standalone p) :
    words (· = ' ') (middles.flatMap (' ' :: ·.toList)) = middles.map String.toList := by
  induction middles with
  | nil => exact words_nil
  | cons p middles ih =>
    obtain ⟨hne, -, hchars⟩ := h p List.mem_cons_self
    have hrest := ih fun q hq => h q (List.mem_cons_of_mem p hq)
    have hstop : Stops (fun c => !decide (c = ' ')) (middles.flatMap (' ' :: ·.toList)) := by
      cases middles with
      | nil => exact Stops.nil
      | cons q middles => exact Stops.cons (by decide) _
    rw [List.flatMap_cons, List.cons_append, words_cons_sep (decide_eq_true rfl),
      words_append_stops (fun hnil => hne (String.toList_eq_nil_iff.mp hnil))
        (fun c hc => decide_eq_false (hchars c hc).1) hstop, hrest, List.map_cons]

/-! ### The layout of the written form -/

theorem printed_of_nil {m : Message} (h : m.tags = []) :
    (printed m).tags = none ∧ (printed m).gap = [] := ⟨if_pos h, if_pos h⟩

theorem printed_of_ne {m : Message} (h : m.tags ≠ []) :
    (printed m).tags = some (Tag.renderSection m.tags) ∧ (printed m).gap = [' '] :=
  ⟨if_neg h, if_neg h⟩

theorem body_printed (m : Message) : (printed m).body = renderBody m := by
  obtain ⟨tags, source, command, middles, trailing⟩ := m
  cases source with
  | none => rfl
  | some s =>
    show ':' :: s.render.toList ++ [' '] ++ command.toList ++ renderArgs middles trailing = _
    rw [renderBody, renderSource]

theorem text_printed (m : Message) : (printed m).text = m.render.toList := by
  rw [Layout.text, body_printed, render, String.toList_ofList, renderTags]
  by_cases htags : m.tags = []
  · rw [if_pos htags, (printed_of_nil htags).1, (printed_of_nil htags).2]
    rfl
  · rw [if_neg htags, (printed_of_ne htags).1, (printed_of_ne htags).2]
    rfl

variable {m : Message}

theorem middles_printed (h : ∀ p ∈ m.middles, Standalone p) :
    (printed m).middles.map String.ofList = m.middles := by
  rw [Layout.middles, printed, cutAtMark_renderArgs m.trailing h]
  dsimp only
  rw [words_middles h, List.map_map]
  exact (List.map_congr_left fun p _ => String.ofList_toList).trans (List.map_id _)

theorem trailing_printed (h : ∀ p ∈ m.middles, Standalone p) :
    (printed m).trailing.map String.ofList = m.trailing := by
  rw [Layout.trailing, printed, cutAtMark_renderArgs m.trailing h, Option.map_map]
  cases m.trailing with
  | none => rfl
  | some t => exact congrArg some String.ofList_toList

theorem length_middles_printed (h : ∀ p ∈ m.middles, Standalone p) :
    (printed m).middles.length = m.middles.length := by
  rw [← List.length_map, middles_printed h]

/-- The written form keeps to the grammar, unless its only tag is empty. -/
theorem Printable.wellFormed (h : m.Printable) (hempty : m.tags ≠ [Tag.empty]) :
    (printed m).WellFormed where
  tags := by
    intro t ht
    by_cases htags : m.tags = []
    · rw [(printed_of_nil htags).1] at ht
      exact absurd ht (by simp)
    · rw [(printed_of_ne htags).1, Option.some_inj] at ht
      subst ht
      rw [(printed_of_ne htags).2]
      -- a section that is written with nothing would not be taken for one
      refine ⟨fun hnil => ?_, fun hspace => (Tag.of_mem_renderSection h.tags hspace).1 rfl, rfl⟩
      exact (Tag.renderSection_eq_nil_iff.mp hnil).elim htags hempty
  gap := by
    intro c hc
    by_cases htags : m.tags = []
    · rw [(printed_of_nil htags).2] at hc
      exact absurd hc List.not_mem_nil
    · rw [(printed_of_ne htags).2] at hc
      exact .inl (List.mem_singleton.mp hc)
  source := by
    intro p v hsource
    obtain ⟨s, hs, hpv⟩ := Option.map_eq_some_iff.mp hsource
    obtain ⟨rfl, rfl⟩ := Prod.mk.inj hpv
    obtain ⟨-, hne, hchars⟩ := h.source s hs
    refine ⟨fun hnil => hne (String.toList_eq_nil_iff.mp hnil),
      fun hspace => (hchars ' ' hspace).1 rfl, rfl, fun c hc => .inl (List.mem_singleton.mp hc)⟩
  command_ne := fun hnil => h.command_ne (String.toList_eq_nil_iff.mp hnil)
  command := h.command
  args := renderArgs_eq_nil_or m.middles m.trailing

theorem Printable.fits (h : m.Printable) : (printed m).Fits where
  tags := by
    intro t ht
    rw [printed] at ht
    split_ifs at ht
    rw [Option.some_inj] at ht
    exact ht ▸ h.byteLength_tags
  body := by
    rw [body_printed]
    exact h.byteLength_body
  middles := by
    rw [length_middles_printed h.middles]
    exact h.length_middles

/-- The written form stands for the message without its empty tags. -/
theorem Printable.message_printed (h : m.Printable) :
    (printed m).message = { m with tags := m.tags.filter (· ≠ Tag.empty) } := by
  have htags : ((printed m).tags.map Tag.parseSection).getD [] =
      m.tags.filter (· ≠ Tag.empty) := by
    by_cases hnil : m.tags = []
    · rw [(printed_of_nil hnil).1, hnil]
      rfl
    · rw [(printed_of_ne hnil).1]
      exact Tag.parseSection_renderSection h.tags
  have hsource : ((printed m).source.map fun s => Source.parse (String.ofList s.1)) =
      m.source := by
    rw [printed, Option.map_map]
    cases hs : m.source with
    | none => rfl
    | some s =>
      show some (Source.parse (String.ofList s.render.toList)) = some s
      rw [String.ofList_toList, (h.source s hs).1]
  have hcommand : upper (String.ofList (printed m).command) = m.command := by
    show upper (String.ofList m.command.toList) = m.command
    rw [String.ofList_toList, h.upper_command]
  rw [Layout.message, htags, hsource, hcommand, middles_printed h.middles,
    trailing_printed h.middles]

/-! ### The written form is one line -/

theorem mem_renderArgs {c : Char} {middles : List String} {trailing : Option String} :
    c ∈ renderArgs middles trailing ↔ (∃ p ∈ middles, c = ' ' ∨ c ∈ p.toList) ∨
      ∃ t, trailing = some t ∧ (c = ' ' ∨ c = ':' ∨ c ∈ t.toList) := by
  unfold renderArgs
  cases trailing <;> simp [List.mem_flatMap]

theorem Printable.unbroken_renderArgs (h : m.Printable) :
    ∀ c ∈ renderArgs m.middles m.trailing, Unbroken c := by
  intro c hc
  rcases mem_renderArgs.mp hc with ⟨p, hp, rfl | hc⟩ | ⟨t, ht, rfl | rfl | hc⟩
  · decide
  · exact ((h.middles p hp).2.2 c hc).2
  · decide
  · decide
  · exact h.trailing t ht c hc

theorem Printable.unbroken_renderTags (h : m.Printable) :
    ∀ c ∈ renderTags m.tags, Unbroken c := by
  intro c hc
  rw [renderTags] at hc
  split_ifs at hc
  · exact absurd hc List.not_mem_nil
  · rw [List.cons_append, List.mem_cons, List.mem_append, List.mem_singleton] at hc
    rcases hc with rfl | hc | rfl
    · decide
    · exact (Tag.of_mem_renderSection h.tags hc).2
    · decide

theorem Printable.unbroken_renderSource (h : m.Printable) :
    ∀ c ∈ renderSource m.source, Unbroken c := by
  intro c hc
  cases hs : m.source with
  | none =>
    rw [hs] at hc
    exact absurd hc List.not_mem_nil
  | some s =>
    rw [hs, renderSource, List.cons_append, List.mem_cons, List.mem_append,
      List.mem_singleton] at hc
    rcases hc with rfl | hc | rfl
    · decide
    · exact ((h.source s hs).2.2 c hc).2
    · decide

/-- Nothing in the written form breaks the line. -/
theorem Printable.unbroken (h : m.Printable) : ∀ c ∈ m.render.toList, Unbroken c := by
  intro c hc
  rw [render, String.toList_ofList, renderBody, List.mem_append, List.mem_append,
    List.mem_append] at hc
  rcases hc with hc | (hc | hc) | hc
  · exact h.unbroken_renderTags c hc
  · exact h.unbroken_renderSource c hc
  · have halnum := h.command c hc
    exact ⟨isAlphanum_ne halnum (by decide), isAlphanum_ne halnum (by decide),
      isAlphanum_ne halnum (by decide)⟩
  · exact h.unbroken_renderArgs c hc

/-- Such a text has no line end that reading would take off. -/
theorem trimEnd_of_unbroken {cs : List Char} (h : ∀ c ∈ cs, Unbroken c) :
    trimEnd isLineEnd cs = cs := by
  rw [trimEnd_eq_rdropWhile, List.rdropWhile_eq_self_iff]
  intro hne hend
  obtain ⟨-, hcr, hlf⟩ := h _ (List.getLast_mem hne)
  simp only [isLineEnd, Bool.or_eq_true, decide_eq_true_eq] at hend
  exact hend.elim hcr hlf

/-- **A printable message is read back**, without its empty tags. -/
theorem parse_render_of_printable (h : m.Printable) (hempty : m.tags ≠ [Tag.empty]) :
    parse m.render = .ok { m with tags := m.tags.filter (· ≠ Tag.empty) } := by
  rw [parse, trimEnd_of_unbroken h.unbroken, parseChars_eq_ok_iff]
  exact ⟨h.unbroken, printed m, h.wellFormed hempty, text_printed m, h.fits,
    h.message_printed.symm⟩

/-- **A message whose only tag is empty** is not read back: nothing stands behind the
mark of its tags. -/
theorem parse_render_of_empty (h : m.Printable) (htags : m.tags = [Tag.empty]) :
    parse m.render = .error (.malformed 0) := by
  have htext : m.render.toList = '@' :: ' ' :: renderBody m := by
    rw [render, String.toList_ofList, renderTags, htags]
    rfl
  have hblank : ¬ m.render.toList.all isBlank = true := by
    rw [htext]
    simp only [List.all_cons, Bool.and_eq_true, not_and]
    intro hmark
    exact absurd hmark (by decide)
  -- the mark stays in place, and no command word begins with it
  have hsections : splitSections m.render.toList = .error m.render.toList := by
    have htake : takeSection '@' ('@' :: ' ' :: renderBody m) = (none, '@' :: ' ' :: renderBody m) := by
      rw [takeSection_cons, if_neg (by simp)]
    rw [htext, splitSections, htake]
    rfl
  rw [parse, trimEnd_of_unbroken h.unbroken, parseChars, if_neg hblank,
    find?_isLineBreaker_eq_none_iff.mpr h.unbroken]
  simp only [hsections, Nat.sub_self]

/-! ### What was read is printable -/

/-- A command word in upper case is a command word of the same size, and stays. -/
theorem toUpper_of_isAlphanum {c : Char} (h : c.isAlphanum = true) :
    c.toUpper.isAlphanum = true ∧ c.toUpper.toUpper = c.toUpper ∧
      c.toUpper.utf8Size = c.utf8Size := by
  -- command words are made of the characters up to `z`, which are gone through one by one
  have htable : ∀ n : Fin 123, (Char.ofNat n).isAlphanum = true →
      (Char.ofNat n).toUpper.isAlphanum = true ∧
        (Char.ofNat n).toUpper.toUpper = (Char.ofNat n).toUpper ∧
        (Char.ofNat n).toUpper.utf8Size = (Char.ofNat n).utf8Size := by
    decide
  have hn := htable ⟨c.toNat, Nat.lt_succ_of_le (toNat_of_isAlphanum h).2⟩
  rw [Char.ofNat_toNat] at hn
  exact hn h

/-- What the parameters of a text are written with stands in the text. -/
theorem mem_splitArgs (cs : List Char) :
    (∀ w ∈ (splitArgs cs).1,
        w ≠ [] ∧ w.head? ≠ some ':' ∧ ' ' ∉ w ∧ ∀ c ∈ w, c ∈ cs) ∧
      ∀ t, (splitArgs cs).2 = some t → ∀ c ∈ t, c ∈ cs := by
  induction cs using splitArgs.induct with
  | case1 =>
    rw [splitArgs]
    exact ⟨fun w hw => absurd hw List.not_mem_nil, fun t ht => absurd ht (by simp)⟩
  | case2 rest ih =>
    rw [splitArgs, if_pos rfl]
    refine ⟨fun w hw => ?_, fun t ht c hc => List.mem_cons_of_mem _ (ih.2 t ht c hc)⟩
    obtain ⟨hne, hcolon, hspace, hmem⟩ := ih.1 w hw
    exact ⟨hne, hcolon, hspace, fun c hc => List.mem_cons_of_mem _ (hmem c hc)⟩
  | case3 rest =>
    rw [splitArgs, if_neg (by decide), if_pos rfl]
    refine ⟨fun w hw => absurd hw List.not_mem_nil, fun t ht c hc => ?_⟩
    rw [Option.some_inj] at ht
    exact List.mem_cons_of_mem _ (ht ▸ hc)
  | case4 c rest hspace hcolon _ _ _ ih =>
    -- what follows the token is what the rest of the parameters are read from
    have hdrop : ∀ d ∈ rest.dropWhile (· ≠ ' '), d ∈ c :: rest :=
      fun d hd => List.mem_cons_of_mem c ((List.dropWhile_sublist _).subset hd)
    rw [splitArgs, if_neg hspace, if_neg hcolon]
    refine ⟨fun w hw => ?_, fun t ht d hd => hdrop d (ih.2 t ht d hd)⟩
    rcases List.mem_cons.mp hw with rfl | hw
    · refine ⟨by simp, by simpa using hcolon, fun hm => ?_, fun d hd => ?_⟩
      · rcases List.mem_cons.mp hm with hc | hm
        · exact hspace hc.symm
        · exact absurd (mem_takeWhile hm) (by simp)
      · exact ((List.takeWhile_sublist _).cons_cons c).subset hd
    · obtain ⟨hne, hcolon', hspace', hmem⟩ := ih.1 w hw
      exact ⟨hne, hcolon', hspace', fun d hd => hdrop d (hmem d hd)⟩

/-- The bytes of written parameters. -/
def argBytes (args : List (List Char) × Option (List Char)) : Nat :=
  (args.1.map (byteLength · + 1)).sum + (args.2.map (byteLength · + 2)).getD 0

theorem byteLength_renderArgs (args : List (List Char) × Option (List Char)) :
    byteLength (renderArgs (args.1.map String.ofList) (args.2.map String.ofList)) =
      argBytes args := by
  obtain ⟨middles, trailing⟩ := args
  have hspace : (' ' : Char).utf8Size = 1 := by decide
  have hcolon : (':' : Char).utf8Size = 1 := by decide
  induction middles with
  | nil =>
    cases trailing with
    | none => rfl
    | some t =>
      show byteLength (' ' :: ':' :: (String.ofList t).toList) = _
      rw [String.toList_ofList, byteLength_cons, byteLength_cons, hspace, hcolon]
      simp only [argBytes, List.map_nil, List.sum_nil, Option.map_some, Option.getD_some]
      omega
  | cons w middles ih =>
    rw [List.map_cons, renderArgs_cons, byteLength_cons, byteLength_append, hspace,
      String.toList_ofList, ih]
    simp only [argBytes, List.map_cons, List.sum_cons]
    omega

/-- Written parameters take no more bytes than the text they were read from, but for
the space in front of the first one. -/
theorem argBytes_splitArgs_le (cs : List Char) :
    argBytes (splitArgs cs) ≤ byteLength cs + 1 ∧
      (cs = [] ∨ cs.head? = some ' ' → argBytes (splitArgs cs) ≤ byteLength cs) := by
  have hspace : (' ' : Char).utf8Size = 1 := by decide
  have hcolon : (':' : Char).utf8Size = 1 := by decide
  -- the first bound carries the induction over spaces, the second one over tokens
  induction cs using splitArgs.induct with
  | case1 =>
    rw [splitArgs]
    exact ⟨Nat.zero_le _, fun _ => Nat.zero_le _⟩
  | case2 rest ih =>
    rw [splitArgs, if_pos rfl, byteLength_cons, hspace]
    have hrest := ih.1
    exact ⟨by omega, fun _ => by omega⟩
  | case3 rest =>
    rw [splitArgs, if_neg (by decide), if_pos rfl, byteLength_cons, hcolon]
    simp only [argBytes, List.map_nil, List.sum_nil, Option.map_some, Option.getD_some]
    exact ⟨by omega, fun h => absurd h (by simp)⟩
  | case4 c rest hc hcolon' _ _ _ ih =>
    have hstop : rest.dropWhile (· ≠ ' ') = [] ∨
        (rest.dropWhile (· ≠ ' ')).head? = some ' ' := by
      cases hdrop : rest.dropWhile (· ≠ ' ') with
      | nil => exact .inl rfl
      | cons d ds =>
        have hd := Stops.dropWhile (p := fun c => decide (c ≠ ' ')) rest d (by rw [hdrop]; rfl)
        exact .inr (by simpa using hd)
    have hdrop := ih.2 hstop
    have hjoin : byteLength (rest.takeWhile (· ≠ ' ')) + byteLength (rest.dropWhile (· ≠ ' ')) =
        byteLength rest := by
      rw [← byteLength_append, List.takeWhile_append_dropWhile]
    rw [splitArgs, if_neg hc, if_neg hcolon', byteLength_cons]
    simp only [argBytes, List.map_cons, List.sum_cons, byteLength_cons] at hdrop ⊢
    exact ⟨by omega, fun h => absurd h (by simpa using hc)⟩

section OfLayout

variable {l : Layout}

theorem Layout.mem_text {c : Char} :
    c ∈ l.text ↔ c ∈ Layout.tagsText l.tags ∨ c ∈ l.gap ∨ c ∈ Layout.sourceText l.source ∨
      c ∈ l.command ∨ c ∈ l.args := by
  simp only [Layout.text, Layout.body, List.mem_append, or_assoc]

/-- Nothing in the tags of a line ends them or breaks the line. -/
theorem Layout.WellFormed.of_mem_tags (h : l.WellFormed) (hunbroken : ∀ c ∈ l.text, Unbroken c)
    {t : List Char} (ht : l.tags = some t) :
    ∀ c ∈ t, c ≠ ' ' ∧ c ≠ '\x00' ∧ c ≠ '\r' ∧ c ≠ '\n' := by
  intro c hc
  refine ⟨fun hspace => (h.tags t ht).2.1 (hspace ▸ hc), hunbroken c ?_⟩
  exact Layout.mem_text.mpr (.inl (by rw [ht]; exact List.mem_cons_of_mem _ hc))

theorem Layout.WellFormed.splitArgs_args (h : l.WellFormed) :
    splitArgs l.args = (l.middles, l.trailing) := splitArgs_eq h.args

/-- The written body takes no more bytes than the body that was read. -/
theorem Layout.WellFormed.byteLength_renderBody_le (h : l.WellFormed) :
    byteLength (renderBody l.message) ≤ byteLength l.body := by
  have hsource : byteLength (renderSource l.message.source) ≤
      byteLength (Layout.sourceText l.source) := by
    cases hs : l.source with
    | none =>
      rw [Layout.message, hs]
      exact Nat.le_refl _
    | some s =>
      obtain ⟨p, v⟩ := s
      -- one space is written for the blanks that were read
      obtain ⟨v', rfl⟩ := List.head?_eq_some_iff.mp (h.source p v hs).2.2.1
      rw [Layout.message, hs]
      show byteLength (':' :: (Source.parse (String.ofList p)).render.toList ++ [' ']) ≤
        byteLength (':' :: p ++ ' ' :: v')
      rw [Source.render_parse, String.toList_ofList, byteLength_append, byteLength_append,
        byteLength_cons ' ', byteLength_cons ' ', byteLength_nil]
      omega
  have hcommand : byteLength l.message.command.toList = byteLength l.command := by
    show byteLength (upper (String.ofList l.command)).toList = _
    rw [upper, String.toList_ofList, String.toList_ofList]
    exact byteLength_map fun c hc => (toUpper_of_isAlphanum (h.command c hc)).2.2
  have hargs : byteLength (renderArgs l.message.middles l.message.trailing) ≤
      byteLength l.args := by
    show byteLength (renderArgs (l.middles.map String.ofList) (l.trailing.map String.ofList)) ≤ _
    rw [byteLength_renderArgs (l.middles, l.trailing), ← h.splitArgs_args]
    exact (argBytes_splitArgs_le l.args).2 h.args
  rw [renderBody, Layout.body, byteLength_append, byteLength_append, byteLength_append,
    byteLength_append]
  omega

/-- **What a line stands for is printable.** -/
theorem Layout.printable_message (h : l.WellFormed) (hfits : l.Fits)
    (hunbroken : ∀ c ∈ l.text, Unbroken c) : l.message.Printable where
  tags := by
    intro tag htag
    cases ht : l.tags with
    | none =>
      rw [Layout.message, ht] at htag
      exact absurd htag List.not_mem_nil
    | some t =>
      rw [Layout.message, ht] at htag
      exact Tag.wellFormed_of_mem_parseSection (h.of_mem_tags hunbroken ht) htag
  source := by
    intro s hs
    obtain ⟨⟨p, v⟩, hpv, rfl⟩ := Option.map_eq_some_iff.mp hs
    obtain ⟨hne, hspace, -, -⟩ := h.source p v hpv
    rw [Source.render_parse, String.toList_ofList]
    refine ⟨rfl, fun hnil => hne (String.ofList_eq_empty_iff.mp hnil), fun c hc => ?_⟩
    refine ⟨fun hc' => hspace (hc' ▸ hc), hunbroken c ?_⟩
    refine Layout.mem_text.mpr (.inr (.inr (.inl ?_)))
    rw [hpv]
    exact List.mem_cons_of_mem _ (List.mem_append_left _ hc)
  command_ne := by
    intro hnil
    have hmap := String.ofList_eq_empty_iff.mp hnil
    rw [List.map_eq_nil_iff, String.toList_ofList] at hmap
    exact h.command_ne hmap
  command := by
    intro c hc
    have hmap : c ∈ l.command.map Char.toUpper := by
      simpa [Layout.message, upper] using hc
    obtain ⟨d, hd, rfl⟩ := List.mem_map.mp hmap
    exact (toUpper_of_isAlphanum (h.command d hd)).1
  upper_command := by
    show upper (upper (String.ofList l.command)) = upper (String.ofList l.command)
    rw [upper, upper, String.toList_ofList, String.toList_ofList, List.map_map]
    refine congrArg String.ofList (List.map_congr_left fun c hc => ?_)
    exact (toUpper_of_isAlphanum (h.command c hc)).2.1
  middles := by
    intro p hp
    obtain ⟨w, hw, rfl⟩ := List.mem_map.mp hp
    have hmem := (mem_splitArgs l.args).1
    rw [h.splitArgs_args] at hmem
    obtain ⟨hne, hcolon, hspace, hchars⟩ := hmem w hw
    rw [Standalone, String.toList_ofList]
    refine ⟨fun hnil => hne (String.ofList_eq_empty_iff.mp hnil), hcolon, fun c hc => ?_⟩
    refine ⟨fun hc' => hspace (hc' ▸ hc), hunbroken c ?_⟩
    exact Layout.mem_text.mpr (.inr (.inr (.inr (.inr (hchars c hc)))))
  trailing := by
    intro t ht c hc
    obtain ⟨t, ht', rfl⟩ := Option.map_eq_some_iff.mp ht
    have hmem := (mem_splitArgs l.args).2
    rw [h.splitArgs_args] at hmem
    rw [String.toList_ofList] at hc
    exact hunbroken c (Layout.mem_text.mpr (.inr (.inr (.inr (.inr (hmem t ht' c hc))))))
  byteLength_tags := by
    cases ht : l.tags with
    | none =>
      rw [Layout.message, ht]
      exact Nat.zero_le _
    | some t =>
      rw [Layout.message, ht]
      have hbytes := Tag.byteLength_renderSection_le (h.of_mem_tags hunbroken ht)
      exact hbytes.trans (hfits.tags t ht)
  byteLength_body := h.byteLength_renderBody_le.trans hfits.body
  length_middles := by
    show (l.middles.map String.ofList).length ≤ _
    rw [List.length_map]
    exact hfits.middles

end OfLayout

/-- **Every message that was read is printable.** -/
theorem printable_of_parse {line : String} {m : Message} (h : parse line = .ok m) :
    m.Printable := by
  obtain ⟨hunbroken, l, hl, htext, hfits, rfl⟩ := parseChars_eq_ok_iff.mp h
  exact Layout.printable_message hl hfits (htext ▸ hunbroken)

/-- **Reading what was read and written.**  The written form of a message that was
read stands for that message without its empty tags; if its only tag is an empty
one, the written form is not read at all.  So the message comes back just when it
has no empty tag.  The limit on the length of a line is kept in any case. -/
theorem parse_render_of_parse {line : String} {m : Message} (h : parse line = .ok m) :
    (parse m.render = if m.tags = [Tag.empty] then .error (.malformed 0)
      else .ok { m with tags := m.tags.filter (· ≠ Tag.empty) }) ∧
    (parse m.render = .ok m ↔ Tag.empty ∉ m.tags) ∧
    byteLength (renderBody m) ≤ Limits.body := by
  have hm := printable_of_parse h
  have hread : parse m.render = if m.tags = [Tag.empty] then .error (.malformed 0)
      else .ok { m with tags := m.tags.filter (· ≠ Tag.empty) } := by
    split_ifs with hempty
    · exact parse_render_of_empty hm hempty
    · exact parse_render_of_printable hm hempty
  refine ⟨hread, ?_, hm.byteLength_body⟩
  rw [hread]
  split_ifs with hempty
  · rw [hempty]
    simp
  · rw [Except.ok.injEq, Message.mk.injEq]
    simp only [and_true, List.filter_eq_self, decide_eq_true_eq]
    exact ⟨fun hne hmem => hne _ hmem rfl, fun hnot tag htag heq => hnot (heq ▸ htag)⟩

theorem parse_render_of_parse_privmsg :
    ∃ m, parse "@a=\\s;b= :n!u@h privmsg  #c :x y\r\n" = .ok m ∧ parse m.render = .ok m ∧
      byteLength (renderBody m) ≤ Limits.body := by
  have h : parse "@a=\\s;b= :n!u@h privmsg  #c :x y\r\n" =
      .ok ⟨[⟨"a", some " "⟩, ⟨"b", none⟩], some (.user "n" "u" "h"), "PRIVMSG", ["#c"],
        some "x y"⟩ := by
    decide +kernel
  obtain ⟨-, hsame, hbytes⟩ := parse_render_of_parse h
  exact ⟨_, h, hsame.mpr (by decide), hbytes⟩

/-- A tag that is only an equals sign is read and written with nothing. -/
theorem parse_render_of_lone_equals_ne :
    ∃ m, parse "@= PING" = .ok m ∧ parse m.render ≠ .ok m := by
  refine ⟨⟨[Tag.empty], none, "PING", [], none⟩, ?_, ?_⟩
  · decide +kernel
  · decide +kernel

end Irc.Message
