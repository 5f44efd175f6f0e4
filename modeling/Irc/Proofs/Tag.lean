/-
Tags read back as they were written.

Escaping is undone by unescaping and leaves nothing in a value that could end it;
what has been read takes no more bytes when it is written again.  A tag that is
written with nothing at all, an empty key without a value, is the one that does
not come back:

* **`unescape_escape`** — escaping is undone;
* **`byteLength_escape_unescape_le`** — writing what was read takes no more bytes;
* **`lossless`** — both for a value as a whole;
* **`parseSection_renderSection`** — a section gives its tags back, but for the
  empty ones;
* **`byteLength_renderSection_le`** — a section that was read does not grow.
-/
import Irc.Message.Tag
import Irc.Proofs.Text

namespace Irc.Tag

open Text

/-! ### Values -/

/-- A character that may stand in a written value. -/
def Plain (c : Char) : Prop := c ≠ ';' ∧ c ≠ ' ' ∧ c ≠ '\r' ∧ c ≠ '\n'

instance (c : Char) : Decidable (Plain c) := inferInstanceAs (Decidable (_ ∧ _ ∧ _ ∧ _))

theorem escapeChar_of_plain {c : Char} (h : Plain c) (hc : c ≠ '\\') : escapeChar c = [c] := by
  obtain ⟨h1, h2, h3, h4⟩ := h
  rw [escapeChar, if_neg h1, if_neg h2, if_neg hc, if_neg h3, if_neg h4]

/-- A character is written as itself, or as an escape that stands for it. -/
theorem escapeChar_cases (c : Char) :
    (Plain c ∧ c ≠ '\\' ∧ escapeChar c = [c]) ∨
      ∃ d, Plain d ∧ d ≠ '\x00' ∧ d.utf8Size = 1 ∧ unescapeChar d = c ∧
        escapeChar c = ['\\', d] := by
  by_cases hplain : Plain c ∧ c ≠ '\\'
  · exact .inl ⟨hplain.1, hplain.2, escapeChar_of_plain hplain.1 hplain.2⟩
  · right
    -- what is left are the five characters that have an escape
    have hc : c = ';' ∨ c = ' ' ∨ c = '\\' ∨ c = '\r' ∨ c = '\n' := by
      simp only [Plain] at hplain
      tauto
    rcases hc with rfl | rfl | rfl | rfl | rfl
    · exact ⟨':', by decide⟩
    · exact ⟨'s', by decide⟩
    · exact ⟨'\\', by decide⟩
    · exact ⟨'r', by decide⟩
    · exact ⟨'n', by decide⟩

theorem unescape_cons {c : Char} (h : c ≠ '\\') (cs : List Char) :
    unescape (c :: cs) = c :: unescape cs := by
  rw [unescape]
  · intro hc
    exact absurd hc h
  · intro d ds hc
    exact absurd hc h

theorem unescape_backslash (c : Char) (cs : List Char) :
    unescape ('\\' :: c :: cs) = unescapeChar c :: unescape cs := by
  rw [unescape]

/-- The written form of one character stands for it. -/
theorem unescape_escapeChar (c : Char) (cs : List Char) :
    unescape (escapeChar c ++ cs) = c :: unescape cs := by
  rcases escapeChar_cases c with ⟨-, hc, hwritten⟩ | ⟨d, -, -, -, hd, hwritten⟩
  · rw [hwritten, List.singleton_append, unescape_cons hc]
  · rw [hwritten, List.cons_append, List.singleton_append, unescape_backslash, hd]

/-- **Escaping is undone.** -/
theorem unescape_escape (value : List Char) : unescape (escape value) = value := by
  induction value with
  | nil => rfl
  | cons c cs ih =>
    rw [escape, List.flatMap_cons, unescape_escapeChar]
    exact congrArg (c :: ·) ih

/-- A written value holds plain characters only, and a NUL only where the value
has one. -/
theorem plain_of_mem_escape {value : List Char} {d : Char} (h : d ∈ escape value) :
    Plain d ∧ (d = '\x00' → '\x00' ∈ value) := by
  obtain ⟨c, hc, hd⟩ := List.mem_flatMap.mp h
  rcases escapeChar_cases c with ⟨hplain, -, hwritten⟩ | ⟨e, hplain, hnul, -, -, hwritten⟩
  · rw [hwritten, List.mem_singleton] at hd
    subst hd
    exact ⟨hplain, fun hnul => hnul ▸ hc⟩
  · rw [hwritten, List.mem_cons, List.mem_singleton] at hd
    rcases hd with rfl | rfl
    · exact ⟨by decide, fun h => absurd h (by decide)⟩
    · exact ⟨hplain, fun h => absurd h hnul⟩

/-- Induction over the escapes of a written value. -/
theorem written_induction {P : List Char → Prop} (nil : P []) (lone : P ['\\'])
    (backslash : ∀ c cs, P cs → P ('\\' :: c :: cs))
    (cons : ∀ c cs, c ≠ '\\' → P cs → P (c :: cs)) (written : List Char) : P written := by
  induction written using unescape.induct with
  | case1 => exact nil
  | case2 => exact lone
  | case3 c cs ih => exact backslash c cs ih
  | case4 c cs hlone hbackslash ih =>
    refine cons c cs (fun hc => ?_) ih
    cases cs with
    | nil => exact hlone hc rfl
    | cons d ds => exact hbackslash d ds hc rfl

theorem unescapeChar_eq_nul {c : Char} (h : unescapeChar c = '\x00') : c = '\x00' := by
  by_contra hc
  rw [unescapeChar] at h
  split_ifs at h <;> contradiction

theorem utf8Size_unescapeChar_le (c : Char) : (unescapeChar c).utf8Size ≤ c.utf8Size := by
  have hpos : 1 ≤ c.utf8Size := c.utf8Size_pos
  rw [unescapeChar]
  split_ifs
  · exact hpos
  · exact hpos
  · exact hpos
  · exact hpos
  · exact Nat.le_refl _

/-- Unescaping makes no NUL. -/
theorem nul_mem_of_mem_unescape {written : List Char} (h : '\x00' ∈ unescape written) :
    '\x00' ∈ written := by
  induction written using written_induction with
  | nil => exact h
  | lone => exact absurd h List.not_mem_nil
  | backslash c cs ih =>
    rw [unescape_backslash] at h
    rcases List.mem_cons.mp h with hc | hcs
    · rw [unescapeChar_eq_nul hc.symm]
      simp
    · exact List.mem_cons_of_mem _ (List.mem_cons_of_mem _ (ih hcs))
  | cons c cs hc ih =>
    rw [unescape_cons hc] at h
    rcases List.mem_cons.mp h with hc | hcs
    · rw [hc]
      exact List.mem_cons_self
    · exact List.mem_cons_of_mem _ (ih hcs)

theorem byteLength_escapeChar_le (c : Char) : byteLength (escapeChar c) ≤ c.utf8Size + 1 := by
  have hpos : 1 ≤ c.utf8Size := c.utf8Size_pos
  rcases escapeChar_cases c with ⟨-, -, hwritten⟩ | ⟨d, -, -, hsize, -, hwritten⟩
  · rw [hwritten, byteLength_cons, byteLength_nil]
    omega
  · have hbackslash : ('\\' : Char).utf8Size = 1 := by decide
    rw [hwritten, byteLength_cons, byteLength_cons, byteLength_nil, hsize, hbackslash]
    omega

/-- **Writing what was read** takes no more bytes. -/
theorem byteLength_escape_unescape_le {written : List Char} (h : ∀ c ∈ written, Plain c) :
    byteLength (escape (unescape written)) ≤ byteLength written := by
  induction written using written_induction with
  | nil => exact Nat.le_refl _
  | lone => exact Nat.zero_le _
  | backslash c cs ih =>
    -- the backslash pays for the one that writing may put in front of the character
    have hrest := ih fun d hd => h d (List.mem_cons_of_mem _ (List.mem_cons_of_mem _ hd))
    have hchar := byteLength_escapeChar_le (unescapeChar c)
    have hsize := utf8Size_unescapeChar_le c
    have hbackslash : ('\\' : Char).utf8Size = 1 := by decide
    rw [unescape_backslash, escape, List.flatMap_cons, ← escape, byteLength_append,
      byteLength_cons, byteLength_cons, hbackslash]
    omega
  | cons c cs hc ih =>
    have hrest := ih fun d hd => h d (List.mem_cons_of_mem _ hd)
    have hchar := escapeChar_of_plain (h c List.mem_cons_self) hc
    rw [unescape_cons hc, escape, List.flatMap_cons, ← escape, hchar, byteLength_append,
      byteLength_cons, byteLength_nil, byteLength_cons]
    omega

/-- **A value is written without loss, and what was read does not grow.**  The written form of a
value stands for it and holds nothing that ends the value, the section or the line.  Writing again
what was read takes no more bytes, whatever escapes it was read from, and stands for the same. -/
theorem lossless (value written : List Char) :
    unescape (escape value) = value ∧
      (∀ c ∈ escape value, c ≠ ';' ∧ c ≠ ' ' ∧ c ≠ '\r' ∧ c ≠ '\n') ∧
      ((∀ c ∈ written, c ≠ ';' ∧ c ≠ ' ' ∧ c ≠ '\r' ∧ c ≠ '\n') →
        byteLength (escape (unescape written)) ≤ byteLength written ∧
          unescape (escape (unescape written)) = unescape written) := by
  refine ⟨unescape_escape value, fun c hc => (plain_of_mem_escape hc).1, fun hplain => ?_⟩
  exact ⟨byteLength_escape_unescape_le hplain, unescape_escape (unescape written)⟩

/-- An unknown escape, a doubled backslash, and a backslash with nothing behind it. -/
theorem lossless_of_backslashes :
    unescape ['\\', 'x', '\\', '\\', '\\'] = ['x', '\\'] ∧
      byteLength (escape ['x', '\\']) ≤ 5 ∧ unescape (escape ['x', '\\']) = ['x', '\\'] := by
  have hread : unescape ['\\', 'x', '\\', '\\', '\\'] = ['x', '\\'] := by decide
  have hsize : byteLength ['\\', 'x', '\\', '\\', '\\'] = 5 := by decide
  obtain ⟨-, -, hagain⟩ := lossless [] ['\\', 'x', '\\', '\\', '\\']
  rw [hread, hsize] at hagain
  exact ⟨hread, hagain (by simp)⟩

/-! ### Tags -/

/-- The tag that is written with nothing. -/
def empty : Tag := ⟨"", none⟩

/-- A tag whose written form ends neither itself nor its section nor the line. -/
structure WellFormed (tag : Tag) : Prop where
  key : ∀ c ∈ tag.key.toList, c ≠ '=' ∧ Plain c ∧ c ≠ '\x00'
  value : ∀ v, tag.value = some v → v ≠ "" ∧ '\x00' ∉ v.toList

theorem render_none (key : String) : render ⟨key, none⟩ = key.toList := rfl

theorem render_some (key value : String) :
    render ⟨key, some value⟩ = key.toList ++ '=' :: escape value.toList := rfl

theorem render_eq_nil_iff {tag : Tag} : render tag = [] ↔ tag = empty := by
  obtain ⟨key, _ | value⟩ := tag
  · rw [render_none, empty, Tag.mk.injEq, String.toList_eq_nil_iff]
    simp
  · rw [render_some]
    simp [empty]

/-- A written tag holds plain characters only. -/
theorem plain_of_mem_render {tag : Tag} (h : tag.WellFormed) {c : Char} (hc : c ∈ render tag) :
    Plain c ∧ c ≠ '\x00' := by
  obtain ⟨key, _ | value⟩ := tag
  · exact (h.key c hc).2
  · rw [render_some, List.mem_append, List.mem_cons] at hc
    rcases hc with hc | rfl | hc
    · exact (h.key c hc).2
    · decide
    · obtain ⟨hplain, hnul⟩ := plain_of_mem_escape hc
      exact ⟨hplain, fun h0 => (h.value value rfl).2 (hnul h0)⟩

/-- A well-formed tag is read back. -/
theorem parse_render {tag : Tag} (h : tag.WellFormed) : parse (render tag) = tag := by
  have hkey : '=' ∉ tag.key.toList := fun hm => (h.key '=' hm).1 rfl
  obtain ⟨key, _ | value⟩ := tag
  · rw [parse, render_none, splitOnce_eq_none_iff.mpr hkey]
    simp only [String.ofList_toList]
  · have hvalue : value.toList ≠ [] :=
      fun hnil => (h.value value rfl).1 (String.toList_eq_nil_iff.mp hnil)
    rw [parse, render_some, splitOnce_append hkey]
    simp only [unescape_escape, if_neg hvalue, String.ofList_toList]

/-- An entry of plain characters makes a well-formed tag. -/
theorem wellFormed_parse {entry : List Char} (h : ∀ c ∈ entry, Plain c ∧ c ≠ '\x00') :
    (parse entry).WellFormed := by
  rw [parse]
  cases hsplit : splitOnce '=' entry with
  | none =>
    have hno := splitOnce_eq_none_iff.mp hsplit
    refine ⟨fun c hc => ?_, fun v hv => absurd hv (by simp)⟩
    rw [String.toList_ofList] at hc
    exact ⟨fun heq => hno (heq ▸ hc), h c hc⟩
  | some parts =>
    obtain ⟨key, written⟩ := parts
    obtain ⟨rfl, hno⟩ := splitOnce_eq_some_iff.mp hsplit
    refine ⟨fun c hc => ?_, fun v hv => ?_⟩
    · rw [String.toList_ofList] at hc
      exact ⟨fun heq => hno (heq ▸ hc), h c (List.mem_append_left _ hc)⟩
    · simp only at hv
      split_ifs at hv with hnil
      rw [Option.some_inj] at hv
      subst hv
      refine ⟨fun hempty => hnil (String.ofList_eq_empty_iff.mp hempty), fun hnul => ?_⟩
      rw [String.toList_ofList] at hnul
      have hwritten := nul_mem_of_mem_unescape hnul
      exact (h '\x00' (by simp [hwritten])).2 rfl

/-- A tag that was read takes no more bytes than its entry. -/
theorem byteLength_render_parse_le {entry : List Char} (h : ∀ c ∈ entry, Plain c) :
    byteLength (render (parse entry)) ≤ byteLength entry := by
  rw [parse]
  cases hsplit : splitOnce '=' entry with
  | none => rw [render_none, String.toList_ofList]
  | some parts =>
    obtain ⟨key, written⟩ := parts
    obtain ⟨rfl, -⟩ := splitOnce_eq_some_iff.mp hsplit
    rw [byteLength_append, byteLength_cons]
    simp only
    split
    · rw [render_none, String.toList_ofList]
      omega
    · have hplain : ∀ c ∈ written, Plain c := fun c hc => h c (by simp [hc])
      have hvalue := byteLength_escape_unescape_le hplain
      rw [render_some, String.toList_ofList, String.toList_ofList, byteLength_append,
        byteLength_cons]
      omega

/-! ### Sections -/

/-- **A section gives its tags back**, but for the empty ones. -/
theorem parseSection_renderSection {tags : List Tag} (h : ∀ tag ∈ tags, tag.WellFormed) :
    parseSection (renderSection tags) = tags.filter (· ≠ empty) := by
  have hruns : ∀ run ∈ tags.map render, ∀ c ∈ run, decide (c = ';') = false := by
    intro run hrun c hc
    obtain ⟨tag, htag, rfl⟩ := List.mem_map.mp hrun
    exact decide_eq_false (plain_of_mem_render (h tag htag) hc).1.1
  rw [parseSection, renderSection, words_intercalate (decide_eq_true rfl) hruns,
    List.filter_map, List.map_map]
  -- the runs that splitting skips are the written forms of the empty tags
  have hfilter : tags.filter ((fun run => decide (run ≠ [])) ∘ render) =
      tags.filter (· ≠ empty) := by
    refine List.filter_congr fun tag _ => ?_
    simp only [Function.comp, Ne, render_eq_nil_iff]
  rw [hfilter]
  refine (List.map_congr_left fun tag htag => ?_).trans (List.map_id _)
  exact parse_render (h tag (List.mem_of_mem_filter htag))

/-- Nothing in a written section ends the section or the line. -/
theorem of_mem_renderSection {tags : List Tag} (h : ∀ tag ∈ tags, tag.WellFormed) {c : Char}
    (hc : c ∈ renderSection tags) : c ≠ ' ' ∧ c ≠ '\x00' ∧ c ≠ '\r' ∧ c ≠ '\n' := by
  rcases mem_intercalate hc with rfl | ⟨run, hrun, hc⟩
  · decide
  · obtain ⟨tag, htag, rfl⟩ := List.mem_map.mp hrun
    obtain ⟨⟨-, hspace, hcr, hlf⟩, hnul⟩ := plain_of_mem_render (h tag htag) hc
    exact ⟨hspace, hnul, hcr, hlf⟩

/-- A section is written with nothing when it has no tags or a single empty one. -/
theorem renderSection_eq_nil_iff {tags : List Tag} :
    renderSection tags = [] ↔ tags = [] ∨ tags = [empty] := by
  match tags with
  | [] => simp [renderSection]
  | [tag] => simp [renderSection, render_eq_nil_iff]
  | tag :: next :: rest => simp [renderSection]

/-- The tags of a section are well-formed when nothing in it ends the section or the
line. -/
theorem wellFormed_of_mem_parseSection {cs : List Char}
    (h : ∀ c ∈ cs, c ≠ ' ' ∧ c ≠ '\x00' ∧ c ≠ '\r' ∧ c ≠ '\n') {tag : Tag}
    (htag : tag ∈ parseSection cs) : tag.WellFormed := by
  obtain ⟨entry, hentry, rfl⟩ := List.mem_map.mp htag
  obtain ⟨-, hsep, hmem⟩ := mem_words hentry
  refine wellFormed_parse fun c hc => ?_
  obtain ⟨hspace, hnul, hcr, hlf⟩ := h c (hmem c hc)
  exact ⟨⟨of_decide_eq_false (hsep c hc), hspace, hcr, hlf⟩, hnul⟩

/-- A section that was read does not grow when it is written again. -/
theorem byteLength_renderSection_le {cs : List Char}
    (h : ∀ c ∈ cs, c ≠ ' ' ∧ c ≠ '\x00' ∧ c ≠ '\r' ∧ c ≠ '\n') :
    byteLength (renderSection (parseSection cs)) ≤ byteLength cs := by
  have hsize : (';' : Char).utf8Size = 1 := by decide
  have hjoin := byteLength_intercalate_le hsize ((parseSection cs).map render)
  have hwords := byteLength_words_le (· = ';') cs
  -- entry by entry, with the separator that follows it counted along
  have hentries : (((parseSection cs).map render).map (byteLength · + 1)).sum ≤
      ((words (· = ';') cs).map (byteLength · + 1)).sum := by
    rw [parseSection, List.map_map, List.map_map]
    refine List.sum_le_sum fun entry hentry => ?_
    obtain ⟨-, hsep, hmem⟩ := mem_words hentry
    refine Nat.succ_le_succ (byteLength_render_parse_le fun c hc => ?_)
    obtain ⟨hspace, -, hcr, hlf⟩ := h c (hmem c hc)
    exact ⟨of_decide_eq_false (hsep c hc), hspace, hcr, hlf⟩
  rw [renderSection]
  omega

end Irc.Tag
