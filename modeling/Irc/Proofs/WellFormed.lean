/-
Messages that keep their meaning when they are written.

Which messages come back from their written form is settled part by part: what a
key, a value, a source, a command word and a parameter may hold, and how long the
whole may be.

* **`Source.WellFormed.parse_render`** — a source whose parts hold none of the
  marks between them is read back;
* **`parse_render_eq_ok_iff`** — a message comes back just when it is printable and
  has no empty tag;
* **`parse_render_of_wellFormed`** — reading undoes writing.
-/
import Irc.Proofs.RoundTrip

namespace Irc

open Text

namespace Source

/-- A character that ends neither the source nor the line. -/
def Inner (c : Char) : Prop := c ≠ ' ' ∧ Message.Unbroken c

instance (c : Char) : Decidable (Inner c) := inferInstanceAs (Decidable (_ ∧ _))

/-- A source whose parts can be told apart again. -/
def WellFormed : Source → Prop
  | .server name => name ≠ "" ∧ (∀ c ∈ name.toList, Inner c) ∧ parse name = .server name
  | .user nick username host =>
    (nick ≠ "" ∧ ∀ c ∈ nick.toList, Inner c ∧ c ≠ '!') ∧
      (username ≠ "" ∧ ∀ c ∈ username.toList, Inner c ∧ c ≠ '@') ∧
        (host ≠ "" ∧ ∀ c ∈ host.toList, Inner c)

theorem toList_render_user (nick username host : String) :
    (render (.user nick username host)).toList =
      nick.toList ++ '!' :: (username.toList ++ '@' :: host.toList) := by
  simp [render]

/-- **A well-formed source is read back.** -/
theorem WellFormed.parse_render {s : Source} (h : s.WellFormed) : parse s.render = s := by
  cases s with
  | server name => exact h.2.2
  | user nick username host =>
    obtain ⟨⟨hnick, hn⟩, ⟨husername, hu⟩, hhost, -⟩ := h
    have hmask : splitMask (render (.user nick username host)).toList =
        some (nick.toList, username.toList, host.toList) := by
      rw [splitMask_eq_some_iff, toList_render_user]
      exact ⟨rfl, fun hmem => (hn '!' hmem).2 rfl, fun hmem => (hu '@' hmem).2 rfl,
        fun hnil => hnick (String.toList_eq_nil_iff.mp hnil),
        fun hnil => husername (String.toList_eq_nil_iff.mp hnil),
        fun hnil => hhost (String.toList_eq_nil_iff.mp hnil)⟩
    rw [parse, hmask]
    simp only [String.ofList_toList]

theorem WellFormed.render_ne {s : Source} (h : s.WellFormed) : s.render ≠ "" := by
  cases s with
  | server name => exact h.1
  | user nick username host =>
    intro hnil
    rw [← String.toList_eq_nil_iff, toList_render_user] at hnil
    exact absurd hnil (by simp)

theorem WellFormed.inner_of_mem_render {s : Source} (h : s.WellFormed) {c : Char}
    (hc : c ∈ s.render.toList) : Inner c := by
  cases s with
  | server name => exact h.2.1 c hc
  | user nick username host =>
    obtain ⟨⟨-, hn⟩, ⟨-, hu⟩, -, hh⟩ := h
    rw [toList_render_user, List.mem_append, List.mem_cons, List.mem_append, List.mem_cons] at hc
    rcases hc with hc | rfl | hc | rfl | hc
    · exact (hn c hc).1
    · decide
    · exact (hu c hc).1
    · decide
    · exact hh c hc

end Source

namespace Message

variable {m : Message}

/-- A message all of whose parts can be told apart again in its written form. -/
structure WellFormed (m : Message) : Prop where
  tags : ∀ tag ∈ m.tags, tag.key ≠ "" ∧ tag.WellFormed
  byteLength_tags : byteLength (Tag.renderSection m.tags) ≤ Limits.tags
  source : ∀ s, m.source = some s → s.WellFormed
  command_ne : m.command ≠ ""
  command : ∀ c ∈ m.command.toList, c.isAlphanum = true ∧ c.isLower = false
  middles : ∀ p ∈ m.middles, Standalone p
  length_middles : m.middles.length ≤ Limits.middles
  trailing : ∀ t, m.trailing = some t → ∀ c ∈ t.toList, Unbroken c
  byteLength_body : byteLength (renderBody m) ≤ Limits.body

/-- **A message comes back from its written form** just when it is printable and has
no empty tag. -/
theorem parse_render_eq_ok_iff : parse m.render = .ok m ↔ m.Printable ∧ Tag.empty ∉ m.tags := by
  constructor
  · intro h
    have hm := printable_of_parse h
    refine ⟨hm, fun hmem => ?_⟩
    by_cases hempty : m.tags = [Tag.empty]
    · rw [parse_render_of_empty hm hempty] at h
      exact absurd h (by simp)
    · rw [parse_render_of_printable hm hempty, Except.ok.injEq] at h
      have hfilter := congrArg Message.tags h
      simp only [List.filter_eq_self, decide_eq_true_eq] at hfilter
      exact hfilter _ hmem rfl
  · rintro ⟨hm, hno⟩
    have hempty : m.tags ≠ [Tag.empty] := by
      intro htags
      rw [htags] at hno
      exact hno List.mem_cons_self
    have hfilter : m.tags.filter (· ≠ Tag.empty) = m.tags := by
      rw [List.filter_eq_self]
      exact fun tag htag => decide_eq_true fun heq => hno (heq ▸ htag)
    rw [parse_render_of_printable hm hempty, hfilter]

theorem toUpper_of_not_isLower {c : Char} (h : c.isLower = false) : c.toUpper = c := by
  rw [Char.toUpper, dif_neg]
  rintro ⟨hlo, hhi⟩
  rw [Char.isLower, Bool.and_eq_false_iff, decide_eq_false_iff_not, decide_eq_false_iff_not] at h
  exact h.elim (fun h => h hlo) fun h => h hhi

theorem WellFormed.printable (h : m.WellFormed) : m.Printable where
  tags := fun tag htag => (h.tags tag htag).2
  source := fun s hs => ⟨(h.source s hs).parse_render, (h.source s hs).render_ne,
    fun c hc => (h.source s hs).inner_of_mem_render hc⟩
  command_ne := h.command_ne
  command := fun c hc => (h.command c hc).1
  upper_command := by
    have hmap : m.command.toList.map Char.toUpper = m.command.toList := by
      refine (List.map_congr_left fun c hc => ?_).trans (List.map_id _)
      exact toUpper_of_not_isLower (h.command c hc).2
    rw [upper, hmap, String.ofList_toList]
  middles := h.middles
  trailing := h.trailing
  byteLength_tags := h.byteLength_tags
  byteLength_body := h.byteLength_body
  length_middles := h.length_middles

/-- **Reading undoes writing** on every well-formed message. -/
theorem parse_render_of_wellFormed (h : m.WellFormed) : parse m.render = .ok m := by
  refine parse_render_eq_ok_iff.mpr ⟨h.printable, fun hmem => ?_⟩
  exact (h.tags Tag.empty hmem).1 rfl

theorem parse_render_of_wellFormed_reply :
    ∃ m : Message, m.WellFormed ∧ m.render =
      "@+reply=a\\:b\\s\\\\\\r\\n;flag :n!u!x@h@y 433 a:b ü :: x  " ∧ parse m.render = .ok m := by
  have hreply : (⟨"+reply", some "a;b \\\r\n"⟩ : Tag).WellFormed :=
    ⟨by simp [Tag.Plain], fun v hv => by simp [← Option.some_inj.mp hv]⟩
  have hflag : (⟨"flag", none⟩ : Tag).WellFormed :=
    ⟨by simp [Tag.Plain], fun v hv => absurd hv (by simp)⟩
  have hsource : (Source.user "n" "u!x" "h@y").WellFormed := by
    simp [Source.WellFormed, Source.Inner, Unbroken]
  have hwf : WellFormed ⟨[⟨"+reply", some "a;b \\\r\n"⟩, ⟨"flag", none⟩],
      some (.user "n" "u!x" "h@y"), "433", ["a:b", "ü"], some ": x  "⟩ :=
    { tags := List.forall_mem_cons.mpr
        ⟨⟨by decide, hreply⟩, List.forall_mem_singleton.mpr ⟨by decide, hflag⟩⟩
      byteLength_tags := by decide +kernel
      source := fun s hs => Option.some_inj.mp hs ▸ hsource
      command_ne := by decide
      command := by simp
      middles := by simp [Standalone, Unbroken]
      length_middles := by decide
      trailing := fun t ht => by simp [← Option.some_inj.mp ht, Unbroken]
      byteLength_body := by decide +kernel }
  exact ⟨_, hwf, by decide +kernel, parse_render_of_wellFormed hwf⟩

/-! ### Messages of any size -/

/-- A message with a tag and a trailing parameter of the given numbers of bytes. -/
def filled (key text : Nat) : Message where
  tags := [⟨String.ofList (List.replicate key 'a'), none⟩]
  command := "PING"
  trailing := some (String.ofList (List.replicate text 'x'))

theorem byteLength_renderSection_filled (key text : Nat) :
    byteLength (Tag.renderSection (filled key text).tags) = key := by
  rw [filled, Tag.renderSection, List.map_singleton, List.intercalate_singleton, Tag.render_none,
    String.toList_ofList, byteLength_replicate]
  exact Nat.mul_one key

theorem byteLength_renderBody_filled (key text : Nat) :
    byteLength (renderBody (filled key text)) = text + 6 := by
  have hsize : byteLength (List.replicate text 'x') = text := by
    rw [byteLength_replicate]
    exact Nat.mul_one text
  have hword : byteLength (renderSource none ++ "PING".toList ++ [' ', ':']) = 6 := by decide
  rw [byteLength_append] at hword
  have hargs : renderArgs (filled key text).middles (filled key text).trailing =
      [' ', ':'] ++ (String.ofList (List.replicate text 'x')).toList := rfl
  rw [renderBody, hargs, byteLength_append, byteLength_append [' ', ':'], String.toList_ofList,
    hsize]
  simp only [filled]
  omega

theorem utf8ByteSize_lastArg_filled (key text : Nat) :
    (filled key text).lastArg.utf8ByteSize = text := by
  show (String.ofList (List.replicate text 'x')).utf8ByteSize = text
  rw [utf8ByteSize_ofList, byteLength_replicate]
  exact Nat.mul_one text

theorem wellFormed_filled {key text : Nat} (hkey : 1 ≤ key) (hlong : key ≤ Limits.tags)
    (htext : text + 6 ≤ Limits.body) : (filled key text).WellFormed where
  tags := by
    refine List.forall_mem_singleton.mpr ⟨fun hnil => ?_, fun c hc => ?_, fun v hv => ?_⟩
    · rw [String.ofList_eq_empty_iff, List.replicate_eq_nil_iff] at hnil
      omega
    · rw [String.toList_ofList] at hc
      rw [List.eq_of_mem_replicate hc]
      decide
    · exact absurd hv (by simp)
  byteLength_tags := (byteLength_renderSection_filled key text).trans_le hlong
  source := fun s hs => absurd hs (by simp [filled])
  command_ne := by simp [filled]
  command := by simp [filled]
  middles := fun p hp => absurd hp List.not_mem_nil
  length_middles := Nat.zero_le _
  trailing := by
    intro t ht c hc
    rw [← Option.some_inj.mp ht, String.toList_ofList] at hc
    rw [List.eq_of_mem_replicate hc]
    decide
  byteLength_body := (byteLength_renderBody_filled key text).trans_le htext

theorem parse_render_filled {key text : Nat} (hkey : 1 ≤ key) (hlong : key ≤ Limits.tags)
    (htext : text + 6 ≤ Limits.body) :
    parse (filled key text).render = .ok (filled key text) := by
  have hm := wellFormed_filled hkey hlong htext
  exact parse_render_eq_ok_iff.mpr ⟨hm.printable, fun hmem => (hm.tags Tag.empty hmem).1 rfl⟩

end Message

end Irc
