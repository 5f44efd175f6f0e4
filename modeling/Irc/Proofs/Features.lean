/-
The announced features of a server.

A token announces a feature or, with a `-` in front, takes it back.  A search from the end of the
tokens passes by those that take a feature back.  So a feature that is taken back is not absent when
it was announced before: the announcement counts again.

* **`Isupport.announces_iff`** — what a token says, by its written form;
* **`Isupport.get?_append`** — a later announcement counts, else an earlier one;
* **`Isupport.get?_eq_none_iff`** — a feature is absent when it is never announced;
* **`Isupport.last_mention`** — what the last mention of a feature decides.
-/
import Irc.Isupport
import Irc.Proofs.Text

namespace Irc

open Text

/-- The token that announces a feature, or takes it back. -/
def Feature.token (f : Feature) : String :=
  (if f.negated then "-" else "") ++ f.key ++ f.value.elim "" ("=" ++ ·)

namespace Isupport

variable {token key : String} {tokens before after : List String} {f : Feature}

/-! ### What a token says -/

/-- A token says what it is the written form of.  Tokens with a space in them say nothing. -/
structure Announces (token : String) (f : Feature) : Prop where
  written : token = f.token
  ne_empty : token ≠ ""
  no_space : ' ' ∉ token.toList
  key : '=' ∉ f.key.toList
  front : f.negated = false → token.toList.head? ≠ some '-'

theorem isToken_iff : isToken token = true ↔ token ≠ "" ∧ ' ' ∉ token.toList := by
  simp [isToken]

/-- Key and value of a body. -/
def ofBody (negated : Bool) (body : List Char) : Feature :=
  match splitOnce '=' body with
  | some (key, value) => ⟨String.ofList key, some (String.ofList value), negated⟩
  | none => ⟨String.ofList body, none, negated⟩

theorem ofBody_eq_iff {negated : Bool} {body : List Char} :
    ofBody negated body = f ↔ f.negated = negated ∧ '=' ∉ f.key.toList ∧
      body = f.key.toList ++ f.value.elim [] ('=' :: ·.toList) := by
  obtain ⟨key, value, negated'⟩ := f
  constructor
  · intro h
    rw [ofBody] at h
    split at h
    · rename_i front back hsplit
      obtain ⟨rfl, hfront⟩ := splitOnce_eq_some_iff.mp hsplit
      simp only [Feature.mk.injEq] at h
      obtain ⟨rfl, rfl, rfl⟩ := h
      simp [hfront]
    · rename_i hsplit
      have hbody := splitOnce_eq_none_iff.mp hsplit
      simp only [Feature.mk.injEq] at h
      obtain ⟨rfl, rfl, rfl⟩ := h
      simp [hbody]
  · rintro ⟨rfl, hkey, rfl⟩
    cases value with
    | none =>
      have hnone := splitOnce_eq_none_iff.mpr hkey
      simp [ofBody, hnone]
    | some value =>
      have hsome := splitOnce_append hkey value.toList
      simp [ofBody, hsome]

theorem parseToken_of_mark {body : List Char} (h : token.toList = '-' :: body) :
    parseToken token = ofBody true body := by
  rw [parseToken, h]
  rfl

theorem parseToken_of_no_mark (h : token.toList.head? ≠ some '-') :
    parseToken token = ofBody false token.toList := by
  rw [parseToken]
  split
  rename_i negated body hsplit
  split at hsplit
  · rename_i rest hmark
    rw [hmark] at h
    exact absurd rfl h
  · obtain ⟨rfl, rfl⟩ := Prod.mk.inj hsplit
    rfl

theorem toList_token (f : Feature) : f.token.toList =
    (if f.negated then ['-'] else []) ++ (f.key.toList ++ f.value.elim [] ('=' :: ·.toList)) := by
  obtain ⟨key, value, negated⟩ := f
  cases negated <;> cases value <;> simp [Feature.token]

theorem parseToken_eq_iff : parseToken token = f ↔
    token = f.token ∧ '=' ∉ f.key.toList ∧ (f.negated = false → token.toList.head? ≠ some '-') := by
  rw [← String.toList_inj, toList_token]
  by_cases hmark : token.toList.head? = some '-'
  · obtain ⟨body, hbody⟩ := List.head?_eq_some_iff.mp hmark
    rw [parseToken_of_mark hbody, ofBody_eq_iff, hbody]
    cases hnegated : f.negated with
    | false => simp
    | true => simp [and_comm]
  · rw [parseToken_of_no_mark hmark, ofBody_eq_iff]
    cases hnegated : f.negated with
    | false => simp [hmark, and_comm]
    | true =>
      refine ⟨fun h => absurd h.1 (by simp), fun h => absurd ?_ hmark⟩
      rw [h.1]
      rfl

/-- What a token says is what is read in it. -/
theorem announces_iff : Announces token f ↔ isToken token = true ∧ parseToken token = f := by
  rw [isToken_iff, parseToken_eq_iff]
  exact ⟨fun h => ⟨⟨h.ne_empty, h.no_space⟩, h.written, h.key, h.front⟩,
    fun ⟨⟨hne, hspace⟩, hwritten, hkey, hfront⟩ => ⟨hwritten, hne, hspace, hkey, hfront⟩⟩

/-! ### Looking a feature up -/

/-- One of the tokens mentions a feature with the key. -/
def Mentions (tokens : List String) (key : String) (f : Feature) : Prop :=
  sameIgnoringCase f.key key = true ∧ ∃ token ∈ tokens, Announces token f

theorem mem_features_ofTokens :
    f ∈ (ofTokens tokens).features ↔ ∃ token ∈ tokens, Announces token f := by
  simp only [ofTokens, List.mem_map, List.mem_filter, announces_iff, and_assoc]

/-- Of two announcements the later one counts. -/
theorem get?_append (before after : List String) (key : String) :
    (ofTokens (before ++ after)).get? key =
      ((ofTokens after).get? key).or ((ofTokens before).get? key) := by
  simp only [get?, ofTokens, List.filter_append, List.map_append, List.reverse_append,
    List.find?_append]
  cases ((after.filter isToken).map parseToken).reverse.find? _ <;> rfl

/-- A feature is absent when all that is said about it is that it is taken back. -/
theorem get?_eq_none_iff :
    (ofTokens tokens).get? key = none ↔ ∀ f, Mentions tokens key f → f.negated = true := by
  rw [get?, Option.map_eq_none_iff, List.find?_eq_none]
  simp only [List.mem_reverse, mem_features_ofTokens, Mentions, Bool.and_eq_true,
    Bool.not_eq_true', not_and, Bool.not_eq_true]
  constructor
  · rintro h f ⟨hkey, hmem⟩
    by_contra hnegated
    rw [Bool.not_eq_true] at hnegated
    exact absurd hkey (by simp [h f hmem hnegated])
  · intro h f hmem hnegated
    by_contra hkey
    rw [Bool.not_eq_false] at hkey
    exact absurd (h f ⟨hkey, hmem⟩) (by simp [hnegated])

theorem get?_singleton (h : Announces token f) (hkey : sameIgnoringCase f.key key = true) :
    (ofTokens [token]).get? key = if f.negated then none else some f.value := by
  obtain ⟨htoken, rfl⟩ := announces_iff.mp h
  rw [get?, ofTokens, List.filter_cons_of_pos htoken]
  cases hnegated : (parseToken token).negated <;> simp [hnegated, hkey]

/-! ### The last mention -/

/-- The last mention of a key, and the tokens in front of it. -/
def LastMention (tokens : List String) (key : String) (before : List String) (f : Feature) : Prop :=
  ∃ token after, tokens = before ++ token :: after ∧ Mentions [token] key f ∧
    ∀ g, ¬Mentions after key g

theorem mentions_append :
    Mentions (before ++ after) key f ↔ Mentions before key f ∨ Mentions after key f := by
  simp only [Mentions, List.mem_append, or_and_right, exists_or, and_or_left]

theorem not_mentions_nil : ¬Mentions [] key f := by
  simp [Mentions]

theorem exists_lastMention (h : Mentions tokens key f) :
    ∃ before g, LastMention tokens key before g := by
  -- from the back: the last token mentions the key, or the last mention is in front of it
  induction tokens using List.reverseRecOn with
  | nil => exact absurd h not_mentions_nil
  | append_singleton tokens token ih =>
    by_cases hlast : ∃ g, Mentions [token] key g
    · obtain ⟨g, hg⟩ := hlast
      exact ⟨tokens, g, token, [], rfl, hg, fun _ => not_mentions_nil⟩
    · have hbefore := (mentions_append.mp h).resolve_right fun hf => hlast ⟨f, hf⟩
      obtain ⟨before, g, said, after, rfl, hg, hafter⟩ := ih hbefore
      refine ⟨before, g, said, after ++ [token], by simp, hg, fun g' hg' => ?_⟩
      exact (mentions_append.mp hg').elim (hafter g') fun hg' => hlast ⟨g', hg'⟩

theorem get?_of_not_mentions (h : ∀ f, ¬Mentions tokens key f) :
    (ofTokens tokens).get? key = none :=
  get?_eq_none_iff.mpr fun f hf => absurd hf (h f)

/-- A feature that is taken back is looked up in front of the token that takes it back. -/
theorem get?_of_lastMention (h : LastMention tokens key before f) :
    (ofTokens tokens).get? key =
      if f.negated then (ofTokens before).get? key else some f.value := by
  obtain ⟨token, after, rfl, ⟨hkey, said, hsaid, hannounces⟩, hafter⟩ := h
  rw [List.mem_singleton] at hsaid
  subst hsaid
  rw [← List.singleton_append, ← List.append_assoc, get?_append, get?_append,
    get?_of_not_mentions hafter, get?_singleton hannounces hkey, Option.none_or]
  cases f.negated <;> rfl

/-- The features that have a name of their own. -/
def named : List (String × (Isupport → Option String)) :=
  [("CASEMAPPING", caseMapping?), ("CHANTYPES", chantypes?), ("NETWORK", network?)]

theorem eq_value?_of_mem_named {read : Isupport → Option String} (h : (key, read) ∈ named)
    (s : Isupport) : read s = s.value? key := by
  simp only [named, List.mem_cons, Prod.mk.injEq, List.not_mem_nil, or_false] at h
  rcases h with ⟨rfl, rfl⟩ | ⟨rfl, rfl⟩ | ⟨rfl, rfl⟩ <;> rfl

/-- **What the last mention of a feature decides.**  A feature that nothing mentions is absent, and
the value of an announcement counts when it is the last mention.  A feature that is taken back last
is absent only if it was never announced before, and else the announcement before counts. -/
theorem last_mention (tokens : List String) (key : String) :
    ((¬∃ before f, LastMention tokens key before f) →
      (∀ f, ¬Mentions tokens key f) ∧ (ofTokens tokens).get? key = none) ∧
    ∀ before f, LastMention tokens key before f →
      (ofTokens tokens).get? key =
        (if f.negated then (ofTokens before).get? key else some f.value) ∧
      ((ofTokens tokens).get? key = (if f.negated then none else some f.value) ↔
        (f.negated = true → ∀ g, Mentions before key g → g.negated = true)) ∧
      ∀ read, (key, read) ∈ named →
        read (ofTokens tokens) = if f.negated then read (ofTokens before) else f.value := by
  constructor
  · intro h
    have hnone : ∀ f, ¬Mentions tokens key f := fun f hf => h (exists_lastMention hf)
    exact ⟨hnone, get?_of_not_mentions hnone⟩
  · intro before f hlast
    have hget := get?_of_lastMention hlast
    refine ⟨hget, ?_, fun read hread => ?_⟩
    · rw [hget, ← get?_eq_none_iff]
      cases f.negated <;> simp
    · rw [eq_value?_of_mem_named hread, eq_value?_of_mem_named hread, value?, value?, hget]
      cases f.negated <;> rfl

/-- A feature that is announced again, with its name in small letters. -/
theorem last_mention_again :
    (∃ f, LastMention ["CHANTYPES=#", "NICKLEN=30", "chantypes=#&"] "CHANTYPES"
      ["CHANTYPES=#", "NICKLEN=30"] f) ∧
    (ofTokens ["CHANTYPES=#", "NICKLEN=30", "chantypes=#&"]).get? "CHANTYPES" = some (some "#&") ∧
    (ofTokens ["CHANTYPES=#", "NICKLEN=30", "chantypes=#&"]).chantypes? = some "#&" := by
  have hlast : LastMention ["CHANTYPES=#", "NICKLEN=30", "chantypes=#&"] "CHANTYPES"
      ["CHANTYPES=#", "NICKLEN=30"] ⟨"chantypes", some "#&", false⟩ :=
    ⟨"chantypes=#&", [], rfl, ⟨by decide, _, List.mem_singleton_self _,
      announces_iff.mpr (by decide)⟩, fun _ => not_mentions_nil⟩
  obtain ⟨hget, -, hnamed⟩ := (last_mention _ _).2 _ _ hlast
  exact ⟨⟨_, hlast⟩, hget, hnamed chantypes? (by simp [named])⟩

/-- A feature that is taken back, and is there. -/
theorem present_of_taken_back :
    LastMention ["CHANTYPES=#", "-CHANTYPES"] "CHANTYPES" ["CHANTYPES=#"]
      ⟨"CHANTYPES", none, true⟩ ∧
    (ofTokens ["CHANTYPES=#", "-CHANTYPES"]).get? "CHANTYPES" = some (some "#") ∧
    (ofTokens ["CHANTYPES=#", "-CHANTYPES"]).chantypes? = some "#" :=
  ⟨⟨"-CHANTYPES", [], rfl, ⟨by decide, _, List.mem_singleton_self _,
    announces_iff.mpr (by decide)⟩, fun _ => not_mentions_nil⟩, by decide, by decide⟩

end Isupport

end Irc
