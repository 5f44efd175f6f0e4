/-
Sources read back as they were written.

A full user mask has three non-empty parts, the nickname in front of the first
`!` and the user name in front of the first `@` behind it; any other text is a
server name:

* **`splitMask_eq_some_iff`** — which texts are full user masks;
* **`render_parse`** — a source is written as it was read;
* **`Mask.unique`**, **`parse_eq_user_iff`**, **`parse_eq_server_iff`** — what a text is read as;
* **`decomposition`** — a source comes apart in one way.
-/
import Irc.Message.Source
import Irc.Proofs.Text

namespace Irc.Source

open Text

/-- The texts that are full user masks, and their parts. -/
theorem splitMask_eq_some_iff {cs nick username host : List Char} :
    splitMask cs = some (nick, username, host) ↔
      cs = nick ++ '!' :: (username ++ '@' :: host) ∧ '!' ∉ nick ∧ '@' ∉ username ∧
        nick ≠ [] ∧ username ≠ [] ∧ host ≠ [] := by
  rw [splitMask]
  simp only [Option.bind_eq_bind, Option.bind_eq_some_iff, Prod.exists, splitOnce_eq_some_iff]
  constructor
  · rintro ⟨n, rest, ⟨rfl, hn⟩, u, h, ⟨rfl, hu⟩, hparts⟩
    split_ifs at hparts with hempty
    simp only [Bool.or_eq_true, decide_eq_true_eq, not_or] at hempty
    rw [Option.some_inj, Prod.mk.injEq, Prod.mk.injEq] at hparts
    obtain ⟨rfl, rfl, rfl⟩ := hparts
    exact ⟨rfl, hn, hu, hempty.1.1, hempty.1.2, hempty.2⟩
  · rintro ⟨rfl, hn, hu, hnick, husername, hhost⟩
    refine ⟨nick, _, ⟨rfl, hn⟩, username, host, ⟨rfl, hu⟩, ?_⟩
    rw [if_neg (by simp [hnick, husername, hhost])]

/-- A source is written as it was read. -/
theorem render_parse (text : String) : (parse text).render = text := by
  rw [parse]
  split
  · rename_i nick username host hmask
    have htext := (splitMask_eq_some_iff.mp hmask).1
    rw [← String.toList_inj, htext]
    simp [render]
  · rfl

/-! ### Full user masks -/

/-- A full user mask with its parts: the nickname is what stands in front of the first `!`, the user
name what stands in front of the first `@` behind it. -/
structure Mask (text nick username host : String) : Prop where
  join : text = nick ++ "!" ++ username ++ "@" ++ host
  nick_ne : nick ≠ ""
  username_ne : username ≠ ""
  host_ne : host ≠ ""
  nick_plain : '!' ∉ nick.toList
  username_plain : '@' ∉ username.toList

theorem mask_iff_splitMask {text nick username host : String} :
    Mask text nick username host ↔
      splitMask text.toList = some (nick.toList, username.toList, host.toList) := by
  have hjoin : text = nick ++ "!" ++ username ++ "@" ++ host ↔
      text.toList = nick.toList ++ '!' :: (username.toList ++ '@' :: host.toList) := by
    rw [← String.toList_inj]
    simp
  rw [splitMask_eq_some_iff, ← hjoin]
  simp only [Ne, String.toList_eq_nil_iff]
  constructor
  · rintro ⟨hjoin, hnick, husername, hhost, hn, hu⟩
    exact ⟨hjoin, hn, hu, hnick, husername, hhost⟩
  · rintro ⟨hjoin, hn, hu, hnick, husername, hhost⟩
    exact ⟨hjoin, hnick, husername, hhost, hn, hu⟩

/-- The parts of a full user mask are told by its text. -/
theorem Mask.unique {text nick username host nick' username' host' : String}
    (h : Mask text nick username host) (h' : Mask text nick' username' host') :
    nick = nick' ∧ username = username' ∧ host = host' := by
  have hparts := (mask_iff_splitMask.mp h).symm.trans (mask_iff_splitMask.mp h')
  simpa only [Option.some_inj, Prod.mk.injEq, String.toList_inj] using hparts

theorem parse_eq_user_iff {text nick username host : String} :
    parse text = .user nick username host ↔ Mask text nick username host := by
  rw [mask_iff_splitMask, parse]
  cases splitMask text.toList with
  | none => simp
  | some parts => simp [Prod.ext_iff, ← String.toList_inj]

/-- Any other text is a server name. -/
theorem parse_eq_server_iff {text name : String} :
    parse text = .server name ↔
      name = text ∧ ∀ nick username host, ¬ Mask text nick username host := by
  have hrender := render_parse text
  constructor
  · intro hparse
    rw [hparse] at hrender
    refine ⟨hrender, fun nick username host hmask => ?_⟩
    rw [parse_eq_user_iff.mpr hmask] at hparse
    exact absurd hparse (by simp)
  · rintro ⟨rfl, hno⟩
    cases hparse : parse name with
    | server other =>
      rw [hparse] at hrender
      exact congrArg Source.server hrender
    | user nick username host =>
      exact absurd (parse_eq_user_iff.mp hparse) (hno nick username host)

/-- **A source comes apart in one way, and goes together again.**  A full user mask is read as its
three parts, which are the only ones it has, and any other text as the name of a server. -/
theorem decomposition (text : String) :
    (parse text).render = text ∧
      (∀ nick username host,
        parse text = .user nick username host ↔ Mask text nick username host) ∧
      (∀ nick username host nick' username' host', Mask text nick username host →
        Mask text nick' username' host' → nick = nick' ∧ username = username' ∧ host = host') ∧
      ∀ name, parse text = .server name ↔
        name = text ∧ ∀ nick username host, ¬ Mask text nick username host :=
  ⟨render_parse text, fun _ _ _ => parse_eq_user_iff, fun _ _ _ _ _ _ => Mask.unique,
    fun _ => parse_eq_server_iff⟩

/-- A nickname with an `@`, a user name with a `!`, and a host with both. -/
theorem decomposition_of_marks :
    parse "n@x!u!v@h!k@l" = .user "n@x" "u!v" "h!k@l" ∧
      ∀ nick username host, Mask "n@x!u!v@h!k@l" nick username host →
        nick = "n@x" ∧ username = "u!v" ∧ host = "h!k@l" := by
  obtain ⟨-, huser, hunique, -⟩ := decomposition "n@x!u!v@h!k@l"
  have hmask : Mask "n@x!u!v@h!k@l" "n@x" "u!v" "h!k@l" :=
    ⟨by decide +kernel, by decide, by decide, by decide, by decide +kernel, by decide +kernel⟩
  exact ⟨(huser _ _ _).mpr hmask, fun _ _ _ hother => hunique _ _ _ _ _ _ hother hmask⟩

end Irc.Source
