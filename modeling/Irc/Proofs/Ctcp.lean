/-
Client-to-client messages, written and read.

A message goes out between two marks, its command in front of its arguments, and the command is
read up to the first space.  A request is turned down only when its command is empty.  So a command
with a space in it is sent as well, but what stands behind the space is read as an argument.

* **`Ctcp.parse?_frame`**, **`Ctcp.parse?_frame_of_space`** — how a text between marks is read;
* **`Ctcp.parse?_frame_eq_iff`** — a message is read back when its command has no space;
* **`Ctcp.parse?_eq_some_iff_frame`** — nothing but what is read back is read;
* **`Outgoing.ctcp_read_back`** — what a request with a client-to-client message says.
-/
import Irc.Proofs.ReadBack

namespace Irc.Ctcp

open Text

variable {m : Ctcp}

/-! ### Reading what stands between the marks -/

/-- The arguments with the space in front of them. -/
def behind (m : Ctcp) : String := m.params.elim "" (" " ++ ·)

theorem toList_frame (m : Ctcp) :
    m.frame.toList = mark :: (m.command.toList ++ m.behind.toList) ++ [mark] := by
  rw [frame, String.toList_ofList]
  obtain ⟨command, params⟩ := m
  cases params with
  | none => simp [behind]
  | some params => simp [behind]

theorem inner?_eq_some_iff {cs inner : List Char} :
    inner? cs = some inner ↔ cs = mark :: inner ++ [mark] := by
  cases cs with
  | nil => simp [inner?]
  | cons c rest =>
    rw [inner?, List.cons_append]
    constructor
    · intro h
      split_ifs at h with hmarks
      simp only [Bool.and_eq_true, decide_eq_true_eq] at hmarks
      obtain ⟨hc, hlast⟩ := hmarks
      rw [← Option.some.inj h, hc, List.dropLast_append_getLast? mark hlast]
    · intro h
      obtain ⟨rfl, rfl⟩ := List.cons.inj h
      rw [List.getLast?_concat, List.dropLast_concat]
      simp

theorem inner?_toList_frame (m : Ctcp) :
    inner? m.frame.toList = some (m.command.toList ++ m.behind.toList) :=
  inner?_eq_some_iff.mpr (toList_frame m)

/-- A command without a space is read back, with the arguments. -/
theorem parse?_frame (hcommand : m.command ≠ "") (hspace : ' ' ∉ m.command.toList) :
    parse? m.frame = some m := by
  have hne : m.command.toList ≠ [] := fun h => hcommand (String.toList_eq_nil_iff.mp h)
  rw [parse?, inner?_toList_frame]
  obtain ⟨command, params⟩ := m
  cases params with
  | none =>
    have hnone : splitOnce ' ' command.toList = none := splitOnce_eq_none_iff.mpr hspace
    simp [behind, hnone, hcommand]
  | some params =>
    have hsome := splitOnce_append hspace params.toList
    have hbehind : (" " ++ params).toList = ' ' :: params.toList := by simp
    simp [behind, hsome, hbehind, hne]

/-- What stands behind the first space of a command is read as an argument. -/
theorem parse?_frame_of_space {front back : String} (hcommand : m.command = front ++ " " ++ back)
    (hfront : ' ' ∉ front.toList) :
    parse? m.frame = if front = "" then none else some ⟨front, some (back ++ m.behind)⟩ := by
  have hinner : m.command.toList ++ m.behind.toList =
      front.toList ++ ' ' :: (back ++ m.behind).toList := by
    simp [hcommand]
  rw [parse?, inner?_toList_frame, hinner]
  simp only [splitOnce_append hfront, Option.bind_eq_bind, Option.bind_some,
    String.toList_eq_nil_iff, String.ofList_toList]

/-- A message is read back when its command has no space. -/
theorem parse?_frame_eq_iff (hcommand : m.command ≠ "") :
    parse? m.frame = some m ↔ ' ' ∉ m.command.toList := by
  refine ⟨fun h hmem => ?_, parse?_frame hcommand⟩
  -- cut at the first space, the command that is read is shorter than the one that is sent
  obtain ⟨front, back, hsplit, hfront⟩ := List.eq_append_cons_of_mem hmem
  have heq : m.command = String.ofList front ++ " " ++ String.ofList back := by
    rw [← String.toList_inj, hsplit]
    simp
  rw [parse?_frame_of_space heq (by rwa [String.toList_ofList])] at h
  split_ifs at h
  have hread : String.ofList front = m.command := congrArg Ctcp.command (Option.some.inj h)
  rw [← hread, String.toList_ofList] at hmem
  exact hfront hmem

/-- A message that is read is written as it was, and its command is one that is read back. -/
theorem of_parse?_eq_some {text : String} (h : parse? text = some m) :
    m.command ≠ "" ∧ ' ' ∉ m.command.toList ∧ text = m.frame := by
  rw [parse?, Option.bind_eq_bind, Option.bind_eq_some_iff] at h
  obtain ⟨inner, hinner, h⟩ := h
  have hparts : m.command ≠ "" ∧ ' ' ∉ m.command.toList ∧
      inner = m.command.toList ++ m.behind.toList := by
    cases hsplit : splitOnce ' ' inner with
    | none =>
      have hspace := splitOnce_eq_none_iff.mp hsplit
      rw [hsplit] at h
      simp only at h
      split_ifs at h with hempty
      obtain rfl := Option.some.inj h
      exact ⟨by simpa using hempty, by simpa using hspace, by simp [behind]⟩
    | some parts =>
      obtain ⟨command, params⟩ := parts
      obtain ⟨rfl, hspace⟩ := splitOnce_eq_some_iff.mp hsplit
      rw [hsplit] at h
      simp only at h
      split_ifs at h with hempty
      obtain rfl := Option.some.inj h
      exact ⟨by simpa using hempty, by simpa using hspace, by simp [behind]⟩
  obtain ⟨hcommand, hspace, rfl⟩ := hparts
  refine ⟨hcommand, hspace, ?_⟩
  rw [← String.toList_inj, inner?_eq_some_iff.mp hinner, toList_frame]

/-- **Reading undoes writing, and nothing else is read.**  A text is read as a message just when it
is the written form of that message and the command is neither empty nor holds a space, whatever
marks and spaces stand in the rest. -/
theorem parse?_eq_some_iff_frame (text : String) (m : Ctcp) :
    (parse? text = some m ↔ m.command ≠ "" ∧ ' ' ∉ m.command.toList ∧ text = m.frame) ∧
      (m.command ≠ "" → ' ' ∉ m.command.toList → parse? m.frame = some m) ∧
      (parse? text = some m → m.frame = text) := by
  refine ⟨⟨of_parse?_eq_some, ?_⟩, parse?_frame, fun h => (of_parse?_eq_some h).2.2.symm⟩
  rintro ⟨hcommand, hspace, rfl⟩
  exact parse?_frame hcommand hspace

/-- A message with marks in its command and in its arguments. -/
theorem parse?_eq_some_iff_frame_of_marks :
    parse? "\x01A\x01 \x01 \x01\x01" = some ⟨"A\x01", some "\x01 \x01"⟩ ∧
      parse? (frame ⟨"A\x01", some "\x01 \x01"⟩) = some ⟨"A\x01", some "\x01 \x01"⟩ ∧
      frame ⟨"A\x01", some "\x01 \x01"⟩ = "\x01A\x01 \x01 \x01\x01" := by
  obtain ⟨hiff, hback, hagain⟩ :=
    parse?_eq_some_iff_frame "\x01A\x01 \x01 \x01\x01" ⟨"A\x01", some "\x01 \x01"⟩
  have hcommand : ("A\x01" : String) ≠ "" := by decide
  have hspace : ' ' ∉ "A\x01".toList := by decide +kernel
  have hread := hiff.mpr ⟨hcommand, hspace, by decide +kernel⟩
  exact ⟨hread, hback hcommand hspace, hagain hread⟩

end Irc.Ctcp

namespace Irc.Outgoing

open Text Message

/-! ### Requests with a client-to-client message -/

/-- The verb, the target and the message of a request that carries one. -/
def Request.ctcp? : Request → Option (String × String × Ctcp)
  | .ctcpRequest target command params => some ("PRIVMSG", target, ⟨command, params⟩)
  | .ctcpResponse target command params => some ("NOTICE", target, ⟨command, params⟩)
  | .action target text => some ("PRIVMSG", target, ⟨"ACTION", some text⟩)
  | _ => none

variable {r : Request} {verb target : String} {m : Ctcp} {c : Command} {lines : List String}

theorem Request.command_of_ctcp? (hr : r.ctcp? = some (verb, target, m)) :
    r.command = ctcp verb target m.command m.params := by
  cases r with
  | ctcpRequest | ctcpResponse | action =>
    simp only [ctcp?, Option.some.injEq, Prod.mk.injEq] at hr
    obtain ⟨rfl, rfl, rfl⟩ := hr
    rfl
  | _ => exact absurd hr (by simp [ctcp?])

/-- The text of such a request is its message between the marks. -/
theorem Request.of_ctcp? (hr : r.ctcp? = some (verb, target, m)) (hc : r.command = .ok c) :
    m.command ≠ "" ∧ c = single verb [target] (some m.frame) := by
  have hyields : Yields (fun c => m.command ≠ "" ∧ c = single verb [target] (some m.frame))
      (ctcp verb target m.command m.params) := by
    simp only [ctcp, yields_checkPresent_bind, yields_checkMiddle_bind, yields_checkText_bind,
      yields_ok]
    exact fun hcommand _ _ => ⟨hcommand, trivial⟩
  exact hyields c (command_of_ctcp? hr ▸ hc)

theorem Request.built_of_lines_single {middles : List String} {trailing : Option String}
    (h : (single verb middles trailing).lines = .ok lines) :
    Built verb middles trailing [trailing] ∧ lines = [lineText verb middles trailing] := by
  rw [Command.lines, if_neg (by simp [single])] at h
  split at h
  · exact absurd h (by simp)
  rename_i line hline
  obtain ⟨hbuilt, rfl⟩ := buildSingle_eq_ok hline
  exact ⟨hbuilt, (Except.ok.inj h).symm⟩

/-- **What a request with a client-to-client message says.**  It goes out in one line, which is
read as a text for the target.  The text is the message if its command has no space, and else what
stands behind the first space is one of the arguments; with nothing in front of the space it is no
message at all. -/
theorem ctcp_read_back (hr : r.ctcp? = some (verb, target, m)) (hc : r.command = .ok c)
    (hlines : c.lines = .ok lines) :
    ∃ line received, lines = [line] ∧ parse line = .ok received ∧
      received = { command := verb, middles := [target], trailing := some received.lastArg } ∧
      (Ctcp.parse? received.lastArg = some m ↔ ' ' ∉ m.command.toList) ∧
      ∀ front back, m.command = front ++ " " ++ back → ' ' ∉ front.toList →
        Ctcp.parse? received.lastArg =
          if front = "" then none
          else some ⟨front, some (back ++ m.params.elim "" (" " ++ ·))⟩ := by
  obtain ⟨hcommand, rfl⟩ := Request.of_ctcp? hr hc
  obtain ⟨hbuilt, rfl⟩ := Request.built_of_lines_single hlines
  have hparse := hbuilt.parse_lineText (List.mem_singleton_self _)
  have hfew : [target].length ≤ Limits.middles := Nat.one_le_ofNat
  have hupper : upper verb = verb := (sound_of_command hc).upper
  rw [if_pos hfew, hupper] at hparse
  exact ⟨_, lineMessage verb [target] (some m.frame), rfl, hparse, rfl,
    Ctcp.parse?_frame_eq_iff hcommand, fun _ _ => Ctcp.parse?_frame_of_space⟩

/-- The answer to a question for the time. -/
theorem ctcp_read_back_time :
    ∃ c line received,
      (Request.ctcpResponse "bob" "TIME" (some "now : soon")).command = .ok c ∧
      c.lines = .ok [line] ∧ parse line = .ok received ∧ received.command = "NOTICE" ∧
      Ctcp.parse? received.lastArg = some ⟨"TIME", some "now : soon"⟩ := by
  have hcommand : (Request.ctcpResponse "bob" "TIME" (some "now : soon")).command =
      .ok ⟨"NOTICE", ["bob"], some "\x01TIME now : soon\x01", false⟩ := by
    decide +kernel
  have hlines : Command.lines ⟨"NOTICE", ["bob"], some "\x01TIME now : soon\x01", false⟩ =
      .ok ["NOTICE bob :\x01TIME now : soon\x01\r\n"] := by
    decide +kernel
  obtain ⟨line, received, hline, hparse, hreceived, hread, -⟩ :=
    ctcp_read_back (m := ⟨"TIME", some "now : soon"⟩) rfl hcommand hlines
  rw [hline] at hlines
  exact ⟨_, line, received, hcommand, hlines, hparse, by rw [hreceived], hread.mpr (by decide)⟩

/-- A message that is sent, and arrives as another one. -/
theorem ctcp_misread_of_space :
    ∃ c line received,
      (Request.ctcpRequest "bob" "A B" (some "c")).command = .ok c ∧
      c.lines = .ok [line] ∧ parse line = .ok received ∧
      Ctcp.parse? received.lastArg = some ⟨"A", some "B c"⟩ ∧
      Ctcp.parse? received.lastArg ≠ some ⟨"A B", some "c"⟩ := by
  have hcommand : (Request.ctcpRequest "bob" "A B" (some "c")).command =
      .ok ⟨"PRIVMSG", ["bob"], some "\x01A B c\x01", false⟩ := by
    decide +kernel
  have hlines : Command.lines ⟨"PRIVMSG", ["bob"], some "\x01A B c\x01", false⟩ =
      .ok ["PRIVMSG bob :\x01A B c\x01\r\n"] := by
    decide +kernel
  have hparse : parse "PRIVMSG bob :\x01A B c\x01\r\n" =
      .ok { command := "PRIVMSG", middles := ["bob"], trailing := some "\x01A B c\x01" } := by
    decide +kernel
  exact ⟨_, _, _, hcommand, hlines, hparse, by decide +kernel, by decide +kernel⟩

end Irc.Outgoing
