/-
What turns put out.

`Turn.Puts P t` says that every output of a turn has the property `P`.  The rules for
the ways of putting turns together are simplification rules, so that each function of
the engine needs only its own cases.

* **`Outgoing.Requested`** — the lines that some request comes to;
* **`Output.Answering`** — what handling the input of a server may put out: such lines,
  reports, and the order to start the keepalive;
* **`Engine.puts_call`** — lifecycle calls put out no lines but those of requests.
-/
import Irc.Engine.Dispatch
import Irc.Engine.Lifecycle
import Mathlib.Tactic.SplitIfs

namespace Irc

open Outgoing Capability

/-- A line that some request comes to. -/
def Outgoing.Requested (line : String) : Prop :=
  ∃ (r : Request) (c : Command) (lines : List String),
    r.command = .ok c ∧ c.lines = .ok lines ∧ line ∈ lines

/-- If the output is a line, some request comes to it. -/
def Output.Requested : Output → Prop
  | .line text => Outgoing.Requested text
  | _ => True

/-- What handling the input of a server may put out. -/
def Output.Answering : Output → Prop
  | .line text => Outgoing.Requested text
  | .report .. => True
  | .effect (.startKeepalive _) => True
  | _ => False

/-- Whatever a turn puts out has the property. -/
def Turn.Puts (P : Output → Prop) (t : Turn) : Prop := ∀ o ∈ t.outputs, P o

theorem Output.Answering.requested {o : Output} (h : o.Answering) : o.Requested := by
  cases o with
  | line text => exact h
  | dropLines => trivial
  | effect effect => trivial
  | report event tags seen => trivial

@[simp] theorem Output.requested_report (event : Event) (tags : List Tag) (seen : Engine) :
    (Output.report event tags seen).Requested := trivial

@[simp] theorem Output.requested_effect (effect : Effect) :
    (Output.effect effect).Requested := trivial

@[simp] theorem Output.requested_dropLines : Output.dropLines.Requested := trivial

/-! ### Putting turns together -/

variable {P Q : Output → Prop}

namespace Turn

theorem Puts.mono {t : Turn} (h : t.Puts P) (hPQ : ∀ o, P o → Q o) : t.Puts Q :=
  fun o ho => hPQ o (h o ho)

@[simp] theorem puts_andThen (t : Turn) (next : Engine → Turn) :
    (t.andThen next).Puts P ↔ t.Puts P ∧ (next t.engine).Puts P := by
  simp only [Puts, andThen, List.forall_mem_append]

@[simp] theorem puts_update (t : Turn) (change : Engine → Engine) :
    (t.update change).Puts P ↔ t.Puts P := Iff.rfl

@[simp] theorem puts_learn (t : Turn) (change : Link → Link) :
    (t.learn change).Puts P ↔ t.Puts P := Iff.rfl

end Turn

namespace Engine

@[simp] theorem puts_stay (e : Engine) : e.stay.Puts P := fun _ ho => absurd ho List.not_mem_nil

@[simp] theorem puts_order (e : Engine) (effect : Effect) :
    (e.order effect).Puts P ↔ P (.effect effect) := List.forall_mem_singleton

@[simp] theorem puts_report (e : Engine) (event : Event) (tags : List Tag) :
    (e.report event tags).Puts P ↔ P (.report event tags e) := List.forall_mem_singleton

/-- The lines that may be sent are lines of a request. -/
theorem requested_of_linesFor {e : Engine} {r : Request} {lines : List String}
    (h : e.linesFor r = .ok lines) : ∀ line ∈ lines, Requested line := by
  rw [linesFor] at h
  split at h
  · exact absurd h (by simp)
  rename_i c hc
  split_ifs at h
  split at h
  · exact absurd h (by simp)
  rename_i lines' hlines
  rw [Except.ok.injEq] at h
  subst h
  exact fun line hline => ⟨r, c, lines', hc, hlines, hline⟩

theorem puts_queue (hP : ∀ line, Requested line → P (.line line)) (e : Engine) (r : Request) :
    (e.queue r).Puts P := by
  rw [queue]
  split
  · rename_i lines hlines
    intro o ho
    obtain ⟨line, hline, rfl⟩ := List.mem_map.mp ho
    exact hP line (requested_of_linesFor hlines line hline)
  · exact puts_stay e

@[simp] theorem puts_queue_requested (e : Engine) (r : Request) :
    (e.queue r).Puts Output.Requested := puts_queue (fun _ h => h) e r

end Engine

namespace Turn

@[simp] theorem puts_order (t : Turn) (effect : Effect) :
    (t.order effect).Puts P ↔ t.Puts P ∧ P (.effect effect) := by
  rw [order, puts_andThen, Engine.puts_order]

@[simp] theorem puts_report (t : Turn) (event : Event) (tags : List Tag) :
    (t.report event tags).Puts P ↔ t.Puts P ∧ P (.report event tags t.engine) := by
  rw [report, puts_andThen, Engine.puts_report]

@[simp] theorem puts_queue_requested (t : Turn) (r : Request) :
    (t.queue r).Puts Output.Requested ↔ t.Puts Output.Requested := by
  rw [queue, puts_andThen, and_iff_left (t.engine.puts_queue_requested r)]

end Turn

namespace Engine

/-! ### Lifecycle calls -/

variable {a : Answer}

@[simp] theorem puts_resetLink (e : Engine) : e.resetLink.Puts Output.Requested := by
  rw [resetLink]
  split_ifs <;> simp [Turn.Puts]

theorem puts_apply {e : Engine} {action : Action} (h : e.apply action = .ok a) :
    a.turn.Puts Output.Requested := by
  rw [apply] at h
  split_ifs at h
  split at h
  · exact absurd h (by simp)
  rename_i t ht
  rw [Except.ok.injEq] at h
  subst h
  intro o ho
  rcases List.mem_append.mp ho with ho | ho
  · obtain ⟨effect, -, rfl⟩ := List.mem_map.mp ho
    trivial
  · split_ifs at ho
    · rw [List.mem_singleton.mp ho]
      trivial
    · exact absurd ho List.not_mem_nil

theorem puts_quit {e : Engine} {reason : Option String} (h : e.quit reason = .ok a) :
    a.turn.Puts Output.Requested := by
  rw [quit] at h
  split at h
  · exact absurd h (by simp)
  rename_i answer hanswer
  rw [Except.ok.injEq] at h
  subst h
  refine (Turn.puts_andThen _ _).mpr ⟨?_, puts_apply hanswer⟩
  split_ifs <;> simp

theorem puts_register (e : Engine) : e.register.Puts Output.Requested := by
  rw [register]
  cases e.config.password <;> simp

theorem puts_beginConnection (e : Engine) (now : Instant) :
    (e.beginConnection now).Puts Output.Requested := by
  simp [beginConnection, puts_register]

theorem puts_connectFinished {e : Engine} {now : Instant} (h : e.connectFinished now = .ok a) :
    a.turn.Puts Output.Requested := by
  rw [connectFinished] at h
  split at h
  · exact absurd h (by simp)
  rename_i answer hanswer
  rw [Except.ok.injEq] at h
  subst h
  exact (Turn.puts_andThen _ _).mpr ⟨puts_apply hanswer, puts_beginConnection _ now⟩

theorem puts_connectFailed {e : Engine} {reason : String} (h : e.connectFailed reason = .ok a) :
    a.turn.Puts Output.Requested := by
  rw [connectFailed] at h
  split at h
  · exact absurd h (by simp)
  rename_i answer hanswer
  have hturn := puts_apply hanswer
  split at h
  · exact Except.ok.inj h ▸ hturn
  · rw [Except.ok.injEq] at h
    subst h
    exact (Turn.puts_andThen _ _).mpr ⟨hturn, by simp⟩

theorem puts_disconnected {e : Engine} {reason : String} (h : e.disconnected reason = .ok a) :
    a.turn.Puts Output.Requested := by
  rw [disconnected] at h
  split at h
  · exact absurd h (by simp)
  rename_i answer hanswer
  have hended : (answer.andThen resetLink).turn.Puts Output.Requested :=
    (Turn.puts_andThen _ _).mpr ⟨puts_apply hanswer, puts_resetLink _⟩
  dsimp only at h
  split at h
  · exact Except.ok.inj h ▸ hended
  · rw [Except.ok.injEq] at h
    subst h
    exact (Turn.puts_andThen _ _).mpr ⟨hended, by simp⟩

theorem puts_keepaliveTick {e : Engine} {now : Instant} (h : e.keepaliveTick now = .ok a) :
    a.turn.Puts Output.Requested := by
  rw [keepaliveTick] at h
  split_ifs at h
  · exact Except.ok.inj h ▸ e.puts_stay
  split at h
  · exact Except.ok.inj h ▸ e.puts_stay
  split_ifs at h
  · exact puts_apply h
  · exact Except.ok.inj h ▸ e.puts_queue_requested _

/-- **No lifecycle call puts out a line that no request comes to.** -/
theorem puts_call {e : Engine} {c : LifecycleCall} (h : e.call c = .ok a) :
    a.turn.Puts Output.Requested := by
  cases c with
  | apply action => exact puts_apply h
  | connect => exact puts_apply h
  | connectFinished now => exact puts_connectFinished h
  | connectFailed reason => exact puts_connectFailed h
  | disconnect => exact puts_apply h
  | disconnected reason => exact puts_disconnected h
  | quit reason => exact puts_quit h
  | timerFired => exact puts_apply h
  | keepaliveTick now => exact puts_keepaliveTick h

end Engine

end Irc
