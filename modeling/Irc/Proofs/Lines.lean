/-
The lines that turns queue.

`Turn.lines` are the lines among the outputs of a turn, in order.  The laws of putting
turns together say what they are for each function of the engine.

* **`Turn.andThen_assoc`**, **`Engine.forNames_eq`** — turns are put together in any grouping,
  so a turn for every name of a list follows the list;
* **`Engine.lines_queue`** — a request is queued as its lines while lines can be sent;
* **`Engine.life`** — what the lifecycle calls alone decide of an engine.
-/
import Irc.Engine.Dispatch
import Irc.Engine.Lifecycle
import Mathlib.Tactic.SplitIfs

namespace Irc

open Outgoing Capability

/-- The line that is put out, if it is one. -/
def Output.line? : Output → Option String
  | .line text => some text
  | _ => none

/-- The lines among the outputs of a turn. -/
def Turn.lines (t : Turn) : List String := t.outputs.filterMap Output.line?

/-- The lines of a request; one that is turned down or cannot be built has none. -/
def Outgoing.Request.lines (r : Request) : List String :=
  match r.command with
  | .error _ => []
  | .ok c =>
    match c.lines with
    | .error _ => []
    | .ok lines => lines

theorem Outgoing.Request.mem_lines {r : Request} {line : String} (h : line ∈ r.lines) :
    ∃ c lines, r.command = .ok c ∧ c.lines = .ok lines ∧ line ∈ lines := by
  rw [lines] at h
  split at h
  · exact absurd h List.not_mem_nil
  rename_i c hc
  split at h
  · exact absurd h List.not_mem_nil
  rename_i lines hlines
  exact ⟨c, lines, hc, hlines, h⟩

/-- What the lifecycle calls alone decide. -/
structure Life where
  config : Config
  state : ConnectionState
  lastAction : Option Action
  backoff : Backoff
  epoch : Instant
  freed : Bool

namespace Engine

/-- What the lifecycle calls alone decide of an engine. -/
def life (e : Engine) : Life :=
  ⟨e.config, e.state, e.lastAction, e.backoff, e.epoch, e.freed⟩

/-- Lines can be sent. -/
def Open (e : Engine) : Prop := e.state = .connected ∧ e.freed = false

instance (e : Engine) : Decidable e.Open := inferInstanceAs (Decidable (_ ∧ _))

variable {e e' : Engine}

theorem config_of_life (h : e'.life = e.life) : e'.config = e.config := congrArg Life.config h

theorem open_of_life (h : e'.life = e.life) : e'.Open ↔ e.Open := by
  rw [Open, Open, show e'.state = e.state from congrArg Life.state h,
    show e'.freed = e.freed from congrArg Life.freed h]

/-! ### Elementary turns -/

@[simp] theorem engine_stay (e : Engine) : e.stay.engine = e := rfl

@[simp] theorem lines_stay (e : Engine) : e.stay.lines = [] := rfl

@[simp] theorem engine_report (e : Engine) (event : Event) (tags : List Tag) :
    (e.report event tags).engine = e := rfl

@[simp] theorem lines_report (e : Engine) (event : Event) (tags : List Tag) :
    (e.report event tags).lines = [] := rfl

@[simp] theorem engine_queue (e : Engine) (r : Request) : (e.queue r).engine = e := by
  rw [queue]
  split <;> rfl

/-- A request is put out as its lines while lines can be sent. -/
theorem outputs_queue (e : Engine) (r : Request) :
    (e.queue r).outputs = (if e.Open then r.lines else []).map .line := by
  rw [queue, linesFor, Request.lines]
  cases r.command with
  | error err => simp
  | ok c =>
    -- the command is good; what is left are the two guards of `linesFor` and the length
    by_cases he : e.Open
    · cases hbuilt : c.lines with
      | error err => simp [he.1, he.2, hbuilt]
      | ok lines => simp [he, he.1, he.2, hbuilt]
    · rw [if_neg he]
      by_cases hfreed : e.freed = true
      · simp [hfreed]
      · have hstate : e.state ≠ .connected := fun h => he ⟨h, Bool.eq_false_iff.mpr hfreed⟩
        simp [hfreed, hstate]

theorem lines_queue (e : Engine) (r : Request) :
    (e.queue r).lines = if e.Open then r.lines else [] := by
  rw [Turn.lines, outputs_queue, List.filterMap_map]
  exact List.filterMap_some

theorem queue_of_open (he : e.Open) (r : Request) : e.queue r = ⟨e, r.lines.map .line⟩ := by
  have houtputs := e.outputs_queue r
  rw [if_pos he] at houtputs
  rw [← houtputs]
  exact congrArg (Turn.mk · (e.queue r).outputs) (e.engine_queue r)

theorem queue_of_not_open (he : ¬ e.Open) (r : Request) : e.queue r = e.stay := by
  have houtputs := e.outputs_queue r
  rw [if_neg he, List.map_nil] at houtputs
  rw [stay, ← houtputs]
  exact congrArg (Turn.mk · (e.queue r).outputs) (e.engine_queue r)

theorem lines_queue_of_open (he : e.Open) (r : Request) : (e.queue r).lines = r.lines := by
  rw [lines_queue, if_pos he]

end Engine

/-! ### Putting turns together -/

namespace Turn

variable (t : Turn)

@[simp] theorem engine_andThen (next : Engine → Turn) :
    (t.andThen next).engine = (next t.engine).engine := rfl

@[simp] theorem lines_andThen (next : Engine → Turn) :
    (t.andThen next).lines = t.lines ++ (next t.engine).lines := List.filterMap_append

theorem andThen_assoc (f g : Engine → Turn) :
    (t.andThen f).andThen g = t.andThen fun e => (f e).andThen g := by
  simp only [andThen, List.append_assoc]

@[simp] theorem stay_andThen (e : Engine) (next : Engine → Turn) :
    e.stay.andThen next = next e := by
  simp only [andThen, Engine.stay, List.nil_append]

@[simp] theorem andThen_stay : t.andThen Engine.stay = t := by
  simp only [andThen, Engine.stay, List.append_nil]

@[simp] theorem lines_learn (change : Link → Link) : (t.learn change).lines = t.lines := rfl

@[simp] theorem life_learn (change : Link → Link) :
    (t.learn change).engine.life = t.engine.life := rfl

@[simp] theorem engine_report (event : Event) (tags : List Tag) :
    (t.report event tags).engine = t.engine := rfl

@[simp] theorem lines_report (event : Event) (tags : List Tag) :
    (t.report event tags).lines = t.lines := by
  rw [report, lines_andThen, Engine.lines_report, List.append_nil]

@[simp] theorem engine_queue (r : Request) : (t.queue r).engine = t.engine :=
  Engine.engine_queue t.engine r

@[simp] theorem lines_queue (r : Request) :
    (t.queue r).lines = t.lines ++ (t.engine.queue r).lines := lines_andThen t _

end Turn

namespace Engine

/-! ### A turn for every name -/

/-- A turn for every name in order, by recursion on the names. -/
def inTurn (turn : Engine → String → Turn) : List String → Engine → Turn
  | [], e => e.stay
  | name :: names, e => (turn e name).andThen (inTurn turn names)

theorem forNames_eq (e : Engine) (list : String) (turn : Engine → String → Turn) :
    e.forNames list turn = inTurn turn (parseNames list) e := by
  -- the fold puts turns together from the left, so it is taken from any turn on
  have hfold : ∀ (names : List String) (t : Turn),
      names.foldl (fun t name => t.andThen (turn · name)) t = t.andThen (inTurn turn names) := by
    intro names
    induction names with
    | nil => exact fun t => t.andThen_stay.symm
    | cons name names ih =>
      intro t
      rw [List.foldl_cons, ih, Turn.andThen_assoc]
      rfl
  rw [forNames, hfold, Turn.stay_andThen]

/-! ### A request for every item -/

theorem engine_foldl_queue {α : Type} (request : α → Request) (items : List α) (t : Turn) :
    (items.foldl (fun t item => t.queue (request item)) t).engine = t.engine := by
  induction items generalizing t with
  | nil => rfl
  | cons item items ih => rw [List.foldl_cons, ih, Turn.engine_queue]

theorem lines_foldl_queue {α : Type} (request : α → Request) (items : List α) {t : Turn}
    (ht : t.engine.Open) :
    (items.foldl (fun t item => t.queue (request item)) t).lines =
      t.lines ++ items.flatMap fun item => (request item).lines := by
  induction items generalizing t with
  | nil => simp
  | cons item items ih =>
    rw [List.foldl_cons, ih ((t.engine_queue (request item)).symm ▸ ht), Turn.lines_queue,
      lines_queue_of_open ht, List.append_assoc, List.flatMap_cons]

end Engine

end Irc
