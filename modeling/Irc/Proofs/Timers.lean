/-
The two timers and the orders about them.

`Timers` says which timers run, and `Timers.set` what an order does to that.  An engine is in
step with the timers if keepalive runs on both sides or on none, and the reconnect timer is
set while the engine waits for it.  The orders of a turn are to keep the caller in step with
the engine, and here it is shown that they do:

* **`Engine.Response.inStep`** — when input is handled;
* **`Engine.inStep_taken`** — when an action is taken that does not lead to a wait;
* **`Engine.inStep_resetLink`** — when what was learnt on a connection is forgotten.
-/
import Irc.Proofs.Calls
import Irc.Proofs.Responses

namespace Irc

open Outgoing Lifecycle

/-! ### The orders of a turn -/

/-- The order that is put out, if it is one. -/
def Output.effect? : Output → Option Effect
  | .effect order => some order
  | _ => none

/-- The orders among the outputs of a turn. -/
def Turn.effects (t : Turn) : List Effect := t.outputs.filterMap Output.effect?

namespace Turn

@[simp] theorem effects_andThen (t : Turn) (next : Engine → Turn) :
    (t.andThen next).effects = t.effects ++ (next t.engine).effects := List.filterMap_append

end Turn

namespace Engine

@[simp] theorem effects_report (e : Engine) (event : Event) (tags : List Tag) :
    (e.report event tags).effects = [] := rfl

theorem effects_lines (e : Engine) (lines : List String) :
    (Turn.mk e (lines.map .line)).effects = [] := by
  rw [Turn.effects, List.filterMap_map, List.filterMap_eq_nil_iff]
  exact fun _ _ => rfl

@[simp] theorem effects_queue (e : Engine) (r : Request) : (e.queue r).effects = [] := by
  rw [Turn.effects, outputs_queue]
  exact e.effects_lines _

@[simp] theorem effects_resetLink (e : Engine) :
    e.resetLink.effects = if e.link.keepalive.isSome then [.stopKeepalive] else [] := by
  rw [resetLink]
  split_ifs <;> rfl

@[simp] theorem effects_taken (e : Engine) (action : Action) (t : Transition) :
    (e.taken action t).turn.effects =
      (t.duty.map (effectOf (e.backoffAfter action t.duty).current)).toList := by
  rw [Turn.effects, taken, List.filterMap_append, List.filterMap_map]
  have hdrop : (if t.freed then [Output.dropLines] else []).filterMap Output.effect? = [] := by
    split_ifs <;> rfl
  rw [hdrop, List.append_nil]
  exact List.filterMap_some

end Engine

/-- Whether an order has the socket closed. -/
def Effect.closes : Effect → Bool
  | .closeSocket | .forceClose => true
  | _ => false

/-! ### Timers -/

/-- Which timers run. -/
structure Timers where
  keepalive : Bool
  reconnect : Bool

namespace Timers

/-- What an order does to the timers. -/
def set (τ : Timers) : Effect → Timers
  | .startKeepalive _ => { τ with keepalive := true }
  | .stopKeepalive => { τ with keepalive := false }
  | .armBackoff _ => { τ with reconnect := true }
  | .cancelBackoff => { τ with reconnect := false }
  | _ => τ

/-- What orders do to the timers, one after the other. -/
def setAll (τ : Timers) (effects : List Effect) : Timers := effects.foldl set τ

variable (τ : Timers)

@[simp] theorem setAll_nil : τ.setAll [] = τ := rfl

@[simp] theorem setAll_cons (effect : Effect) (effects : List Effect) :
    τ.setAll (effect :: effects) = (τ.set effect).setAll effects := rfl

@[simp] theorem setAll_append (effects effects' : List Effect) :
    τ.setAll (effects ++ effects') = (τ.setAll effects).setAll effects' := List.foldl_append

/-- Orders keep an order between timers: what runs less before runs less after. -/
theorem setAll_keepalive_mono {τ τ' : Timers} (h : τ.keepalive = true → τ'.keepalive = true)
    (effects : List Effect) :
    (τ.setAll effects).keepalive = true → (τ'.setAll effects).keepalive = true := by
  induction effects generalizing τ τ' with
  | nil => exact h
  | cons effect effects ih =>
    refine ih (?_ : (τ.set effect).keepalive = true → (τ'.set effect).keepalive = true)
    cases effect <;> first | exact h | exact id

theorem setAll_reconnect_congr {τ τ' : Timers} (h : τ.reconnect = τ'.reconnect)
    (effects : List Effect) : (τ.setAll effects).reconnect = (τ'.setAll effects).reconnect := by
  induction effects generalizing τ τ' with
  | nil => exact h
  | cons effect effects ih =>
    refine ih (?_ : (τ.set effect).reconnect = (τ'.set effect).reconnect)
    cases effect <;> first | exact h | rfl

end Timers

namespace Engine

variable {e : Engine} {t : Turn} {τ : Timers}

/-- Keepalive runs on both sides or on none, and the reconnect timer is set while it is
waited for. -/
structure InStep (e : Engine) (τ : Timers) : Prop where
  keepalive : τ.keepalive = e.link.keepalive.isSome
  reconnect : e.state = .reconnecting → τ.reconnect = true

/-- The orders that are given when input is handled keep the caller in step. -/
theorem Response.inStep (h : Response e t) (hτ : e.InStep τ) :
    t.engine.InStep (τ.setAll t.effects) := by
  induction h generalizing τ with
  | stay e => exact hτ
  | queue e r => simpa using hτ
  | report e tags h => exact hτ
  | learn e change h => exact ⟨hτ.keepalive.trans h.symm, hτ.reconnect⟩
  | rename e nickname attempt => exact ⟨hτ.keepalive, hτ.reconnect⟩
  | welcome e nickname now period => exact ⟨rfl, hτ.reconnect⟩
  | andThen first second ih₁ ih₂ =>
    rw [Turn.effects_andThen, Timers.setAll_append]
    exact ih₂ (ih₁ hτ)

theorem keepalive_set_effectOf (τ : Timers) (wait : Duration) (duty : Option Duty) :
    (τ.setAll (duty.map (effectOf wait)).toList).keepalive = τ.keepalive := by
  cases duty with
  | none => rfl
  | some duty => cases duty <;> rfl

/-- Keepalive is left alone when an action is taken, and the reconnect timer is set if that is
what the table says. -/
theorem inStep_taken {action : Action} {row : Transition}
    (hτ : τ.keepalive = e.link.keepalive.isSome)
    (hwait : row.next = .reconnecting → row.duty = some .armBackoff) :
    (e.taken action row).turn.engine.InStep (τ.setAll (e.taken action row).turn.effects) where
  keepalive := by
    rw [effects_taken, keepalive_set_effectOf]
    exact hτ
  reconnect := by
    intro hnext
    rw [effects_taken, hwait hnext]
    rfl

/-- When what was learnt is forgotten, keepalive is stopped if it was running. -/
theorem inStep_resetLink (hkeepalive : τ.keepalive = true → e.link.keepalive.isSome = true)
    (hreconnect : e.state = .reconnecting → τ.reconnect = true) :
    e.resetLink.engine.InStep (τ.setAll e.resetLink.effects) where
  keepalive := by
    rw [effects_resetLink]
    split_ifs with hruns
    · rfl
    · exact Bool.eq_false_iff.mpr fun h => hruns (hkeepalive h)
  reconnect := by
    rw [effects_resetLink]
    split_ifs
    · exact hreconnect
    · exact hreconnect

end Engine

end Irc
