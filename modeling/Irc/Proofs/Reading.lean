/-
Reading on one connection.

Every connection is read from the start: when it opens, the reader has seen nothing and its
buffer is empty, and from then on reader and buffer follow from the bytes that come in, up to
the closing of the transport.

* **`Client.answer_read_eq_drainLines`** — bytes that come in are handled line by line;
* **`Client.closings_move`** — a transport is not opened again without having been closed;
* **`Client.Waiting.readsWith_wake`** — what a turn of the loop reads;
* **`Client.Waiting.reader_run`** — what a run reads on a connection.
-/
import Irc.Proofs.Framing
import Irc.Proofs.Sockets

namespace Irc

/-- The bytes that a wake brings. -/
def Wake.piece? : Wake → Option (List UInt8)
  | .read (.ok bytes) => some bytes
  | _ => none

/-- Whether a note tells that the transport was closed. -/
def Note.isClosed : Note → Bool
  | .closed => true
  | _ => false

namespace Client

variable {σ : Type} {c : Client σ} {quits : Bool} {k : Nat} {reader : Framer × List UInt8}

/-! ### Line by line -/

/-- Takes what has come in line by line: each line is handled before the next is taken off the
buffer, and once the connection is gone the rest is left where it is. -/
def drainLines (c : Client σ) (now : Instant) : Client σ :=
  match _h : c.framer.next c.buffer with
  | (none, framer, left) => { c with framer := framer, buffer := left }
  | (some frame, framer, left) =>
    let handled := { c with framer := framer, buffer := left }.act (·.handleFrame now frame)
    if handled.state = .connected then handled.drainLines now else handled
termination_by c.buffer.length
decreasing_by
  have hlt := c.framer.length_next_lt c.buffer (by simp [_h])
  rw [_h] at hlt
  exact hlt

/-- Handles frames that are already taken off the buffer, with what is left of it. -/
def handleFrames (c : Client σ) (now : Instant) (taken : List Frame × Framer × List UInt8) :
    Client σ :=
  taken.1.foldl (fun c frame => c.act (·.handleFrame now frame))
    { c with framer := taken.2.1, buffer := taken.2.2 }

/-- A line does not end the connection. -/
theorem state_handleFrame (c : Client σ) (now : Instant) (frame : Frame) :
    (c.act (·.handleFrame now frame)).state = c.state := by
  rw [act_handleFrame, state_take]
  exact congrArg Life.state (c.session.engine.life_hear now frame)

/-- On a connection it does not matter whether the lines are handled as they are taken off or
when all of them are: none ends the connection, so none is left behind. -/
theorem drainLines_eq_handleFrames (hstate : c.state = .connected) (now : Instant) :
    c.drainLines now = c.handleFrames now (c.framer.drain c.buffer) := by
  induction c using drainLines.induct now with
  | case1 c framer left hnext =>
    rw [drainLines, Framer.drain_eq_of_next_none hnext, handleFrames]
    split
    · rename_i hnext'
      cases hnext.symm.trans hnext'
      rfl
    · rename_i hnext'
      cases hnext.symm.trans hnext'
  | case2 c frame framer left hnext handled hheld ih =>
    rw [drainLines, Framer.drain_eq_of_next_some hnext]
    split
    · rename_i hnext'
      cases hnext.symm.trans hnext'
    · rename_i hnext'
      cases hnext.symm.trans hnext'
      rw [if_pos hheld, ih hheld]
      rfl
  | case3 c frame framer left hnext handled hgone =>
    exact absurd ((state_handleFrame _ now frame).trans hstate) hgone

/-- **What a client does with bytes that it waits for.**  It puts them behind those it has and
handles them line by line. -/
theorem answer_read_eq_drainLines {now : Instant} {bytes : List UInt8}
    (hw : c.awaits now (.read (.ok bytes)) = true) (hbytes : bytes ≠ []) :
    c.answer now (.read (.ok bytes)) = { c with buffer := c.buffer ++ bytes }.drainLines now := by
  have hstate : c.state = .connected := of_decide_eq_true hw
  have hanswer : c.answer now (.read (.ok bytes)) = c.takeBytes now bytes := by
    cases bytes with
    | nil => exact absurd rfl hbytes
    | cons byte bytes => rfl
  rw [hanswer, drainLines_eq_handleFrames (c := { c with buffer := c.buffer ++ bytes }) hstate now]
  rfl

/-! ### Closings -/

/-- How often the transport was closed. -/
def closings (c : Client σ) : Nat := c.log.countP Note.isClosed

@[simp] theorem closings_take (c : Client σ) (t : Turn) : (c.take t).closings = c.closings :=
  countP_log_take (fun _ => rfl) c t

@[simp] theorem closings_shutdown (c : Client σ) : c.shutdown.closings = c.closings + 1 :=
  List.countP_cons_of_pos rfl

@[simp] theorem closings_lose (c : Client σ) (reason : String) :
    (c.lose reason).closings = c.closings + 1 := by
  rw [lose_eq_take, closings_take, closings_shutdown]

/-- No move takes a closing back. -/
theorem closings_move {x y : Stage σ} (hmove : Move quits x y) (h : k ≤ x.client.closings) :
    k ≤ y.client.closings := by
  cases hmove with
  | takesUp c => exact h
  | carries c now effect rest hcloses hrunning =>
    obtain ⟨_, _, _, heq⟩ := carryOut_eq hcloses hrunning now
    rw [heq]
    exact h
  | passes c effect rest => exact h
  | dials c agenda hstate => exact h
  | writes c agenda houtbox => exact h
  | loses c agenda reason hdialing =>
    rw [closings_lose]
    exact Nat.le_succ_of_le h
  | opens c agenda now hdialing hstate hfreed =>
    rw [answer_dialed_eq_take hstate hfreed, closings_take]
    exact h
  | fails c agenda reason hdialing =>
    rw [attempt_eq_take, closings_take, closings_shutdown]
    exact Nat.le_succ_of_le h
  | acts c agenda hdialing ht =>
    rw [closings_take]
    exact h
  | reads c agenda bytes hopen => exact h
  | ticks c agenda now => exact h
  | expires c agenda hstate hfreed =>
    rw [attempt_eq_take, closings_take]
    exact h

theorem Waiting.closings_le_run (h : c.Waiting) (wakes : List (Instant × Wake)) :
    c.closings ≤ (c.run wakes).closings := by
  have hleads : Leads true ⟨c, []⟩ ⟨c.run wakes, []⟩ := h.leads_run fun _ _ _ => rfl
  exact hleads.keeps (I := fun x => c.closings ≤ x.client.closings) closings_move (Nat.le_refl _)

/-! ### What is read -/

/-- The transport was closed more than `k` times, or else it is open, and reader and buffer are
these. -/
def ReadsWith (k : Nat) (reader : Framer × List UInt8) (c : Client σ) : Prop :=
  k < c.closings ∨ c.closings = k ∧ c.socketOpen = true ∧ (c.framer, c.buffer) = reader

theorem ReadsWith.take (h : c.ReadsWith k reader) (t : Turn) : (c.take t).ReadsWith k reader := by
  rw [ReadsWith, closings_take]
  exact h

theorem ReadsWith.settle (h : c.ReadsWith k reader) (now : Instant) :
    (c.settle now).ReadsWith k reader := by
  refine settle_induction (P := ReadsWith k reader) (fun c h => h)
    (fun c effect hcloses hrunning h => ?_) (fun c line rest _ h => h) (fun c _ h => h)
    (fun c reason h => .inl ?_) h
  · obtain ⟨_, _, _, heq⟩ := carryOut_eq hcloses hrunning now
    rw [heq]
    exact h
  · rw [closings_lose]
    rcases h with hmore | ⟨hsame, -⟩ <;> omega

theorem readsWith_lose (c : Client σ) (reader : Framer × List UInt8) (reason : String) :
    (c.lose reason).ReadsWith c.closings reader := by
  refine .inl ?_
  rw [closings_lose]
  omega

theorem readsWith_takeBytes (hsocket : c.socketOpen = true) (now : Instant)
    (bytes : List UInt8) :
    (c.takeBytes now bytes).ReadsWith c.closings (c.framer.feed c.buffer bytes).2 :=
  takeBytes_induction (.inr ⟨rfl, hsocket, rfl⟩) fun _ _ hb => hb.take _

/-- Only bytes that come in are read, and they are all read. -/
theorem Waiting.readsWith_answer (h : c.Waiting) (hsound : c.Sound True)
    (hsocket : c.socketOpen = true) {now : Instant} {w : Wake} (hw : c.awaits now w = true) :
    (c.answer now w).ReadsWith c.closings (c.framer.feedAll c.buffer w.piece?.toList).2 := by
  have hstate : c.state = .connected := (h.open_of_socket hsound hsocket).1
  have hidle : c.dialing = false := h.dialing_eq_false hstate
  have hsame : c.ReadsWith c.closings (c.framer, c.buffer) := .inr ⟨rfl, hsocket, rfl⟩
  have hobey : ∀ command, (c.obey command).ReadsWith c.closings (c.framer, c.buffer) := by
    intro command
    rw [obey_of_idle hidle]
    exact hsame.take _
  cases w with
  | dialed outcome => exact absurd (hidle.symm.trans hw) Bool.false_ne_true
  | read outcome =>
    cases outcome with
    | error err => exact c.readsWith_lose _ err.message
    | ok bytes =>
      cases bytes with
      | nil => exact c.readsWith_lose _ _
      | cons byte bytes => exact readsWith_takeBytes hsocket now (byte :: bytes)
  | command command => exact hobey command
  | abandoned => exact hobey (.quit none)
  | keepalive =>
    have hticked : (c.tick now).ReadsWith c.closings (c.framer, c.buffer) := hsame
    rw [Client.answer, attempt_eq_take]
    exact hticked.take _
  | timer =>
    rw [awaits, hstate] at hw
    exact absurd hw.symm (by simp)

theorem Waiting.readsWith_wake (h : c.Waiting) (hsound : c.Sound True)
    (hsocket : c.socketOpen = true) (hrunning : c.stopped = false) (now : Instant) (w : Wake) :
    (c.wake now w).ReadsWith c.closings (c.framer.feedAll c.buffer w.piece?.toList).2 := by
  cases hw : c.awaits now w with
  | true =>
    rw [wake_of_awaited hrunning hw]
    exact (h.readsWith_answer hsound hsocket hw).settle now
  | false =>
    -- what comes in on a connection is waited for
    have hnone : w.piece? = none := by
      have hstate : c.state = .connected := (h.open_of_socket hsound hsocket).1
      cases w with
      | read outcome =>
        rw [awaits, hstate] at hw
        exact absurd hw (by decide)
      | _ => rfl
    rw [wake_of_not_awaited hw, hnone]
    exact .inr ⟨rfl, hsocket, rfl⟩

/-- As long as the transport is not closed, the reader takes in all that comes and nothing
else. -/
theorem Waiting.reader_run (h : c.Waiting) (hsound : c.Sound True) (hsocket : c.socketOpen = true)
    {later : List (Instant × Wake)} (hrunning : (c.run later).stopped = false)
    (hopen : (c.run later).closings = c.closings) :
    ((c.run later).framer, (c.run later).buffer) =
      (c.framer.feedAll c.buffer (later.filterMap fun w => w.2.piece?)).2 := by
  induction later generalizing c with
  | nil => rfl
  | cons w later ih =>
    have hread := h.readsWith_wake hsound hsocket (running_of_run hrunning) w.1 w.2
    have hle : c.closings ≤ (c.wake w.1 w.2).closings := h.closings_le_run [w]
    have hrun : c.run (w :: later) = (c.wake w.1 w.2).run later := rfl
    rw [hrun] at hrunning hopen ⊢
    have hwaiting := (h.wake w.1 w.2).resolve_left (Bool.eq_false_iff.mp (running_of_run hrunning))
    have hle' := hwaiting.closings_le_run later
    rcases hread with hmore | ⟨hsame, hsocket', hreader⟩
    · omega
    obtain ⟨hframer, hbuffer⟩ := Prod.mk.inj hreader
    rw [ih hwaiting (h.sound_wake hsound w.1 w.2) hsocket' hrunning (hopen.trans hsame.symm),
      hframer, hbuffer, List.filterMap_cons]
    cases w.2.piece? with
    | none => rfl
    | some piece => rfl

end Client

end Irc
