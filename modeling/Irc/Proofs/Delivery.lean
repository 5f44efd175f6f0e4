/-
Lines on their way to the server.

The log of a client tells of every line that was queued and of every line that was handed to
the transport.  From the opening of a connection to the closing of the transport the lines
that were handed over are the first ones that were queued, in order: each was queued on this
connection, none is left out and none is handed over twice.

* **`underway`** — what has happened on a connection so far;
* **`Client.Delivering.move`** — what was queued on it is what was written and what is left;
* **`Orderly.prefix_of_split`** — so what was written comes first;
* **`Client.written_in_order`** — in every run of every client.
-/
import Irc.Proofs.Sockets

namespace Irc

/-! ### What the log tells -/

namespace Note

/-- The line that a note says was queued. -/
def queued? : Note → Option String
  | .session entry => entry.line?
  | _ => none

/-- The line that a note says was handed to the transport. -/
def written? : Note → Option String
  | .wrote line _ => some line
  | _ => none

/-- The lines that were queued. -/
def queued (notes : List Note) : List String := notes.filterMap queued?

/-- The lines that were handed to the transport. -/
def written (notes : List Note) : List String := notes.filterMap written?

@[simp] theorem queued_append (notes notes' : List Note) :
    queued (notes ++ notes') = queued notes ++ queued notes' := List.filterMap_append

@[simp] theorem written_append (notes notes' : List Note) :
    written (notes ++ notes') = written notes ++ written notes' := List.filterMap_append

@[simp] theorem queued_wrote (line : String) (failure : Option TransportError) :
    queued [.wrote line failure] = [] := rfl

@[simp] theorem written_wrote (line : String) (failure : Option TransportError) :
    written [.wrote line failure] = [line] := rfl

theorem written_session (entries : List Entry) : written (entries.map .session).reverse = [] := by
  rw [written, List.filterMap_reverse, List.filterMap_map, List.reverse_eq_nil_iff,
    List.filterMap_eq_nil_iff]
  exact fun _ _ => rfl

theorem queued_session (entries : List Entry) :
    queued (entries.map .session).reverse = (entries.filterMap Entry.line?).reverse := by
  rw [queued, List.filterMap_reverse, List.filterMap_map]
  rfl

end Note

/-- What has happened on the connection that is there, if one is, by the log so far. -/
def underway : List Note → Option (List Note)
  | [] => none
  | n :: log =>
    match n with
    | .opened => some []
    | .closed => none
    | _ => (underway log).map (· ++ [n])

theorem underway_cons {n : Note} (hopened : n ≠ .opened) (hclosed : n ≠ .closed)
    (log : List Note) : underway (n :: log) = (underway log).map (· ++ [n]) := by
  cases n with
  | opened => exact absurd rfl hopened
  | closed => exact absurd rfl hclosed
  | _ => rfl

theorem underway_session (entries : List Entry) (log : List Note) :
    underway (entries.map .session ++ log) =
      (underway log).map (· ++ (entries.map .session).reverse) := by
  induction entries with
  | nil => simp
  | cons entry entries ih =>
    rw [List.map_cons, List.cons_append, underway_cons (by simp) (by simp), ih, Option.map_map]
    simp [Function.comp_def]

/-- A connection that is there was opened, and neither opened again nor closed since. -/
theorem reverse_of_underway {log notes : List Note} (h : underway log = some notes) :
    ∃ earlier, log.reverse = earlier ++ .opened :: notes ∧ .opened ∉ notes ∧ .closed ∉ notes := by
  induction log generalizing notes with
  | nil => exact absurd h (by simp [underway])
  | cons n log ih =>
    by_cases hopened : n = .opened
    · subst hopened
      obtain rfl := Option.some_inj.mp h
      exact ⟨log.reverse, List.reverse_cons, List.not_mem_nil, List.not_mem_nil⟩
    by_cases hclosed : n = .closed
    · subst hclosed
      exact absurd h (by simp [underway])
    rw [underway_cons hopened hclosed, Option.map_eq_some_iff] at h
    obtain ⟨notes', hlog, rfl⟩ := h
    obtain ⟨earlier, heq, hopened', hclosed'⟩ := ih hlog
    refine ⟨earlier, by rw [List.reverse_cons, heq, List.append_assoc, List.cons_append], ?_, ?_⟩
    · simpa [hopened'] using Ne.symm hopened
    · simpa [hclosed'] using Ne.symm hclosed

/-! ### Logs in order -/

/-- What a note may say after a log: a connection is opened only when none is there, and a
line is handed over only on a connection, and only the first of those still to be handed over. -/
def Note.Fits (p : Prop) (log : List Note) : Note → Prop
  | .opened => underway log = none
  | .wrote line _ => p ∨ .opened ∈ log →
    ∃ notes, underway log = some notes ∧
      (Note.queued notes)[(Note.written notes).length]? = some line
  | _ => True

/-- A log of which every note fits. -/
def Orderly (p : Prop) : List Note → Prop
  | [] => True
  | n :: log => n.Fits p log ∧ Orderly p log

theorem Orderly.of_append {p : Prop} {log log' : List Note} (h : Orderly p (log ++ log')) :
    Orderly p log' := by
  induction log with
  | nil => exact h
  | cons n log ih => exact ih h.2

theorem orderly_session {p : Prop} {log : List Note} (h : Orderly p log) (entries : List Entry) :
    Orderly p (entries.map .session ++ log) := by
  induction entries with
  | nil => exact h
  | cons entry entries ih => exact ⟨trivial, ih⟩

/-- What is written while a connection lasts comes first in what is queued. -/
theorem Orderly.prefix_of_split {p : Prop} {past later : List Note}
    (h : Orderly p (later ++ .opened :: past)) (hclosed : .closed ∉ later) :
    .opened ∉ later ∧ underway (later ++ .opened :: past) = some later.reverse ∧
      Note.written later.reverse <+: Note.queued later.reverse := by
  induction later with
  | nil => exact ⟨List.not_mem_nil, rfl, List.nil_prefix⟩
  | cons n later ih =>
    rw [List.mem_cons, not_or] at hclosed
    obtain ⟨hfits, horderly⟩ := h
    obtain ⟨hopened, hunderway, hprefix⟩ := ih horderly hclosed.2
    have hn : n ≠ .opened := by
      rintro rfl
      exact absurd (hfits.symm.trans hunderway) (by simp)
    refine ⟨by simpa [hopened] using hn.symm, ?_, ?_⟩
    · rw [List.cons_append, underway_cons hn (Ne.symm hclosed.1), hunderway, List.reverse_cons]
      rfl
    rw [List.reverse_cons, Note.written_append, Note.queued_append]
    cases n with
    | wrote line failure =>
      -- the line that is handed over is the next one
      obtain ⟨notes, hnotes, hnext⟩ := hfits (.inr (by simp))
      obtain rfl := Option.some_inj.mp (hunderway.symm.trans hnotes)
      obtain ⟨rest, hrest⟩ := hprefix
      rw [← hrest, List.getElem?_append_right (Nat.le_refl _), Nat.sub_self] at hnext
      cases rest with
      | nil => exact absurd hnext (by simp)
      | cons next rest =>
        obtain rfl := Option.some_inj.mp hnext
        exact ⟨rest, by rw [← hrest]; simp⟩
    | session entry =>
      rw [show Note.written [_] = [] from rfl, List.append_nil]
      exact hprefix.trans (List.prefix_append _ _)
    | dialed host port tls =>
      rw [show Note.written [_] = [] from rfl, List.append_nil]
      exact hprefix.trans (List.prefix_append _ _)
    | opened => exact absurd rfl hn
    | closed => exact absurd rfl hclosed.1

/-! ### What is queued, written and left -/

namespace Client

variable {σ : Type} {p : Prop} {c : Client σ} {quits : Bool}

/-- What was queued on the connection that is there is what was handed over and what is left. -/
structure Delivering (p : Prop) (c : Client σ) : Prop where
  orderly : Orderly p c.log
  socket : c.socketOpen = (underway c.log).isSome
  owed : ∀ notes, underway c.log = some notes →
    Note.queued notes = Note.written notes ++ c.session.outbox

theorem underway_of_closed (h : c.Delivering p) (hsocket : c.socketOpen = false) :
    underway c.log = none := by
  rw [h.socket] at hsocket
  exact Option.not_isSome_iff_eq_none.mp (Bool.eq_false_iff.mp hsocket)

/-- What a turn adds to the connection that is there. -/
theorem underway_take (hjournal : c.session.journal = []) (t : Turn) :
    ∃ added, underway (c.take t).log = (underway c.log).map (· ++ added) ∧
      Note.written added = [] ∧ Note.queued added = (c.session.perform t).queued ∧
        c.session.queued = [] := by
  refine ⟨((c.session.perform t).journal.map Note.session).reverse, underway_session _ _,
    Note.written_session _, Note.queued_session _, ?_⟩
  rw [Session.queued, hjournal]
  rfl

theorem orderly_take (h : Orderly p c.log) (t : Turn) : Orderly p (c.take t).log :=
  orderly_session h _

theorem Delivering.take (h : c.Delivering p) (hsound : c.Sound p) {t : Turn}
    (ht : Engine.Interim quits c.session.engine t) : (c.take t).Delivering p := by
  obtain ⟨added, hunderway, hwritten, hqueued, hbefore⟩ := underway_take hsound.journal t
  refine ⟨orderly_take h.orderly t, ?_, fun notes hnotes => ?_⟩
  · rw [hunderway, Option.isSome_map]
    exact h.socket
  rw [hunderway, Option.map_eq_some_iff] at hnotes
  obtain ⟨notes, hnotes, rfl⟩ := hnotes
  -- the socket is open, so no line is dropped
  obtain ⟨hheld, hfreed⟩ := hsound.held (by rw [h.socket, hnotes]; rfl)
  obtain ⟨lines, hlines, houtbox⟩ := c.session.lines_perform (ht.held hheld hfreed).2.2
  rw [hlines, hbefore, List.nil_append] at hqueued
  have houtbox' : (c.take t).session.outbox = c.session.outbox ++ lines := houtbox
  rw [Note.queued_append, Note.written_append, hwritten, List.append_nil, hqueued, houtbox',
    h.owed notes hnotes, List.append_assoc]

/-- When the transport is closed, no connection is there. -/
theorem Delivering.of_closed {b : Client σ} (h : Orderly p b.log)
    (hsocket : b.socketOpen = false) (hunderway : underway b.log = none) : b.Delivering p where
  orderly := h
  socket := by rw [hsocket, hunderway]; rfl
  owed := fun notes hnotes => absurd (hunderway.symm.trans hnotes) (by simp)

theorem Delivering.shutdown_take (h : Orderly p c.log) (hjournal : c.session.journal = [])
    (t : Turn) : (c.shutdown.take t).Delivering p := by
  obtain ⟨added, hunderway, -⟩ := underway_take (c := c.shutdown) hjournal t
  have horderly : Orderly p c.shutdown.log := ⟨trivial, h⟩
  refine .of_closed (orderly_take horderly t) rfl ?_
  rw [hunderway]
  rfl

theorem Delivering.put (h : c.Delivering p) (hsound : c.Sound p) {line : String}
    {rest : List String} (houtbox : c.session.outbox = line :: rest) :
    (c.put line rest).Delivering p := by
  have hunderway : underway (c.put line rest).log =
      (underway c.log).map (· ++ [.wrote line c.writes.head?.join]) := rfl
  refine ⟨⟨fun hp => ?_, h.orderly⟩, ?_, fun notes hnotes => ?_⟩
  · -- without a socket there would be nothing to write
    have hsocket : c.socketOpen = true := by
      cases hs : c.socketOpen with
      | true => rfl
      | false => exact absurd (houtbox.symm.trans (hsound.spent hp hs)) (List.cons_ne_nil _ _)
    rw [h.socket] at hsocket
    obtain ⟨notes, hnotes⟩ := Option.isSome_iff_exists.mp hsocket
    refine ⟨notes, hnotes, ?_⟩
    rw [h.owed notes hnotes, houtbox]
    simp
  · rw [hunderway, Option.isSome_map]
    exact h.socket
  · rw [hunderway, Option.map_eq_some_iff] at hnotes
    obtain ⟨notes, hnotes, rfl⟩ := hnotes
    rw [Note.queued_append, Note.written_append, h.owed notes hnotes, houtbox, Note.queued_wrote,
      Note.written_wrote, List.append_nil, List.append_assoc]
    rfl

theorem Delivering.open (h : c.Delivering p) (hsound : c.Sound p) (hdialing : c.dialing = true)
    (now : Instant) :
    (c.attach.take ⟨c.session.engine.opened now, c.session.engine.openingOutputs now⟩).Delivering
      p := by
  obtain ⟨added, hunderway, hwritten, hqueued, hbefore⟩ := underway_take (c := c.attach)
    hsound.journal ⟨c.session.engine.opened now, c.session.engine.openingOutputs now⟩
  have hbegun : underway c.attach.log = some [] := rfl
  rw [hbegun, Option.map_some, List.nil_append] at hunderway
  have hnone : underway c.log = none := underway_of_closed h (hsound.apart hdialing)
  have horderly : Orderly p c.attach.log := ⟨hnone, h.orderly⟩
  refine ⟨orderly_take horderly _, ?_, fun notes hnotes => ?_⟩
  · rw [hunderway]
    rfl
  · obtain rfl := Option.some_inj.mp (hunderway.symm.trans hnotes)
    -- what is queued when the connection opens is all that is in the outbox
    obtain ⟨lines, hlines, houtbox⟩ :=
      c.attach.session.lines_opening (c.session.engine.opened now) now
    rw [hwritten, List.nil_append, hqueued]
    refine hlines.trans ?_
    rw [hbefore, List.nil_append]
    exact houtbox.symm

/-- What was queued and what was written stay accounted for with every move. -/
theorem Delivering.move {x y : Stage σ} (hmove : Move quits x y) (hsound : x.client.Sound p)
    (h : x.client.Delivering p) : y.client.Delivering p := by
  cases hmove with
  | takesUp c => exact ⟨h.orderly, h.socket, h.owed⟩
  | carries c now effect rest hcloses hrunning =>
    obtain ⟨_, _, _, heq⟩ := carryOut_eq hcloses hrunning now
    rw [heq]
    exact ⟨h.orderly, h.socket, h.owed⟩
  | passes c effect rest => exact h
  | dials c agenda hstate =>
    -- an attempt is made only where there is no connection
    have hsocket : c.socketOpen = false := hsound.socket_of_not_holds (hstate ▸ by decide)
    have hnone : underway c.log = none := underway_of_closed h hsocket
    refine .of_closed ⟨trivial, h.orderly⟩ hsocket ?_
    show (underway c.log).map _ = none
    rw [hnone]
    rfl
  | writes c agenda houtbox => exact h.put hsound houtbox
  | loses c agenda reason hdialing =>
    rw [lose_eq_take]
    exact .shutdown_take h.orderly hsound.journal _
  | opens c agenda now hdialing hstate hfreed =>
    rw [answer_dialed_eq_take hstate hfreed]
    exact h.open hsound hdialing now
  | fails c agenda reason hdialing =>
    rw [attempt_eq_take]
    exact .shutdown_take (c := { c with dialing := false }) h.orderly hsound.journal _
  | acts c agenda hdialing ht => exact h.take hsound ht
  | reads c agenda bytes hopen => exact ⟨h.orderly, h.socket, h.owed⟩
  | ticks c agenda now => exact ⟨h.orderly, h.socket, h.owed⟩
  | expires c agenda hstate hfreed =>
    rw [attempt_eq_take]
    have hbefore : Delivering p { c with reconnectAt := none } := ⟨h.orderly, h.socket, h.owed⟩
    exact hbefore.take hsound.forgetTimer (c.session.engine.interim_timerFired quits)

theorem delivering_start (s : Session σ) (writes : List (Option TransportError)) :
    (start s writes).Delivering p := .of_closed trivial rfl rfl

/-- **Lines reach the server in order, once, and on their own connection.**  In the log of
every run, what is handed to the transport between the opening of a connection and the closing
of the transport are the first of the lines that are queued in that time.  No line is handed
over elsewhere: every one is, on the connection that is there, the first that was queued on it
and not yet handed over.  A session that was used before may come with a connection and with
lines of its own; then this holds from the first connection on. -/
theorem written_in_order (s : Session σ) (writes : List (Option TransportError)) (now : Instant)
    (wakes : List (Instant × Wake)) :
    (∀ before during after,
        ((launch s writes now).run wakes).log.reverse = before ++ .opened :: (during ++ after) →
          .closed ∉ during →
            .opened ∉ during ∧ Note.written during <+: Note.queued during) ∧
      ∀ before line failure after,
        ((launch s writes now).run wakes).log.reverse = before ++ .wrote line failure :: after →
          s.engine.state ≠ .connected ∧ s.outbox = [] ∨ .opened ∈ before →
            ∃ earlier during, before = earlier ++ .opened :: during ∧ .opened ∉ during ∧
              .closed ∉ during ∧
                (Note.queued during)[(Note.written during).length]? = some line := by
  have hkept := (leads_launch s writes now wakes).keeps
    (I := fun x => x.client.Sound (s.engine.state ≠ .connected ∧ s.outbox = []) ∧
      x.client.Delivering (s.engine.state ≠ .connected ∧ s.outbox = []))
    (fun hmove h => ⟨h.1.move hmove, h.2.move hmove h.1⟩)
    ⟨sound_start _ writes rfl id, delivering_start _ writes⟩
  have horderly := hkept.2.orderly
  dsimp only at horderly
  generalize ((launch s writes now).run wakes).log = log at *
  constructor
  · intro before during after hlog hclosed
    rw [List.reverse_eq_iff] at hlog
    rw [hlog, List.reverse_append, List.reverse_cons, List.reverse_append, List.append_assoc,
      List.append_assoc, List.singleton_append] at horderly
    obtain ⟨hopened, -, hprefix⟩ := horderly.of_append.prefix_of_split (by simpa using hclosed)
    rw [List.reverse_reverse] at hprefix
    exact ⟨by simpa using hopened, hprefix⟩
  · intro before line failure after hlog hp
    rw [List.reverse_eq_iff] at hlog
    rw [hlog, List.reverse_append, List.reverse_cons, List.append_assoc,
      List.singleton_append] at horderly
    obtain ⟨hfits, -⟩ := horderly.of_append
    obtain ⟨during, hduring, hnext⟩ := hfits (hp.imp_right List.mem_reverse.mpr)
    obtain ⟨earlier, heq, hopened, hclosed⟩ := reverse_of_underway hduring
    rw [List.reverse_reverse] at heq
    exact ⟨earlier, during, heq, hopened, hclosed, hnext⟩

/-- A client that has just registered: its first connection, and the first line on it. -/
theorem written_in_order_of_registered :
    let log := ((launch (Session.start ⟨1⟩ (Config.forServer "host" 6667 "me") ⟨0⟩ Handler.idle ())
      [] ⟨0⟩).run [(⟨0⟩, .command .connect), (⟨0⟩, .dialed (.ok ()))]).log.reverse
    (∃ before during after, log = before ++ .opened :: (during ++ after) ∧ .closed ∉ during ∧
        .opened ∉ during ∧ Note.written during <+: Note.queued during) ∧
      ∃ before after, log = before ++ .wrote "CAP LS 302\r\n" none :: after ∧
        ∃ earlier during, before = earlier ++ .opened :: during ∧ .opened ∉ during ∧
          .closed ∉ during ∧
            (Note.queued during)[(Note.written during).length]? = some "CAP LS 302\r\n" := by
  intro log
  have hordered := written_in_order (Session.start ⟨1⟩ (Config.forServer "host" 6667 "me") ⟨0⟩
    Handler.idle ()) [] ⟨0⟩ [(⟨0⟩, .command .connect), (⟨0⟩, .dialed (.ok ()))]
  constructor
  · obtain ⟨during, hduring⟩ := Option.isSome_iff_exists.mp
      (show (underway log.reverse).isSome = true by decide +kernel)
    obtain ⟨before, hlog, -, hclosed⟩ := reverse_of_underway hduring
    rw [List.reverse_reverse, ← List.append_nil during] at hlog
    exact ⟨before, during, [], hlog, hclosed, hordered.1 before during [] hlog hclosed⟩
  · have hline : .wrote "CAP LS 302\r\n" none ∈ log := List.mem_of_getElem? (i := 8) rfl
    obtain ⟨before, after, hlog⟩ := List.append_of_mem hline
    exact ⟨before, after, hlog, hordered.2 before _ _ after hlog (.inl ⟨by decide, rfl⟩)⟩

end Client

end Irc
