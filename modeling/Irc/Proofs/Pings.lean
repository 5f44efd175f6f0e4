/-
Answers to the server's requests for a sign of life.

On a connection the answer is queued before the handler hears of the request, and carries the
token of the request.  A received line may have a longer token than an answer has room for,
because outgoing lines leave room for the sender's name; such a request is not answered.

* **`Message.Printable.lineBreaker?_lastArg`** — a token that was read does not break a line;
* **`Engine.handleMessage_ping`** — what the engine puts out;
* **`Session.handleLine_ping`** — what a session does about a request.
-/
import Irc.Proofs.Intake
import Irc.Proofs.WellFormed
import Irc.Proofs.Wording

namespace Irc

open Outgoing Text

namespace Message

variable {m : Message}

/-- Nothing in a parameter of a printable message breaks a line. -/
theorem Printable.unbroken_of_mem_args (h : m.Printable) {p : String} (hp : p ∈ m.args) :
    ∀ c ∈ p.toList, Unbroken c := by
  intro c hc
  rcases List.mem_append.mp hp with hmiddle | htrailing
  · exact ((h.middles p hmiddle).2.2 c hc).2
  · exact h.trailing p (Option.mem_toList.mp htrailing) c hc

theorem lastArg_mem_args (h : m.args ≠ []) : m.lastArg ∈ m.args := by
  rw [lastArg, lastArg?, List.getLast?_eq_some_getLast h]
  exact List.getLast_mem h

theorem Printable.lineBreaker?_lastArg (h : m.Printable) (hargs : m.args ≠ []) :
    lineBreaker? m.lastArg = none :=
  find?_isLineBreaker_eq_none_iff.mpr (h.unbroken_of_mem_args (lastArg_mem_args hargs))

end Message

/-- What the engine puts out about a request for a sign of life. -/
theorem Engine.handleMessage_ping {e : Engine} (he : e.Open) {m : Message}
    (hcommand : m.command = "PING") (hargs : m.args ≠ []) (now : Instant) :
    e.handleMessage m now = ⟨e, (Request.pong m.lastArg).lines.map .line ++
      [.report (.ping (Actor.ofMessage m) m.lastArg) m.tags e]⟩ := by
  have hroute : Route.ofMessage m = .ping := Message.route_of_command hcommand rfl
  have hrequired : m.require (Route.ping.arity e.link.registered) = .ok () :=
    Message.require_eq_ok_iff.mpr (List.length_pos_iff.mpr hargs)
  rw [handleMessage, hroute, hrequired]
  show (e.queue (.pong m.lastArg)).report _ _ = _
  rw [Turn.report, Turn.andThen, queue_of_open he]
  rfl

namespace Session

variable {σ : Type}

/-- The answer is queued before the handler is called. -/
theorem handleLine_of_ping {s : Session σ} (hs : s.engine.Open) {line : String} {m : Message}
    (hparse : Message.parse line = .ok m) (hcommand : m.command = "PING") (hargs : m.args ≠ [])
    (now : Instant) :
    s.handleLine line now = ((Request.pong m.lastArg).lines.foldl queueLine s).callHandler
      (.ping (Actor.ofMessage m) m.lastArg) m.tags s.engine := by
  rw [handleLine, Engine.handleLine, hparse]
  show s.perform (s.engine.handleMessage m now) = _
  rw [Engine.handleMessage_ping hs hcommand hargs, perform_lines]
  rfl

/-- **What a session does about a request for a sign of life.**  On a connection the answer is
queued as the one line `PONG` with the last parameter of the request, if that line keeps to the
outgoing budget, and no line is queued otherwise; then the handler is called. -/
theorem handleLine_ping {s : Session σ} (hs : s.engine.Open) {line : String} {m : Message}
    (hparse : Message.parse line = .ok m) (hcommand : m.command = "PING") (hargs : m.args ≠ [])
    (now : Instant) :
    s.handleLine line now =
      (if (pongLine m.lastArg).utf8ByteSize ≤ Limits.outgoing then
          s.queueLine (pongLine m.lastArg) else s).callHandler
        (.ping (Actor.ofMessage m) m.lastArg) m.tags s.engine := by
  have htoken := (Message.printable_of_parse hparse).lineBreaker?_lastArg hargs
  rw [handleLine_of_ping hs hparse hcommand hargs, lines_pong htoken]
  split_ifs <;> rfl

/-- The longest token that is sent back. -/
theorem handleLine_ping_filled :
    let s : Session Unit := (start ⟨1⟩ (Config.forServer "host" 6667 "me") ⟨0⟩ .idle ()).run
      [.call .connect, .call (.connectFinished ⟨0⟩)]
    ∃ line m, Message.parse line = .ok m ∧ m.command = "PING" ∧
      (pongLine m.lastArg).utf8ByteSize = Limits.outgoing ∧
        s.handleLine line ⟨1⟩ = (s.queueLine (pongLine m.lastArg)).callHandler
          (.ping (Actor.ofMessage m) m.lastArg) m.tags s.engine := by
  intro s
  have hread : Message.parse (Message.filled 1 454).render = .ok (Message.filled 1 454) :=
    Message.parse_render_filled (by decide) (by decide) (by decide)
  have hsize : (pongLine (Message.filled 1 454).lastArg).utf8ByteSize = Limits.outgoing := by
    rw [utf8ByteSize_pongLine, Message.utf8ByteSize_lastArg_filled]
    rfl
  have hping := handleLine_ping (s := s) (by decide +kernel) hread rfl (List.cons_ne_nil _ _) ⟨1⟩
  rw [if_pos hsize.le] at hping
  exact ⟨_, _, hread, rfl, hsize, hping⟩

/-- A request whose token is a byte longer is read, and is not answered. -/
theorem unanswered_of_filled :
    let s : Session Unit := (start ⟨1⟩ (Config.forServer "host" 6667 "me") ⟨0⟩ .idle ()).run
      [.call .connect, .call (.connectFinished ⟨0⟩)]
    s.engine.Open ∧ ∃ line m, Message.parse line = .ok m ∧ m.command = "PING" ∧ m.args ≠ [] ∧
      (s.handleLine line ⟨1⟩).outbox ≠ s.outbox ++ ["PONG :" ++ m.lastArg ++ "\r\n"] := by
  intro s
  have hopen : s.engine.Open := by decide +kernel
  have hread : Message.parse (Message.filled 1 455).render = .ok (Message.filled 1 455) :=
    Message.parse_render_filled (by decide) (by decide) (by decide)
  have hargs : (Message.filled 1 455).args ≠ [] := List.cons_ne_nil _ _
  have hlines : (Request.pong (Message.filled 1 455).lastArg).lines = [] := by
    rw [lines_pong ((Message.printable_of_parse hread).lineBreaker?_lastArg hargs),
      utf8ByteSize_pongLine, Message.utf8ByteSize_lastArg_filled]
    rfl
  refine ⟨hopen, _, _, hread, rfl, hargs, fun hanswered => ?_⟩
  rw [handleLine_of_ping hopen hread rfl hargs, hlines] at hanswered
  have hkept := congrArg List.length hanswered
  rw [List.length_append] at hkept
  exact absurd hkept (Nat.ne_of_lt (Nat.lt_succ_self _))

end Session

end Irc
