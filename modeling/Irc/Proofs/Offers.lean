/-
Capability lists that come in several lines.

A server may spread the list of its capabilities over several lines, all but the last of them
marked with a star.  A marked line is only noted: the client waits for the last one to decide
what to ask for and whether the negotiation ends.  So it makes no difference where a list is
cut.

* **`Capability.parseList_intercalate`** — a list reads the same in one line and in several;
* **`Engine.noteOffers_intercalate`** — so its offers are noted one line after the other;
* **`Engine.turn_continued`**, **`Engine.turn_final`** — what a line of a list comes to;
* **`Session.run_continued`** — marked lines are noted, and nothing is queued;
* **`Session.operate_final_of_split`** — a list in several lines comes to what it comes to in
  one.
-/
import Irc.Proofs.Influence
import Irc.Proofs.Text

namespace Irc

open Outgoing Capability

/-! ### Lists and their lines -/

/-- A list reads the same in one line and in several. -/
theorem Capability.parseList_intercalate (lists : List String) :
    parseList (String.intercalate " " lists) = lists.flatMap parseList := by
  induction lists with
  | nil => rfl
  | cons list lists ih =>
    cases lists with
    | nil => rw [String.intercalate_singleton, List.flatMap_singleton]
    | cons next lists =>
      have hjoined : (String.intercalate " " (list :: next :: lists)).toList =
          list.toList ++ ' ' :: (String.intercalate " " (next :: lists)).toList := by
        rw [String.intercalate_cons_cons, String.toList_append, String.toList_append,
          List.append_assoc]
        rfl
      rw [List.flatMap_cons, ← ih, parseList, hjoined, Text.words_append_sep (by decide),
        List.map_append]
      rfl

/-- A line of a list of offers: the list that it brings, and what comes with it. -/
structure OfferLine where
  tags : List Tag
  source : Option Source
  target : String
  list : String
  now : Instant

namespace OfferLine

/-- The message of a line, which is marked when there is more to follow. -/
def message (p : OfferLine) (more : Bool) : Message where
  tags := p.tags
  source := p.source
  command := "CAP"
  middles := [p.target, "LS"] ++ if more then ["*"] else []
  trailing := some p.list

/-- A line is handled. -/
def operation (p : OfferLine) (more : Bool) : Operation := .message (p.message more) p.now

/-- A line with more to follow is handled. -/
def continued (p : OfferLine) : Operation := p.operation true

/-- A line that ends a list is handled. -/
def final (p : OfferLine) : Operation := p.operation false

end OfferLine

/-- Notes one offer of a list; an unknown capability is ignored. -/
def Registry.noteOffer (r : Registry) (offer : String × Option String) : Registry :=
  match r.offer offer.1 offer.2 with
  | .ok (_, after) => after
  | .error _ => r

namespace Engine

/-- The offers of a list are noted. -/
def noting (e : Engine) (list : String) : Engine := { e with link := noteOffers list e.link }

/-- What follows the last line of a list: the client asks for what is queued, or ends the
negotiation if nothing is. -/
def decideOffers (e : Engine) : Turn :=
  if e.link.caps.pending = [] then e.endNegotiation else e.requestPending

/-! ### What is noted -/

theorem noteOffers_eq (list : String) (l : Link) :
    noteOffers list l = { l with caps := (parseList list).foldl Registry.noteOffer l.caps } := rfl

/-- The offers of a list are noted one line after the other. -/
theorem noteOffers_intercalate (lists : List String) (l : Link) :
    noteOffers (String.intercalate " " lists) l =
      lists.foldl (fun l list => noteOffers list l) l := by
  rw [noteOffers_eq, parseList_intercalate]
  induction lists generalizing l with
  | nil => rfl
  | cons list lists ih =>
    rw [List.flatMap_cons, List.foldl_append, List.foldl_cons, ← ih, noteOffers_eq]

theorem noting_intercalate (lists : List String) (e : Engine) :
    e.noting (String.intercalate " " lists) = lists.foldl noting e := by
  rw [noting, noteOffers_intercalate]
  induction lists generalizing e with
  | nil => rfl
  | cons list lists ih => exact ih (e.noting list)

/-! ### What a line comes to -/

/-- A line of a list is a capability message. -/
theorem turn_offers (e : Engine) (p : OfferLine) (more : Bool) :
    e.turn (p.operation more) = e.capability (p.message more) := by
  have hroute : Route.ofMessage (p.message more) = .cap := Message.route_of_command rfl rfl
  show e.handleMessage (p.message more) p.now = _
  rw [handleMessage, hroute]
  cases more <;> rfl

theorem subcommand_offers (p : OfferLine) (more : Bool) :
    Subcommand.parse? ((p.message more).arg 1) = some .ls :=
  show Subcommand.parse? "LS" = some .ls by decide

/-- A line with more to follow is noted and reported, and nothing is said about it. -/
theorem turn_continued (e : Engine) (p : OfferLine) :
    e.turn p.continued =
      (e.stay.learn (noteOffers p.list)).report (.capability .ls p.list true) p.tags := by
  rw [OfferLine.continued, turn_offers, capability, subcommand_offers]
  rfl

/-- What the client decides after the last line depends on what was noted, and not on the line
that told it. -/
theorem turn_final (e : Engine) (p : OfferLine) :
    (e.turn p.final).engine = (e.noting p.list).decideOffers.engine ∧
      (e.turn p.final).lines = (e.noting p.list).decideOffers.lines := by
  have hnoted : (e.stay.learn (noteOffers p.list)).engine = e.noting p.list := rfl
  have hturn : e.turn p.final =
      let told := ((e.stay.learn (noteOffers p.list)).andThen requestPending).report
        (.capability .ls p.list false) p.tags
      if decide ((e.noting p.list).link.caps.pending = []) then told.andThen endNegotiation
      else told := by
    rw [OfferLine.final, turn_offers, capability, subcommand_offers]
    rfl
  rw [hturn, decideOffers]
  by_cases hpending : (e.noting p.list).link.caps.pending = []
  · -- there is nothing to ask for
    have hrequest : (e.noting p.list).requestPending = (e.noting p.list).stay := by
      rw [requestPending, Registry.takeRequest, if_pos hpending]
    dsimp only
    rw [if_pos (decide_eq_true hpending), if_pos hpending]
    constructor
    · rw [Turn.engine_andThen, Turn.engine_report, Turn.engine_andThen, hnoted, hrequest,
        engine_stay]
    · rw [Turn.lines_andThen, Turn.lines_report, Turn.engine_report, Turn.lines_andThen,
        Turn.engine_andThen, hnoted, hrequest, engine_stay, lines_stay, Turn.lines_learn,
        lines_stay, List.nil_append, List.nil_append]
  · dsimp only
    rw [if_neg (by simpa using hpending), if_neg hpending]
    constructor
    · rw [Turn.engine_report, Turn.engine_andThen, hnoted]
    · rw [Turn.lines_report, Turn.lines_andThen, hnoted, Turn.lines_learn, lines_stay,
        List.nil_append]

/-- A line of a list is merely remarked on. -/
theorem remark_offers (e : Engine) (p : OfferLine) (more : Bool) :
    Remark e (e.turn (p.operation more)) := by
  rw [turn_offers]
  exact e.remark_capability _

end Engine

namespace Session

variable {σ : Type} {s : Session σ}

/-- What a line of a list does to a session with a silent handler. -/
theorem operate_offers (hs : s.handler.Silent) (p : OfferLine) (more : Bool) :
    let op := p.operation more
    (s.operate op).engine = (s.engine.turn op).engine ∧
      (s.operate op).outbox = s.outbox ++ (s.engine.turn op).lines ∧
      (s.operate op).queued = s.queued ++ (s.engine.turn op).lines ∧
      (s.operate op).effects = s.effects ∧ (s.operate op).handler.Silent := by
  intro op
  have hturn : s.operate op = s.perform (s.engine.turn op) := s.operate_eq_perform rfl
  have hremark := s.engine.remark_offers p more
  have hdrop : Output.dropLines ∉ (s.engine.turn op).outputs :=
    fun hmem => hremark.response.heard _ hmem
  refine ⟨s.engine_operate op, ?_, ?_, ?_, (s.frame_operate op).2.symm ▸ hs⟩
  · rw [hturn, outbox_perform hs hdrop]
  · rw [hturn, queued_perform hs]
  · rw [hturn, effects_perform, hremark.effects, List.append_nil]

/-- A line with more to follow is noted, and nothing is queued. -/
theorem operate_continued (hs : s.handler.Silent) (p : OfferLine) :
    (s.operate p.continued).engine = s.engine.noting p.list ∧
      (s.operate p.continued).outbox = s.outbox ∧ (s.operate p.continued).queued = s.queued ∧
      (s.operate p.continued).effects = s.effects ∧
      (s.operate p.continued).handler.Silent := by
  have hlines : (s.engine.turn p.continued).lines = [] := by
    rw [Engine.turn_continued, Turn.lines_report, Turn.lines_learn, Engine.lines_stay]
  obtain ⟨hengine, houtbox, hqueued, heffects, hsilent⟩ := operate_offers hs p true
  rw [← OfferLine.continued, Engine.turn_continued] at hengine
  rw [← OfferLine.continued, hlines, List.append_nil] at houtbox hqueued
  exact ⟨hengine, houtbox, hqueued, heffects, hsilent⟩

/-- The last line of a list is noted, and what the client decides is queued. -/
theorem operate_final (hs : s.handler.Silent) (p : OfferLine) :
    let decided := (s.engine.noting p.list).decideOffers
    (s.operate p.final).engine = decided.engine ∧
      (s.operate p.final).outbox = s.outbox ++ decided.lines ∧
      (s.operate p.final).queued = s.queued ++ decided.lines ∧
      (s.operate p.final).effects = s.effects := by
  intro decided
  obtain ⟨hturn, hlines⟩ := s.engine.turn_final p
  obtain ⟨hengine, houtbox, hqueued, heffects, -⟩ := operate_offers hs p false
  rw [← OfferLine.final, hturn] at hengine
  rw [← OfferLine.final, hlines] at houtbox hqueued
  exact ⟨hengine, houtbox, hqueued, heffects⟩

/-- Lines with more to follow are noted, and nothing is queued. -/
theorem run_continued (hs : s.handler.Silent) (pages : List OfferLine) :
    (s.run (pages.map OfferLine.continued)).engine =
        (pages.map OfferLine.list).foldl Engine.noting s.engine ∧
      (s.run (pages.map OfferLine.continued)).outbox = s.outbox ∧
      (s.run (pages.map OfferLine.continued)).queued = s.queued ∧
      (s.run (pages.map OfferLine.continued)).effects = s.effects ∧
      (s.run (pages.map OfferLine.continued)).handler.Silent := by
  induction pages generalizing s with
  | nil => exact ⟨rfl, rfl, rfl, rfl, hs⟩
  | cons p pages ih =>
    obtain ⟨hengine, houtbox, hqueued, heffects, hsilent⟩ := operate_continued hs p
    obtain ⟨hengine', houtbox', hqueued', heffects', hsilent'⟩ := ih hsilent
    rw [hengine] at hengine'
    exact ⟨hengine', houtbox'.trans houtbox, hqueued'.trans hqueued, heffects'.trans heffects,
      hsilent'⟩

/-- **A list in several lines comes to what it comes to in one.**  A list of offers is cut into
any number of lines, all but the last of which are marked.  As long as marked lines come,
nothing is queued; after the last line the engine, with all that was learnt on the connection,
and what is queued are the same as after one line with all the lists in it. -/
theorem operate_final_of_split (hs : s.handler.Silent) (pages : List OfferLine)
    (last whole : OfferLine) :
    let split := s.run (pages.map OfferLine.continued)
    let joined : OfferLine :=
      { whole with list := String.intercalate " " (pages.map OfferLine.list ++ [last.list]) }
    (split.outbox = s.outbox ∧ split.queued = s.queued ∧ split.effects = s.effects) ∧
      (split.operate last.final).engine = (s.operate joined.final).engine ∧
      (split.operate last.final).outbox = (s.operate joined.final).outbox ∧
      (split.operate last.final).queued = (s.operate joined.final).queued ∧
      (split.operate last.final).effects = (s.operate joined.final).effects := by
  intro split joined
  obtain ⟨hengine, houtbox, hqueued, heffects, hsilent⟩ := run_continued hs pages
  have hnoted : split.engine.noting last.list = s.engine.noting joined.list := by
    rw [Engine.noting_intercalate, List.foldl_append]
    exact congrArg (Engine.noting · last.list) hengine
  obtain ⟨hengine₁, houtbox₁, hqueued₁, heffects₁⟩ := operate_final (s := split) hsilent last
  obtain ⟨hengine₂, houtbox₂, hqueued₂, heffects₂⟩ := operate_final hs joined
  rw [hnoted] at hengine₁ houtbox₁ hqueued₁
  rw [houtbox] at houtbox₁
  rw [hqueued] at hqueued₁
  exact ⟨⟨houtbox, hqueued, heffects⟩, hengine₁.trans hengine₂.symm,
    houtbox₁.trans houtbox₂.symm, hqueued₁.trans hqueued₂.symm,
    heffects₁.trans (heffects.trans heffects₂.symm)⟩

/-- A list in three lines, in which login is offered with three values. -/
theorem operate_final_of_three_lines :
    let s : Session Unit := (start ⟨1⟩ (Config.forServer "host" 6667 "me") ⟨0⟩ .idle ()).run
      [.call .connect, .call (.connectFinished ⟨0⟩)]
    let line (list : String) : OfferLine := ⟨[], none, "*", list, ⟨1⟩⟩
    let split := s.run
      [(line "sasl=EXTERNAL").continued, (line "server-time other sasl").continued]
    s.engine.Open ∧ split.outbox = s.outbox ∧
      (split.operate (line "sasl=PLAIN,EXTERNAL").final).engine =
        (s.operate
          (line "sasl=EXTERNAL server-time other sasl sasl=PLAIN,EXTERNAL").final).engine ∧
      (split.operate (line "sasl=PLAIN,EXTERNAL").final).outbox =
        s.outbox ++ ["CAP REQ :server-time sasl\r\n"] := by
  intro s line split
  have hidle : Handler.idle.Silent := fun _ _ _ => ⟨(), rfl⟩
  obtain ⟨⟨houtbox, -, -⟩, hengine, hsame, -, -⟩ := operate_final_of_split (s := s) hidle
    [line "sasl=EXTERNAL", line "server-time other sasl"] (line "sasl=PLAIN,EXTERNAL") (line "")
  refine ⟨by decide +kernel, houtbox, hengine, hsame.trans ?_⟩
  decide +kernel

end Session

end Irc
