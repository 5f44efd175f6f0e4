/-
Event handlers.

A handler is called with every event and what it may look at, and answers with
a `Reaction`: it sends requests, one after the other, sees whether each was
taken, and ends with a new memory.  Sending is all that it can do to a session.
-/
import Irc.Engine.Dispatch
import Irc.Engine.Lifecycle

namespace Irc

open Outgoing

/-- The number of a session. -/
structure SessionId where
  number : Nat
deriving DecidableEq

/-- The written form of a session number. -/
def SessionId.text (id : SessionId) : String := "#" ++ toString id.number

/-- The numbers of `count` sessions made one after the other. -/
def SessionId.sequence (first : SessionId) (count : Nat) : List SessionId :=
  (List.range count).map fun i => ⟨first.number + i⟩

/-- What a handler may look at during an event. -/
structure Context where
  id : SessionId
  /-- The engine at the time of the event. -/
  engine : Engine
  /-- The tags of the message behind the event. -/
  tags : List Tag
deriving DecidableEq

namespace Context

/-- The name of the server entry. -/
def serverName (c : Context) : String := c.engine.config.name

/-- The name of the network, once known. -/
def network (c : Context) : Option String := c.engine.link.network

/-- The time stamp of the message behind the event. -/
def time? (c : Context) : Option Timestamp := Tag.time? c.tags

/-- Whether a target is a channel. -/
def isChannel (c : Context) (target : String) : Bool := c.engine.isChannel target

end Context

/-- What a handler does about an event. -/
inductive Reaction (σ : Type) where
  | done (memory : σ)
  | send (request : Request) (next : Except SendError Unit → Reaction σ)

/-- Sends requests whatever becomes of them, and keeps the memory. -/
def Reaction.sendAll {σ : Type} (memory : σ) : List Request → Reaction σ
  | [] => .done memory
  | r :: rest => .send r fun _ => sendAll memory rest

/-- An event handler with a memory of type `σ`. -/
structure Handler (σ : Type) where
  react : Event → Context → σ → Reaction σ

/-- The handler that does nothing. -/
def Handler.idle : Handler Unit := ⟨fun _ _ _ => .done ()⟩

/-- What a reaction comes to: the memory after it, the lines it put out, and
what became of each request. -/
structure Settled (σ : Type) where
  memory : σ
  lines : List String
  results : List (Except SendError Unit)

/-- Carries a reaction out.  The engine does not change under it. -/
def Reaction.settle {σ : Type} (e : Engine) : Reaction σ → Settled σ
  | .done memory => ⟨memory, [], []⟩
  | .send request next =>
    match e.linesFor request with
    | .error err =>
      let rest := settle e (next (.error err))
      { rest with results := .error err :: rest.results }
    | .ok lines =>
      let rest := settle e (next (.ok ()))
      { rest with lines := lines ++ rest.lines, results := .ok () :: rest.results }

end Irc
