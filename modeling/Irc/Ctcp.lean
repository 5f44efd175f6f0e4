/-
Client-to-client messages.

A PRIVMSG or NOTICE text between two `\x01` marks is a client-to-client
message: a command, and after the first space its arguments.  `frame` writes
one and `parse?` reads it; a text that lacks a mark or the command is ordinary.
-/
import Irc.Text.Ascii

namespace Irc

/-- A client-to-client message. -/
structure Ctcp where
  command : String
  params : Option String
deriving DecidableEq

namespace Ctcp

/-- The mark at both ends. -/
def mark : Char := '\x01'

/-- The text that carries a message. -/
def frame (m : Ctcp) : String :=
  let inner := match m.params with
    | none => m.command
    | some params => m.command ++ " " ++ params
  String.ofList (mark :: inner.toList ++ [mark])

/-- What stands between the marks. -/
def inner? : List Char → Option (List Char)
  | [] => none
  | c :: rest => if c = mark && rest.getLast? = some mark then some rest.dropLast else none

/-- Reads a text; `none` when it is an ordinary one. -/
def parse? (text : String) : Option Ctcp := do
  let inner ← inner? text.toList
  let (command, params) := match Text.splitOnce ' ' inner with
    | some (command, params) => (command, some (String.ofList params))
    | none => (inner, none)
  if command = [] then none else some ⟨String.ofList command, params⟩

/-- Whether the message is an action, which clients show as `/me`. -/
def isAction (m : Ctcp) : Bool := Text.sameIgnoringCase m.command "ACTION"

end Ctcp

end Irc
