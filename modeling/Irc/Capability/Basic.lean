/-
Capabilities.

Client and server agree on protocol extensions by name.  This module holds the
capabilities that the client knows, the subcommands of the negotiation and the
format of capability lists.
-/
import Irc.Sasl

namespace Irc

/-- An extension that the client can use. -/
inductive Capability where
  | sasl
  | capNotify
  | serverTime
deriving DecidableEq

/-- A capability name that the client has no definition for. -/
structure UnknownCapability where
  name : String
deriving DecidableEq

/-- The wording of the complaint. -/
def UnknownCapability.message (u : UnknownCapability) : String :=
  "unsupported capability: " ++ u.name

namespace Capability

/-- All known capabilities, in the order of requests. -/
def all : List Capability := [sasl, capNotify, serverTime]

/-- The name on the wire. -/
def name : Capability → String
  | sasl => "sasl"
  | capNotify => "cap-notify"
  | serverTime => "server-time"

/-- Finds a capability by name, without regard to ASCII case. -/
def ofName? (name : String) : Option Capability :=
  all.find? fun cap => Text.sameIgnoringCase cap.name name

/-- Whether the client wants the capability with the value that the server
gives.  Login is of use only with the PLAIN mechanism; a server that does not
list its mechanisms is trusted to have it. -/
def accepts (cap : Capability) (value : Option String) : Bool :=
  match cap, value with
  | sasl, some list => list = "" || (Sasl.parseMechanisms list).contains .plain
  | _, _ => true

/-- Reads a capability list into names and values. -/
def parseList (list : String) : List (String × Option String) :=
  (Text.words Text.isAsciiBlank list.toList).map fun item =>
    match Text.splitOnce '=' item with
    | some (name, value) => (String.ofList name, some (String.ofList value))
    | none => (String.ofList item, none)

/-- Reads a capability list without values. -/
def parseNames (list : String) : List String :=
  (Text.words Text.isAsciiBlank list.toList).map String.ofList

/-- The subcommands of a negotiation. -/
inductive Subcommand where
  | ls
  | list
  | req
  | ack
  | nak
  | fin
  | new
  | del
deriving DecidableEq

namespace Subcommand

/-- All subcommands. -/
def all : List Subcommand := [ls, list, req, ack, nak, fin, new, del]

/-- The word on the wire. -/
def word : Subcommand → String
  | ls => "LS"
  | list => "LIST"
  | req => "REQ"
  | ack => "ACK"
  | nak => "NAK"
  | fin => "END"
  | new => "NEW"
  | del => "DEL"

/-- Reads a subcommand without regard to ASCII case. -/
def parse? (text : String) : Option Subcommand := all.find? (·.word = Text.upper text)

end Subcommand

end Capability

end Irc
