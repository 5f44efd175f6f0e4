/-
Message sources.

A message names where it comes from: a user as `nick!user@host`, or a server.
Text that is not a full user mask, with all three parts non-empty, is kept as
it is and counts as a server name.
-/
import Irc.Text.Ascii

namespace Irc

/-- Where a message comes from. -/
inductive Source where
  | server (name : String)
  | user (nick username host : String)
deriving DecidableEq

namespace Source

/-- The three parts of a full user mask. -/
def splitMask (cs : List Char) : Option (List Char × List Char × List Char) := do
  let (nick, rest) ← Text.splitOnce '!' cs
  let (username, host) ← Text.splitOnce '@' rest
  if nick = [] || username = [] || host = [] then none else some (nick, username, host)

/-- Reads a source without its leading colon. -/
def parse (text : String) : Source :=
  match splitMask text.toList with
  | some (nick, username, host) =>
    .user (String.ofList nick) (String.ofList username) (String.ofList host)
  | none => .server text

/-- The written form of a source. -/
def render : Source → String
  | .server name => name
  | .user nick username host => nick ++ "!" ++ username ++ "@" ++ host

/-- The nickname of a user or the name of a server. -/
def name : Source → String
  | .server name => name
  | .user nick _ _ => nick

/-- The nickname of a user. -/
def nick? : Source → Option String
  | .server _ => none
  | .user nick _ _ => some nick

/-- The user name of a user. -/
def user? : Source → Option String
  | .server _ => none
  | .user _ username _ => some username

/-- The host of a user. -/
def host? : Source → Option String
  | .server _ => none
  | .user _ _ host => some host

/-- Whether the source is a full user mask. -/
def isUser : Source → Bool
  | .server _ => false
  | .user _ _ _ => true

end Source

end Irc
