/-
Outgoing lines under construction.

A `Draft` is a command word with some parameters behind it and a byte budget
that covers the finished line with its CRLF.  Middle parameters are refused
when they could be read back as something else or do not fit; a trailing
parameter is taken as far as it fits.
-/
import Irc.Limits
import Irc.Text.Ascii
import Irc.Text.Bytes
import Irc.Text.Quoted

namespace Irc.Outgoing

/-- Why a line cannot be built. -/
inductive BuildError where
  | middleDoesNotFit (param : String) (budget : Nat)
  | invalidMiddle (param : String)
  | invalidCommand (command : String)
  | noRoomForTrailing
  | trailingTooLong (length room : Nat)
  | illegalChar (c : Char)
deriving DecidableEq

/-- The wording of a build error. -/
def BuildError.message : BuildError → String
  | .middleDoesNotFit param budget =>
    "parameter " ++ Text.quoted param ++ " does not fit in a " ++ toString budget ++ "-byte line"
  | .invalidMiddle param => "invalid middle parameter: " ++ Text.quoted param
  | .invalidCommand command => "invalid command name: " ++ Text.quoted command
  | .noRoomForTrailing => "no room left for the trailing parameter"
  | .trailingTooLong length room =>
    "trailing parameter of " ++ toString length ++ " bytes exceeds the " ++ toString room ++
      "-byte room"
  | .illegalChar c => "illegal control character: " ++ Text.quotedAlone c

/-- Command words are non-empty and made of ASCII letters and digits. -/
def isCommandWord (command : String) : Bool :=
  command ≠ "" && command.toList.all Char.isAlphanum

/-- Whether a text can stand between spaces without being taken for a trailing
parameter. -/
def isMiddle (param : String) : Bool :=
  param ≠ "" && param.toList.head? ≠ some ':' && !param.toList.contains ' '

/-- A line under construction, without its CRLF. -/
structure Draft where
  text : String
  budget : Nat
  hasTrailing : Bool
deriving DecidableEq

namespace Draft

/-- Starts a line with a command word. -/
def start (command : String) (budget : Nat) : Except BuildError Draft :=
  if isCommandWord command && command.utf8ByteSize + 2 ≤ budget then
    .ok ⟨command, budget, false⟩
  else
    .error (.invalidCommand command)

/-- Bytes that the finished line would take. -/
def expectedLength (d : Draft) : Nat := d.text.utf8ByteSize + 2

/-- Puts a middle parameter behind the line. -/
def addMiddle (d : Draft) (param : String) : Except BuildError Draft :=
  if !isMiddle param then
    .error (.invalidMiddle param)
  else
    match Text.lineBreaker? param with
    | some c => .error (.illegalChar c)
    | none =>
      if d.hasTrailing || d.budget < d.expectedLength + 1 + param.utf8ByteSize then
        .error (.middleDoesNotFit param d.budget)
      else
        .ok { d with text := d.text ++ " " ++ param }

/-- Puts middle parameters behind the line, in order. -/
def addMiddles (d : Draft) : List String → Except BuildError Draft
  | [] => .ok d
  | param :: rest =>
    match d.addMiddle param with
    | .error e => .error e
    | .ok d => d.addMiddles rest

/-- Bytes left for a trailing parameter behind its ` :` mark. -/
def trailingRoom (d : Draft) : Nat := d.budget - (d.expectedLength + 2)

/-- The line with a trailing parameter, whatever its length. -/
def withTrailing (d : Draft) (text : List Char) : Draft :=
  { d with text := d.text ++ " :" ++ String.ofList text, hasTrailing := true }

/-- Takes as much of a trailing parameter as fits, and gives back the rest.  If
nothing of it fits, the line stays and the whole text comes back. -/
def setTrailing (d : Draft) (text : String) : Draft × Option String :=
  let (front, rest) := Text.cut d.trailingRoom text.toList
  if front = [] && text ≠ "" then
    (d, some text)
  else
    (d.withTrailing front, if rest = [] then none else some (String.ofList rest))

/-- The finished line. -/
def finish (d : Draft) : String := d.text ++ "\r\n"

end Draft

end Irc.Outgoing
