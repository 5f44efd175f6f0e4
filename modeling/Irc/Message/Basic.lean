/-
Messages.

A message has tags, a source, a command word and parameters.  The middle
parameters and the trailing one are kept apart, so that a message can be
written back as it came; `arg?` and its relatives number them as one list, the
trailing parameter last.
-/
import Irc.Message.Tag
import Irc.Message.Source
import Irc.Time.Timestamp

namespace Irc

/-- A message of the line protocol. -/
structure Message where
  tags : List Tag := []
  source : Option Source := none
  command : String
  middles : List String := []
  trailing : Option String := none
deriving DecidableEq

/-- A message with fewer parameters than its command needs. -/
structure MissingParameters where
  command : String
  expected : Nat
  got : Nat
deriving DecidableEq

/-- The wording of the complaint. -/
def MissingParameters.message (m : MissingParameters) : String :=
  m.command ++ ": expected at least " ++ toString m.expected ++ " parameters, got " ++
    toString m.got

namespace Tag

/-- The point in time that the `time` tag of a message gives. -/
def time? (tags : List Tag) : Option Timestamp := do
  let tag ← tags.find? (·.key = "time")
  let value ← tag.value
  Timestamp.parse? value

end Tag

namespace Message

/-! ### Parameters -/

/-- All parameters in order. -/
def args (m : Message) : List String := m.middles ++ m.trailing.toList

/-- The number of parameters. -/
def argCount (m : Message) : Nat := m.args.length

/-- Parameter `i`. -/
def arg? (m : Message) (i : Nat) : Option String := m.args[i]?

/-- Parameter `i`, empty when absent. -/
def arg (m : Message) (i : Nat) : String := (m.arg? i).getD ""

/-- The last parameter. -/
def lastArg? (m : Message) : Option String := m.args.getLast?

/-- The last parameter, empty when there is none. -/
def lastArg (m : Message) : String := m.lastArg?.getD ""

/-- The parameters from number `i` on. -/
def argsFrom (m : Message) (i : Nat) : List String := m.args.drop i

/-- Demands at least `n` parameters. -/
def require (m : Message) (n : Nat) : Except MissingParameters Unit :=
  if m.argCount < n then .error ⟨m.command, n, m.argCount⟩ else .ok ()

/-! ### Command, source and tags -/

/-- The code of a numeric reply, whose command is three digits. -/
def numeric? (m : Message) : Option Nat :=
  let cs := m.command.toList
  if cs.length = 3 && cs.all Char.isDigit then some (Nat.ofDigitChars 10 cs 0) else none

/-- The name of the source: a nickname or a server name. -/
def sourceName? (m : Message) : Option String := m.source.map Source.name

/-- The nickname, when the source is a full user mask. -/
def nick? (m : Message) : Option String := m.source.bind Source.nick?

/-- The user name, when the source is a full user mask. -/
def user? (m : Message) : Option String := m.source.bind Source.user?

/-- The host, when the source is a full user mask. -/
def host? (m : Message) : Option String := m.source.bind Source.host?

/-- The value of a tag; a tag without a value gives the empty text. -/
def tag? (m : Message) (key : String) : Option String :=
  (m.tags.find? (·.key = key)).map (·.value.getD "")

/-- The time stamp that the server put on the message. -/
def time? (m : Message) : Option Timestamp := Tag.time? m.tags

end Message

end Irc
