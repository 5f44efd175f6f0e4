/-
Reading messages.

`Message.parse` reads one line, with or without its line end.  It first looks
for characters that no line may hold, then takes the line apart from left to
right, and last checks the limits on the pieces.

* `splitSections` takes a line apart into its raw pieces;
* `splitArgs` takes the parameters apart token by token.

An `@` or `:` with nothing behind it opens no section, and then the command
word is missed at that place.
-/
import Irc.Limits
import Irc.Message.Basic
import Irc.Text.Blank
import Irc.Text.Bytes
import Irc.Text.Quoted

namespace Irc

/-- Why a line is no message. -/
inductive ParseError where
  | empty
  | malformed (position : Nat)
  | tooManyMiddles (max got : Nat)
  | tooLong (length max : Nat)
  | illegalChar (c : Char)
deriving DecidableEq

/-- The wording of a parse error. -/
def ParseError.message : ParseError → String
  | .empty => "empty message"
  | .malformed position =>
    "parsing failed at position " ++ toString position ++ ": parsing IRC command"
  | .tooManyMiddles max got =>
    "too many parameters: " ++ toString got ++ " (max " ++ toString max ++ ")"
  | .tooLong length max =>
    "message too long: " ++ toString length ++ " bytes (max " ++ toString max ++ ")"
  | .illegalChar c => "illegal control character: " ++ Text.quotedAlone c

namespace Message

/-- The raw pieces of a line. -/
structure Sections where
  tags : Option (List Char)
  source : Option (List Char)
  command : List Char
  middles : List (List Char)
  trailing : Option (List Char)
  /-- The line from the source on, which the length limit counts. -/
  body : List Char

/-! ### Taking a line apart -/

/-- Takes a section off the front: the mark and a non-empty run up to a space. -/
def takeSection (mark : Char) (cs : List Char) : Option (List Char) × List Char :=
  match cs with
  | [] => (none, [])
  | c :: rest =>
    if c = mark && rest.takeWhile (· ≠ ' ') ≠ [] then
      (some (rest.takeWhile (· ≠ ' ')), rest.dropWhile (· ≠ ' '))
    else
      (none, c :: rest)

/-- The blanks that may follow a section. -/
def isSectionBlank (c : Char) : Bool := c = ' ' || c = '\t'

/-- Drops the blanks in front. -/
def skipBlanks (cs : List Char) : List Char := cs.dropWhile isSectionBlank

/-- Takes the parameters apart: tokens between spaces, up to a token that
starts with a colon, which takes the rest of the line. -/
def splitArgs (cs : List Char) : List (List Char) × Option (List Char) :=
  match cs with
  | [] => ([], none)
  | c :: rest =>
    if c = ' ' then
      splitArgs rest
    else if c = ':' then
      ([], some rest)
    else
      let (middles, trailing) := splitArgs (rest.dropWhile (· ≠ ' '))
      ((c :: rest.takeWhile (· ≠ ' ')) :: middles, trailing)
termination_by cs.length
decreasing_by
  · simp
  · simpa using Nat.lt_succ_of_le (List.dropWhile_sublist _).length_le

/-- Takes a line apart; an error is what is left where a command word or the
space behind it is missing. -/
def splitSections (line : List Char) : Except (List Char) Sections :=
  let (tags, rest) := takeSection '@' line
  let body := skipBlanks rest
  let (source, rest) := takeSection ':' body
  let rest := skipBlanks rest
  let command := rest.takeWhile Char.isAlphanum
  let args := rest.dropWhile Char.isAlphanum
  if command ≠ [] && (args = [] || args.head? = some ' ') then
    .ok ⟨tags, source, command, (splitArgs args).1, (splitArgs args).2, body⟩
  else
    .error args

/-! ### From pieces to a message -/

/-- The message that the pieces stand for. -/
def ofSections (s : Sections) : Message where
  tags := (s.tags.map Tag.parseSection).getD []
  source := s.source.map fun cs => Source.parse (String.ofList cs)
  command := Text.upper (String.ofList s.command)
  middles := s.middles.map String.ofList
  trailing := s.trailing.map String.ofList

/-- Checks the limits on the pieces. -/
def checkLimits (s : Sections) : Except ParseError Unit :=
  let tagBytes := Text.byteLength (s.tags.getD [])
  let bodyBytes := Text.byteLength s.body
  if tagBytes > Limits.tags then
    .error (.tooLong tagBytes Limits.tags)
  else if bodyBytes > Limits.body then
    .error (.tooLong bodyBytes Limits.body)
  else if s.middles.length > Limits.middles then
    .error (.tooManyMiddles Limits.middles s.middles.length)
  else
    .ok ()

/-- Reads the characters of a line without its line end. -/
def parseChars (line : List Char) : Except ParseError Message :=
  if line.all Text.isBlank then
    .error .empty
  else
    match line.find? Text.isLineBreaker with
    | some c => .error (.illegalChar c)
    | none =>
      match splitSections line with
      | .error left => .error (.malformed (Text.byteLength line - Text.byteLength left))
      | .ok s =>
        match checkLimits s with
        | .error e => .error e
        | .ok () => .ok (ofSections s)

/-- Reads one line, with or without its line end. -/
def parse (line : String) : Except ParseError Message :=
  parseChars (Text.trimEnd Text.isLineEnd line.toList)

end Message

end Irc
