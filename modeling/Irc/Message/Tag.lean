/-
Message tags.

A tag section is a list of `key=value` or bare `key` entries between
semicolons.  Values are written with escapes, so that no semicolon, space or
line end stands in the section; `escape` and `unescape` are the two directions.

Reading is lenient: empty entries are skipped, a value that is empty after
unescaping counts as none, a backslash before any other character is dropped,
and so is one at the end.
-/
import Irc.Text.Ascii

namespace Irc

/-- A message tag. -/
structure Tag where
  key : String
  value : Option String
deriving DecidableEq

namespace Tag

/-! ### Values -/

/-- One character of a value as it is written. -/
def escapeChar (c : Char) : List Char :=
  if c = ';' then ['\\', ':']
  else if c = ' ' then ['\\', 's']
  else if c = '\\' then ['\\', '\\']
  else if c = '\r' then ['\\', 'r']
  else if c = '\n' then ['\\', 'n']
  else [c]

/-- The written form of a value. -/
def escape (value : List Char) : List Char := value.flatMap escapeChar

/-- The character that a backslash and `c` stand for. -/
def unescapeChar (c : Char) : Char :=
  if c = ':' then ';'
  else if c = 's' then ' '
  else if c = 'r' then '\r'
  else if c = 'n' then '\n'
  else c

/-- The value that a written form stands for. -/
def unescape : List Char → List Char
  | [] => []
  | ['\\'] => []
  | '\\' :: c :: cs => unescapeChar c :: unescape cs
  | c :: cs => c :: unescape cs

/-! ### Sections -/

/-- Reads one entry of a section. -/
def parse (entry : List Char) : Tag :=
  match Text.splitOnce '=' entry with
  | none => ⟨String.ofList entry, none⟩
  | some (key, written) =>
    let value := unescape written
    ⟨String.ofList key, if value = [] then none else some (String.ofList value)⟩

/-- Reads a section without its leading mark. -/
def parseSection (cs : List Char) : List Tag := (Text.words (· = ';') cs).map parse

/-- The written form of a tag. -/
def render (tag : Tag) : List Char :=
  match tag.value with
  | none => tag.key.toList
  | some value => tag.key.toList ++ '=' :: escape value.toList

/-- The written form of a section without its leading mark. -/
def renderSection (tags : List Tag) : List Char := List.intercalate [';'] (tags.map render)

end Tag

end Irc
