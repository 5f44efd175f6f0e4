/-
Nickname comparison.

Nicknames and channel names compare without regard to case, where the brackets
and the tilde count as capital letters: `[`, `]`, `\` and `~` are the capitals
of `{`, `}`, `|` and `^`.  Folding replaces single ASCII characters, so it keeps
the length of a name and the place of every character.
-/

namespace Irc.CaseMapping

/-- The lower case of one character of a name. -/
def fold (c : Char) : Char :=
  if 'A' ≤ c && c ≤ 'Z' then c.toLower
  else if c = '[' then '{'
  else if c = ']' then '}'
  else if c = '\\' then '|'
  else if c = '~' then '^'
  else c

/-- The lower case of a name. -/
def lower (name : String) : String := String.ofList (name.toList.map fold)

/-- Whether two names are the same up to case.  Names of different byte length
never are. -/
def same (a b : String) : Bool :=
  a.utf8ByteSize = b.utf8ByteSize && a.toList.map fold = b.toList.map fold

end Irc.CaseMapping
