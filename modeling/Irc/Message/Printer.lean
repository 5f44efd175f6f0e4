/-
Writing messages.

The written form has the tags behind `@`, the source behind `:`, the command
and the middle parameters with single spaces between them, and the trailing
parameter behind ` :`.  There is no line end.
-/
import Irc.Message.Basic

namespace Irc.Message

/-- The tag section with its mark and the space that ends it. -/
def renderTags (tags : List Tag) : List Char :=
  if tags = [] then [] else '@' :: Tag.renderSection tags ++ [' ']

/-- The source with its mark and the space that ends it. -/
def renderSource : Option Source → List Char
  | none => []
  | some source => ':' :: source.render.toList ++ [' ']

/-- The parameters, each behind a space. -/
def renderArgs (middles : List String) (trailing : Option String) : List Char :=
  middles.flatMap (' ' :: ·.toList) ++
    match trailing with
    | none => []
    | some text => ' ' :: ':' :: text.toList

/-- The part of the written form behind the tags. -/
def renderBody (m : Message) : List Char :=
  renderSource m.source ++ m.command.toList ++ renderArgs m.middles m.trailing

/-- The written form of a message. -/
def render (m : Message) : String := String.ofList (renderTags m.tags ++ renderBody m)

end Irc.Message
