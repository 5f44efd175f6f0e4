/-
Finished outgoing lines.

`buildSplit` spreads a long trailing parameter over as many lines as it takes,
each with the same command and middle parameters in front; `buildSingle` makes
one line or fails.
-/
import Irc.Outgoing.Draft

namespace Irc.Outgoing

/-- A line with a command and its middle parameters, within the outgoing budget. -/
def draftHead (command : String) (middles : List String) : Except BuildError Draft :=
  match Draft.start command Limits.outgoing with
  | .error e => .error e
  | .ok d => d.addMiddles middles

/-- The lines of a command, a long trailing parameter split over several. -/
def buildSplit (command : String) (middles : List String) (trailing : Option String) :
    Except BuildError (List String) :=
  match draftHead command middles with
  | .error e => .error e
  | .ok d =>
    match trailing with
    | none => .ok [d.finish]
    | some text =>
      match Text.lineBreaker? text with
      | some c => .error (.illegalChar c)
      | none =>
        match Text.chunks d.trailingRoom text.toList with
        | none => .error .noRoomForTrailing
        | some pieces => .ok (pieces.map fun piece => (d.withTrailing piece).finish)

/-- The one line of a command, whose trailing parameter has to fit. -/
def buildSingle (command : String) (middles : List String) (trailing : Option String) :
    Except BuildError String :=
  match draftHead command middles with
  | .error e => .error e
  | .ok d =>
    match trailing with
    | none => .ok d.finish
    | some text =>
      match Text.lineBreaker? text with
      | some c => .error (.illegalChar c)
      | none =>
        match d.setTrailing text with
        | (full, none) => .ok full.finish
        | (_, some _) => .error (.trailingTooLong text.utf8ByteSize d.trailingRoom)

end Irc.Outgoing
