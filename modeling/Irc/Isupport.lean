/-
Server features.

A server announces its features in tokens: `KEY`, `KEY=value`, or `-KEY` to
take one back.  Keys compare without regard to ASCII case, and of several
mentions the last one that is not taken back counts.
-/
import Irc.Text.Ascii
import Irc.Text.Decimal

namespace Irc

/-- One announced feature. -/
structure Feature where
  key : String
  value : Option String
  negated : Bool
deriving DecidableEq

/-- The features that a server announces, in order. -/
structure Isupport where
  features : List Feature
deriving DecidableEq

namespace Isupport

/-- Reads one token. -/
def parseToken (token : String) : Feature :=
  let (negated, body) := match token.toList with
    | '-' :: rest => (true, rest)
    | cs => (false, cs)
  match Text.splitOnce '=' body with
  | some (key, value) => ⟨String.ofList key, some (String.ofList value), negated⟩
  | none => ⟨String.ofList body, none, negated⟩

/-- Whether a parameter is a token; the closing remark of a reply holds spaces. -/
def isToken (param : String) : Bool := param ≠ "" && !param.toList.contains ' '

/-- Reads a list of tokens. -/
def ofTokens (params : List String) : Isupport := ⟨(params.filter isToken).map parseToken⟩

/-- Reads the parameters of a reply, of which the first is the client's nickname. -/
def ofReply? : List String → Option Isupport
  | [] => none
  | _ :: tokens => some (ofTokens tokens)

/-- The announcement of a feature: its value, if it has one. -/
def get? (s : Isupport) (key : String) : Option (Option String) :=
  (s.features.reverse.find? fun f => !f.negated && Text.sameIgnoringCase f.key key).map (·.value)

/-- The value of a feature. -/
def value? (s : Isupport) (key : String) : Option String := (s.get? key).join

/-- How the server compares names. -/
def caseMapping? (s : Isupport) : Option String := s.value? "CASEMAPPING"

/-- The characters that channel names start with. -/
def chantypes? (s : Isupport) : Option String := s.value? "CHANTYPES"

/-- The name of the network. -/
def network? (s : Isupport) : Option String := s.value? "NETWORK"

/-- The longest nickname. -/
def nickLength? (s : Isupport) : Option Nat := (s.value? "NICKLEN").bind Text.word?

end Isupport

end Irc
