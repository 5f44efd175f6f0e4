/-
Logging in with SASL.

Only the PLAIN mechanism is spoken.  The credentials go out as base64 of
`NUL account NUL password`, cut into payloads of at most `payloadLimit`
characters; a payload below the limit ends the response, so a response of full
payloads alone is ended by a lone `+`.
-/
import Irc.Text.Base64
import Irc.Text.Blank
import Irc.Text.Bytes

namespace Irc.Sasl

/-! ### Mechanisms -/

/-- A login mechanism that a server may offer. -/
inductive Mechanism where
  | plain
  | external
  | scramSha256
  | unknown (name : String)
deriving DecidableEq

/-- Reads a mechanism name without regard to ASCII case. -/
def Mechanism.parse (name : String) : Mechanism :=
  match Text.upper name with
  | "PLAIN" => .plain
  | "EXTERNAL" => .external
  | "SCRAM-SHA-256" => .scramSha256
  | _ => .unknown name

/-- The name of a mechanism. -/
def Mechanism.name : Mechanism → String
  | .plain => "PLAIN"
  | .external => "EXTERNAL"
  | .scramSha256 => "SCRAM-SHA-256"
  | .unknown name => name

/-- Reads a list of mechanisms between commas; blanks around names are dropped. -/
def parseMechanisms (list : String) : List Mechanism :=
  (((list.toList.splitOnP (· = ',')).map Text.trim).filter (· ≠ [])).map
    fun name => Mechanism.parse (String.ofList name)

/-! ### The response -/

/-- Characters of a full payload. -/
def payloadLimit : Nat := 400

/-- The bytes of the PLAIN response: no authorization identity, account, password. -/
def plainBytes (account password : String) : List UInt8 :=
  0 :: Text.utf8Bytes account ++ 0 :: Text.utf8Bytes password

/-- The PLAIN response in base64. -/
def encodePlain (account password : String) : String :=
  String.ofList (Text.Base64.encode (plainBytes account password))

/-- Cuts a response into payloads. -/
def payloads (response : List Char) : List (List Char) :=
  if response = [] then
    [['+']]
  else if response.length < payloadLimit then
    [response]
  else
    response.take payloadLimit :: payloads (response.drop payloadLimit)
termination_by response.length
decreasing_by
  rename_i hne _
  have := List.length_pos_iff.2 hne
  simp only [List.length_drop, payloadLimit]
  omega

/-- The payloads that log in to an account. -/
def credentials (account password : String) : List String :=
  (payloads (encodePlain account password).toList).map String.ofList

/-! ### The exchange -/

/-- How far the client is in the exchange. -/
inductive Progress where
  | idle
  | mechanismSent
  | credentialsSent
  | finished
deriving DecidableEq

/-- What the server says about a login. -/
inductive Outcome where
  | loggedIn (account : String)
  | succeeded
  | loggedOut
  | failed (code : Nat) (reason : String)
  | unavailable
deriving DecidableEq

end Irc.Sasl
