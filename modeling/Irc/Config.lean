/-
Session configuration.

Where to connect, who to be and how patient to be.  `Config.validate` finds the
first fault in a fixed order: the address, the names, the login, the times.
-/
import Irc.Time.Basic

namespace Irc

/-- Whether to encrypt the connection, and whether to check the certificate. -/
structure TlsOptions where
  enabled : Bool := false
  verify : Bool := true
deriving DecidableEq

/-- How to log in to an account. -/
inductive Login where
  | anonymous
  | saslPlain (account : Option String) (password : String)
deriving DecidableEq

/-- Whether the login goes through SASL. -/
def Login.isSasl : Login → Bool
  | .anonymous => false
  | .saslPlain _ _ => true

/-- Keepalive and reconnect times. -/
structure Timing where
  pingInterval : Duration := Duration.ofParts 30 0
  pingTimeout : Duration := Duration.ofParts 60 0
  reconnectBase : Duration := Duration.ofParts 5 0
  reconnectStep : Duration := Duration.ofParts 5 0
deriving DecidableEq

/-- What a session needs to know about one server. -/
structure Config where
  name : String := ""
  host : String := ""
  port : Nat := 6667
  tls : TlsOptions := {}
  password : Option String := none
  nickname : String := ""
  alternates : List String := []
  username : String := ""
  realname : String := ""
  login : Login := .anonymous
  encoding : String := "UTF-8"
  timing : Timing := {}
deriving DecidableEq

/-- A fault in a configuration. -/
inductive ConfigError where
  | empty (field : String)
  | invalidPort
  | zeroDuration (field : String)
  | timeoutBelowInterval
deriving DecidableEq

/-- The wording of a fault. -/
def ConfigError.message : ConfigError → String
  | .empty field => field ++ " must not be empty"
  | .invalidPort => "port must be non-zero"
  | .zeroDuration field => field ++ " must be greater than zero"
  | .timeoutBelowInterval => "ping timeout must not be shorter than the ping interval"

namespace Config

/-- A plain connection to a server, with the nickname for all names. -/
def forServer (host : String) (port : Nat) (nickname : String) : Config :=
  { name := host, host := host, port := port, nickname := nickname, username := nickname,
    realname := nickname }

/-- The account and password of a SASL login; the account defaults to the nickname. -/
def saslAccount? (c : Config) : Option (String × String) :=
  match c.login with
  | .anonymous => none
  | .saslPlain account password => some (account.getD c.nickname, password)

/-- Whether a SASL login has no password. -/
def lacksPassword (c : Config) : Bool :=
  match c.login with
  | .anonymous => false
  | .saslPlain _ password => password = ""

/-- Finds the first fault. -/
def validate (c : Config) : Except ConfigError Unit :=
  if c.host = "" then .error (.empty "host")
  else if c.port = 0 then .error .invalidPort
  else if c.nickname = "" then .error (.empty "nickname")
  else if c.username = "" then .error (.empty "username")
  else if c.realname = "" then .error (.empty "realname")
  else if c.lacksPassword then .error (.empty "sasl password")
  else if c.timing.pingInterval = Duration.zero then .error (.zeroDuration "ping interval")
  else if c.timing.pingTimeout = Duration.zero then .error (.zeroDuration "ping timeout")
  else if c.timing.reconnectBase = Duration.zero then .error (.zeroDuration "reconnect base")
  else if c.timing.pingTimeout.nanos < c.timing.pingInterval.nanos then .error .timeoutBelowInterval
  else .ok ()

end Config

end Irc
