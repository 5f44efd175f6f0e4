/-
What a client can ask of a server.

A `Request` is a command with its arguments as the caller gives them.
`Request.command` checks them and lays the command out in words and parameters;
a `Command` that comes out of it holds nothing that would break a line apart,
so that writing it out can only fail for its length.
-/
import Irc.Ctcp
import Irc.Outgoing.Lines

namespace Irc.Outgoing

/-- Why a request is turned down. -/
inductive RequestError where
  | missingArgument (what : String)
  | build (e : BuildError)
deriving DecidableEq

/-- The wording of a refusal. -/
def RequestError.message : RequestError → String
  | .missingArgument what => "missing argument: " ++ what
  | .build e => e.message

/-- A command laid out in words and parameters. -/
structure Command where
  verb : String
  middles : List String
  trailing : Option String
  /-- Whether a long trailing parameter may go out in several lines. -/
  splittable : Bool
deriving DecidableEq

/-- The finished lines of a command. -/
def Command.lines (c : Command) : Except BuildError (List String) :=
  if c.splittable then
    buildSplit c.verb c.middles c.trailing
  else
    match buildSingle c.verb c.middles c.trailing with
    | .error e => .error e
    | .ok line => .ok [line]

/-- A command with its arguments. -/
inductive Request where
  | raw (verb : String) (middles : List String) (trailing : Option String)
  | pass (password : String)
  | nick (nickname : String)
  | user (username realname : String)
  | join (channel : String) (key : Option String)
  | part (channel : String) (reason : Option String)
  | quit (reason : Option String)
  | topic (channel : String) (topic : Option String)
  | kick (channel nickname : String) (reason : Option String)
  | mode (target : String) (modes : List String)
  | invite (nickname channel : String)
  | names (channel : Option String)
  | whois (nickname : String)
  | list (channel : Option String)
  | away (text : Option String)
  | ping (token : String)
  | pong (token : String)
  | privmsg (target text : String)
  | notice (target text : String)
  | ctcpRequest (target command : String) (params : Option String)
  | ctcpResponse (target command : String) (params : Option String)
  | action (target text : String)
  | capLs (version : Option String)
  | capReq (capabilities : String)
  | capList
  | capEnd
  | authenticate (payload : String)
deriving DecidableEq

/-! ### Checks on arguments -/

/-- The argument must not be empty. -/
def checkPresent (value what : String) : Except RequestError Unit :=
  if value = "" then .error (.missingArgument what) else .ok ()

/-- The argument must be fit for a middle parameter. -/
def checkMiddle (value what : String) : Except RequestError String :=
  if value = "" then
    .error (.missingArgument what)
  else if !isMiddle value then
    .error (.build (.invalidMiddle value))
  else
    match Text.lineBreaker? value with
    | some c => .error (.build (.illegalChar c))
    | none => .ok value

/-- The arguments must all be fit for middle parameters. -/
def checkMiddles (what : String) : List String → Except RequestError (List String)
  | [] => .ok []
  | value :: rest => do
    let value ← checkMiddle value what
    let rest ← checkMiddles what rest
    .ok (value :: rest)

/-- The argument must be fit for a trailing parameter. -/
def checkText (value : String) : Except RequestError String :=
  match Text.lineBreaker? value with
  | some c => .error (.build (.illegalChar c))
  | none => .ok value

/-- The argument, if given, must be fit for a trailing parameter. -/
def checkText? : Option String → Except RequestError (Option String)
  | none => .ok none
  | some value => do
    let value ← checkText value
    .ok (some value)

/-! ### Laying out -/

namespace Request

/-- A command that goes out in one line. -/
def single (verb : String) (middles : List String) (trailing : Option String) : Command :=
  ⟨verb, middles, trailing, false⟩

/-- A text for a target, which may go out in several lines. -/
def talk (verb target text : String) : Except RequestError Command := do
  checkPresent text "text"
  let target ← checkMiddle target "target"
  let text ← checkText text
  .ok ⟨verb, [target], some text, true⟩

/-- A client-to-client message for a target. -/
def ctcp (verb target command : String) (params : Option String) : Except RequestError Command := do
  checkPresent command "ctcp command"
  let target ← checkMiddle target "target"
  let text ← checkText (Ctcp.frame ⟨command, params⟩)
  .ok (single verb [target] (some text))

/-- Checks a request and lays it out. -/
def command : Request → Except RequestError Command
  | raw verb middles trailing => do
    checkPresent verb "command"
    if !isCommandWord verb then
      .error (.build (.invalidCommand verb))
    let middles ← checkMiddles "parameter" middles
    let trailing ← checkText? trailing
    .ok (single (Text.upper verb) middles trailing)
  | pass password => do
    let password ← checkMiddle password "password"
    .ok (single "PASS" [password] none)
  | nick nickname => do
    let nickname ← checkMiddle nickname "nickname"
    .ok (single "NICK" [nickname] none)
  | user username realname => do
    checkPresent realname "realname"
    let username ← checkMiddle username "username"
    let realname ← checkText realname
    .ok (single "USER" [username, "0", "*"] (some realname))
  | join channel none => do
    let channel ← checkMiddle channel "channel"
    .ok (single "JOIN" [channel] none)
  | join channel (some key) => do
    let channel ← checkMiddle channel "channel"
    let key ← checkMiddle key "key"
    .ok (single "JOIN" [channel, key] none)
  | part channel reason => do
    let channel ← checkMiddle channel "channel"
    let reason ← checkText? reason
    .ok (single "PART" [channel] reason)
  | quit reason => do
    let reason ← checkText? reason
    .ok (single "QUIT" [] reason)
  | topic channel text => do
    let channel ← checkMiddle channel "channel"
    let text ← checkText? text
    .ok (single "TOPIC" [channel] text)
  | kick channel nickname reason => do
    let channel ← checkMiddle channel "channel"
    let nickname ← checkMiddle nickname "nickname"
    let reason ← checkText? reason
    .ok (single "KICK" [channel, nickname] reason)
  | mode target modes => do
    let target ← checkMiddle target "target"
    let modes ← checkMiddles "mode" modes
    .ok (single "MODE" (target :: modes) none)
  | invite nickname channel => do
    let nickname ← checkMiddle nickname "nickname"
    let channel ← checkMiddle channel "channel"
    .ok (single "INVITE" [nickname, channel] none)
  | names channel => do
    let channel ← checkMiddles "channel" channel.toList
    .ok (single "NAMES" channel none)
  | whois nickname => do
    let nickname ← checkMiddle nickname "nickname"
    .ok (single "WHOIS" [nickname] none)
  | list channel => do
    let channel ← checkMiddles "channel" channel.toList
    .ok (single "LIST" channel none)
  | away text => do
    let text ← checkText? text
    .ok (single "AWAY" [] text)
  | ping token => do
    checkPresent token "token"
    let token ← checkText token
    .ok (single "PING" [] (some token))
  | pong token => do
    let token ← checkText token
    .ok (single "PONG" [] (some token))
  | privmsg target text => talk "PRIVMSG" target text
  | notice target text => talk "NOTICE" target text
  | ctcpRequest target command params => ctcp "PRIVMSG" target command params
  | ctcpResponse target command params => ctcp "NOTICE" target command params
  | action target text => ctcp "PRIVMSG" target "ACTION" (some text)
  | capLs version => do
    let version ← checkMiddles "version" version.toList
    .ok (single "CAP" ("LS" :: version) none)
  | capReq capabilities => do
    checkPresent capabilities "capabilities"
    let capabilities ← checkText capabilities
    .ok (single "CAP" ["REQ"] (some capabilities))
  | capList => .ok (single "CAP" ["LIST"] none)
  | capEnd => .ok (single "CAP" ["END"] none)
  | authenticate payload => do
    let payload ← checkMiddle payload "payload"
    .ok (single "AUTHENTICATE" [payload] none)

end Request

end Irc.Outgoing
