/-
Numeric replies.

Servers answer with three-digit codes.  `Reply` names the codes that the client
reacts to or that user interfaces show in a special way; every other code is
handed on as a number.
-/
import Irc.Text.Decimal

namespace Irc

/-- A numeric reply with a name. -/
inductive Reply where
  | welcome
  | yourHost
  | created
  | myInfo
  | isupport
  | userModeIs
  | away
  | unaway
  | nowAway
  | whoisUser
  | endOfWhois
  | list
  | listEnd
  | channelModeIs
  | noTopic
  | topic
  | topicWhoTime
  | inviting
  | namesReply
  | endOfNames
  | motd
  | motdStart
  | endOfMotd
  | noSuchNick
  | noSuchChannel
  | cannotSendToChannel
  | unknownCommand
  | noMotd
  | noNicknameGiven
  | erroneousNickname
  | nicknameInUse
  | nickCollision
  | notOnChannel
  | notRegistered
  | needMoreParams
  | alreadyRegistered
  | passwordMismatch
  | youAreBanned
  | channelIsFull
  | inviteOnlyChannel
  | bannedFromChannel
  | badChannelKey
  | chanOpPrivsNeeded
  | loggedIn
  | loggedOut
  | nickLocked
  | saslSuccess
  | saslFail
  | saslTooLong
  | saslAborted
  | saslAlready
  | saslMechanisms
deriving DecidableEq

namespace Reply

/-- All named replies. -/
def all : List Reply :=
  [.welcome, .yourHost, .created, .myInfo, .isupport, .userModeIs, .away, .unaway, .nowAway,
    .whoisUser, .endOfWhois, .list, .listEnd, .channelModeIs, .noTopic, .topic, .topicWhoTime,
    .inviting, .namesReply, .endOfNames, .motd, .motdStart, .endOfMotd, .noSuchNick, .noSuchChannel,
    .cannotSendToChannel, .unknownCommand, .noMotd, .noNicknameGiven, .erroneousNickname,
    .nicknameInUse, .nickCollision, .notOnChannel, .notRegistered, .needMoreParams,
    .alreadyRegistered, .passwordMismatch, .youAreBanned, .channelIsFull, .inviteOnlyChannel,
    .bannedFromChannel, .badChannelKey, .chanOpPrivsNeeded, .loggedIn, .loggedOut, .nickLocked,
    .saslSuccess, .saslFail, .saslTooLong, .saslAborted, .saslAlready, .saslMechanisms]

/-- The code of a reply. -/
def code : Reply → Nat
  | .welcome => 1
  | .yourHost => 2
  | .created => 3
  | .myInfo => 4
  | .isupport => 5
  | .userModeIs => 221
  | .away => 301
  | .unaway => 305
  | .nowAway => 306
  | .whoisUser => 311
  | .endOfWhois => 318
  | .list => 322
  | .listEnd => 323
  | .channelModeIs => 324
  | .noTopic => 331
  | .topic => 332
  | .topicWhoTime => 333
  | .inviting => 341
  | .namesReply => 353
  | .endOfNames => 366
  | .motd => 372
  | .motdStart => 375
  | .endOfMotd => 376
  | .noSuchNick => 401
  | .noSuchChannel => 403
  | .cannotSendToChannel => 404
  | .unknownCommand => 421
  | .noMotd => 422
  | .noNicknameGiven => 431
  | .erroneousNickname => 432
  | .nicknameInUse => 433
  | .nickCollision => 436
  | .notOnChannel => 442
  | .notRegistered => 451
  | .needMoreParams => 461
  | .alreadyRegistered => 462
  | .passwordMismatch => 464
  | .youAreBanned => 465
  | .channelIsFull => 471
  | .inviteOnlyChannel => 473
  | .bannedFromChannel => 474
  | .badChannelKey => 475
  | .chanOpPrivsNeeded => 482
  | .loggedIn => 900
  | .loggedOut => 901
  | .nickLocked => 902
  | .saslSuccess => 903
  | .saslFail => 904
  | .saslTooLong => 905
  | .saslAborted => 906
  | .saslAlready => 907
  | .saslMechanisms => 908

/-- The name of a reply in protocol documents. -/
def name : Reply → String
  | .welcome => "RPL_WELCOME"
  | .yourHost => "RPL_YOURHOST"
  | .created => "RPL_CREATED"
  | .myInfo => "RPL_MYINFO"
  | .isupport => "RPL_ISUPPORT"
  | .userModeIs => "RPL_UMODEIS"
  | .away => "RPL_AWAY"
  | .unaway => "RPL_UNAWAY"
  | .nowAway => "RPL_NOWAWAY"
  | .whoisUser => "RPL_WHOISUSER"
  | .endOfWhois => "RPL_ENDOFWHOIS"
  | .list => "RPL_LIST"
  | .listEnd => "RPL_LISTEND"
  | .channelModeIs => "RPL_CHANNELMODEIS"
  | .noTopic => "RPL_NOTOPIC"
  | .topic => "RPL_TOPIC"
  | .topicWhoTime => "RPL_TOPICWHOTIME"
  | .inviting => "RPL_INVITING"
  | .namesReply => "RPL_NAMREPLY"
  | .endOfNames => "RPL_ENDOFNAMES"
  | .motd => "RPL_MOTD"
  | .motdStart => "RPL_MOTDSTART"
  | .endOfMotd => "RPL_ENDOFMOTD"
  | .noSuchNick => "ERR_NOSUCHNICK"
  | .noSuchChannel => "ERR_NOSUCHCHANNEL"
  | .cannotSendToChannel => "ERR_CANNOTSENDTOCHAN"
  | .unknownCommand => "ERR_UNKNOWNCOMMAND"
  | .noMotd => "ERR_NOMOTD"
  | .noNicknameGiven => "ERR_NONICKNAMEGIVEN"
  | .erroneousNickname => "ERR_ERRONEUSNICKNAME"
  | .nicknameInUse => "ERR_NICKNAMEINUSE"
  | .nickCollision => "ERR_NICKCOLLISION"
  | .notOnChannel => "ERR_NOTONCHANNEL"
  | .notRegistered => "ERR_NOTREGISTERED"
  | .needMoreParams => "ERR_NEEDMOREPARAMS"
  | .alreadyRegistered => "ERR_ALREADYREGISTERED"
  | .passwordMismatch => "ERR_PASSWDMISMATCH"
  | .youAreBanned => "ERR_YOUREBANNEDCREEP"
  | .channelIsFull => "ERR_CHANNELISFULL"
  | .inviteOnlyChannel => "ERR_INVITEONLYCHAN"
  | .bannedFromChannel => "ERR_BANNEDFROMCHAN"
  | .badChannelKey => "ERR_BADCHANNELKEY"
  | .chanOpPrivsNeeded => "ERR_CHANOPRIVSNEEDED"
  | .loggedIn => "RPL_LOGGEDIN"
  | .loggedOut => "RPL_LOGGEDOUT"
  | .nickLocked => "ERR_NICKLOCKED"
  | .saslSuccess => "RPL_SASLSUCCESS"
  | .saslFail => "ERR_SASLFAIL"
  | .saslTooLong => "ERR_SASLTOOLONG"
  | .saslAborted => "ERR_SASLABORTED"
  | .saslAlready => "ERR_SASLALREADY"
  | .saslMechanisms => "RPL_SASLMECHS"

/-- The reply with a code. -/
def ofCode? (code : Nat) : Option Reply := all.find? (·.code = code)

/-- Whether a reply reports an error. -/
def isError (r : Reply) : Bool := 400 ≤ r.code && r.code < 600

end Reply

/-- The written form of a code, with three places at least. -/
def renderCode (code : Nat) : String := Text.padded 3 code

end Irc
