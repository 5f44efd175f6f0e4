/-
Orders to the caller.

A session does no input or output of its own.  It orders the caller to open and
close the socket and to run two timers, the reconnect timer and the keepalive.
-/
import Irc.Time.Basic

namespace Irc

/-- An order to the caller. -/
inductive Effect where
  | startConnect
  | cancelConnect
  | forceCancel
  | closeSocket
  | forceClose
  | armBackoff (delay : Duration)
  | cancelBackoff
  | resetBackoff
  | startKeepalive (period : Duration)
  | stopKeepalive
deriving DecidableEq

/-- The name of an order. -/
def Effect.word : Effect → String
  | .startConnect => "StartConnect"
  | .cancelConnect => "CancelConnect"
  | .forceCancel => "ForceCancel"
  | .closeSocket => "CloseSocket"
  | .forceClose => "ForceClose"
  | .armBackoff _ => "ArmBackoff"
  | .cancelBackoff => "CancelBackoff"
  | .resetBackoff => "ResetBackoff"
  | .startKeepalive _ => "StartKeepalive"
  | .stopKeepalive => "StopKeepalive"

end Irc
