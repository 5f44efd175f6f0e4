/-
The life of a connection.

A connection is in one of six states, and seven actions lead from one to the
next.  `transition` is the table: the next state, what the caller has to do
about it, and whether the session is over.  Every pair that is not in the table
is refused.
-/

namespace Irc

/-- Where a connection is in its life. -/
inductive ConnectionState where
  | disconnected
  | connecting
  | connected
  | disconnecting
  | quitting
  | reconnecting
deriving DecidableEq

/-- What can happen to a connection. -/
inductive Action where
  | connect
  | connectFail
  | connectFinish
  | disconnect
  | disconnectFinish
  | quit
  | reconnect
deriving DecidableEq

namespace ConnectionState

/-- All states. -/
def all : List ConnectionState :=
  [disconnected, connecting, connected, disconnecting, quitting, reconnecting]

/-- The name of a state in fields. -/
def label : ConnectionState → String
  | disconnected => "DISCONNECTED"
  | connecting => "CONNECTING"
  | connected => "CONNECTED"
  | disconnecting => "DISCONNECTING"
  | quitting => "QUITTING"
  | reconnecting => "RECONNECTING"

/-- The name of a state in running text. -/
def word : ConnectionState → String
  | disconnected => "Disconnected"
  | connecting => "Connecting"
  | connected => "Connected"
  | disconnecting => "Disconnecting"
  | quitting => "Quitting"
  | reconnecting => "Reconnecting"

end ConnectionState

namespace Action

/-- All actions. -/
def all : List Action :=
  [connect, connectFail, connectFinish, disconnect, disconnectFinish, quit, reconnect]

/-- The name of an action in fields. -/
def label : Action → String
  | connect => "CONNECT"
  | connectFail => "CONNECT_FAIL"
  | connectFinish => "CONNECT_FINISH"
  | disconnect => "DISCONNECT"
  | disconnectFinish => "DISCONNECT_FINISH"
  | quit => "QUIT"
  | reconnect => "RECONNECT"

/-- The name of an action in running text. -/
def word : Action → String
  | connect => "Connect"
  | connectFail => "ConnectFail"
  | connectFinish => "ConnectFinish"
  | disconnect => "Disconnect"
  | disconnectFinish => "DisconnectFinish"
  | quit => "Quit"
  | reconnect => "Reconnect"

end Action

/-- An action that the state does not allow. -/
structure IllegalTransition where
  state : ConnectionState
  action : Action
deriving DecidableEq

/-- The wording of a refusal. -/
def IllegalTransition.message (e : IllegalTransition) : String :=
  "illegal transition: " ++ e.action.word ++ " in state " ++ e.state.word

namespace Lifecycle

/-- What a transition asks of the caller. -/
inductive Duty where
  | startConnect
  | cancelConnect
  | forceCancel
  | closeSocket
  | forceClose
  | armBackoff
  | cancelBackoff
  | resetBackoff
deriving DecidableEq

/-- The name of a duty. -/
def Duty.word : Duty → String
  | .startConnect => "StartConnect"
  | .cancelConnect => "CancelConnect"
  | .forceCancel => "ForceCancel"
  | .closeSocket => "CloseSocket"
  | .forceClose => "ForceClose"
  | .armBackoff => "ArmBackoff"
  | .cancelBackoff => "CancelBackoff"
  | .resetBackoff => "ResetBackoff"

/-- The outcome of an action. -/
structure Transition where
  next : ConnectionState
  duty : Option Duty
  /-- The session is over. -/
  freed : Bool
deriving DecidableEq

/-- The lifecycle table. -/
def transition? : ConnectionState → Action → Option Transition
  | .disconnected, .connect => some ⟨.connecting, some .startConnect, false⟩
  | .disconnected, .quit => some ⟨.disconnected, none, true⟩
  | .connecting, .connectFail => some ⟨.reconnecting, some .armBackoff, false⟩
  | .connecting, .connectFinish => some ⟨.connected, some .resetBackoff, false⟩
  | .connecting, .disconnect => some ⟨.disconnecting, some .cancelConnect, false⟩
  | .connecting, .quit => some ⟨.quitting, some .cancelConnect, false⟩
  | .connected, .disconnect => some ⟨.disconnecting, some .closeSocket, false⟩
  | .connected, .quit => some ⟨.quitting, some .closeSocket, false⟩
  | .connected, .reconnect => some ⟨.connected, some .forceClose, false⟩
  | .connected, .disconnectFinish => some ⟨.reconnecting, some .armBackoff, false⟩
  | .disconnecting, .connectFail => some ⟨.disconnected, none, false⟩
  | .disconnecting, .disconnect => some ⟨.disconnecting, some .forceCancel, false⟩
  | .disconnecting, .quit => some ⟨.quitting, some .forceCancel, false⟩
  | .disconnecting, .disconnectFinish => some ⟨.disconnected, none, false⟩
  | .quitting, .connectFail => some ⟨.disconnected, none, true⟩
  | .quitting, .quit => some ⟨.quitting, some .forceCancel, false⟩
  | .quitting, .disconnectFinish => some ⟨.disconnected, none, true⟩
  | .reconnecting, .connect => some ⟨.connecting, some .startConnect, false⟩
  | .reconnecting, .disconnect => some ⟨.disconnected, some .cancelBackoff, false⟩
  | .reconnecting, .quit => some ⟨.disconnected, some .cancelBackoff, true⟩
  | _, _ => none

/-- Looks an action up, or says why it is refused. -/
def transition (state : ConnectionState) (action : Action) : Except IllegalTransition Transition :=
  match transition? state action with
  | some t => .ok t
  | none => .error ⟨state, action⟩

end Lifecycle

end Irc
