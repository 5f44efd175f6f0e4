/-
Byte transports.

A transport carries bytes between a client and its server.  `Network` is what a
network says to whatever is asked of it at some moment, and a `TcpTransport` is a
transport over TCP: it holds one stream at most, and passes on what the network
says to it.  Connecting and closing are all that changes it:

* **`TcpTransport.dial`** is the way to a stream, which is encrypted if asked for;
* **`TcpTransport.use`** is the transport after it was used.
-/
import Irc.Config
import Irc.Text.Quoted

namespace Irc

/-- Why a transport fails. -/
inductive TransportError where
  | io (cause : String)
  | invalidServerName (host : String)
  | tls (cause : String)
  | notConnected
  | closed
deriving DecidableEq

/-- The wording of a transport error. -/
def TransportError.message : TransportError → String
  | .io cause => "io error: " ++ cause
  | .invalidServerName host => "invalid server name for TLS: " ++ host
  | .tls cause => "tls error: " ++ cause
  | .notConnected => "transport is not connected"
  | .closed => "connection closed by peer"

/-- What a network says to what is asked of it.  If nothing else is known, all goes well and there
is nothing to read. -/
structure Network where
  /-- A socket to a host and port. -/
  socket : String → Nat → Except String Unit := fun _ _ => .ok ()
  /-- Whether a certificate can be for a host of this name. -/
  isServerName : String → Bool := fun _ => true
  /-- The TLS handshake with a host, whose certificate is checked or not. -/
  handshake : String → Bool → Except String Unit := fun _ _ => .ok ()
  send : List UInt8 → Except String Unit := fun _ => .ok ()
  flush : Except String Unit := .ok ()
  receive : Except String (List UInt8) := .ok []
  shutdown : Except String Unit := .ok ()

/-- A stream that is open. -/
inductive TcpStream where
  | plain
  | tls
deriving DecidableEq

/-- The stream that a client is after. -/
def TlsOptions.stream (options : TlsOptions) : TcpStream := if options.enabled then .tls else .plain

/-- A transport over TCP, and the stream that it holds while it is connected. -/
structure TcpTransport where
  stream : Option TcpStream
deriving DecidableEq

/-- What is asked of a transport. -/
inductive TransportUse where
  | connect (host : String) (port : Nat) (tls : TlsOptions)
  | write (bytes : List UInt8)
  | read
  | close

namespace TcpTransport

/-- A transport that was never connected. -/
def unconnected : TcpTransport := ⟨none⟩

/-- The name of the stream that a transport holds. -/
def streamName (t : TcpTransport) : String :=
  match t.stream with
  | none => "closed"
  | some .plain => "plain"
  | some .tls => "tls"

/-- Whether a stream is open. -/
def isConnected (t : TcpTransport) : Bool := t.stream.isSome

/-- A short description of a transport. -/
def describe (t : TcpTransport) : String :=
  "TcpTransport \x7b stream: " ++ Text.quoted t.streamName ++ " \x7d"

/-- The way to a stream: a socket, and on top of it a TLS session if one is asked for. -/
def dial (network : Network) (host : String) (port : Nat) (tls : TlsOptions) :
    Except TransportError TcpStream :=
  match network.socket host port with
  | .error cause => .error (.io cause)
  | .ok () =>
    if !tls.enabled then
      .ok .plain
    else if !network.isServerName host then
      .error (.invalidServerName host)
    else
      match network.handshake host tls.verify with
      | .error cause => .error (.tls cause)
      | .ok () => .ok .tls

/-- Writing needs a stream, and an encrypted one is flushed. -/
def write (t : TcpTransport) (bytes : List UInt8) (network : Network := {}) :
    Except TransportError Unit :=
  match t.stream with
  | none => .error .notConnected
  | some .plain => (network.send bytes).mapError .io
  | some .tls => (network.send bytes >>= fun _ => network.flush).mapError .io

/-- Reading needs a stream. -/
def read (t : TcpTransport) (network : Network := {}) : Except TransportError (List UInt8) :=
  match t.stream with
  | none => .error .notConnected
  | some _ => network.receive.mapError .io

/-- Closing what is closed already is no error, and neither is a shutdown that fails: the other
side may be gone. -/
def close (t : TcpTransport) (network : Network := {}) : Except TransportError Unit :=
  match t.stream with
  | none => .ok ()
  | some _ =>
    match network.shutdown with
    | .ok () | .error _ => .ok ()

/-- The transport after it was used.  A new connection takes the place of the one before, which is
given up even if no new one comes about. -/
def use (t : TcpTransport) (network : Network) : TransportUse → TcpTransport
  | .connect host port tls => ⟨(dial network host port tls).toOption⟩
  | .write _ | .read => t
  | .close => unconnected

end TcpTransport

end Irc
