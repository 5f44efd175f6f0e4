/-
Wire limits.

A line has at most 512 bytes with its CRLF, not counting a tag section of at
most 8191 bytes in front.  Servers relay a client's line behind the client's
full name, for which outgoing lines leave room.
-/

namespace Irc.Limits

/-- Bytes of a line with its CRLF, tags aside. -/
def line : Nat := 512

/-- Bytes of a line without its CRLF, tags aside. -/
def body : Nat := line - 2

/-- Bytes of a tag section without its leading mark. -/
def tags : Nat := 8191

/-- Middle parameters of a message. -/
def middles : Nat := 14

/-- Bytes kept free for the sender's name that a server puts in front. -/
def senderReserve : Nat := 50

/-- Bytes of an outgoing line with its CRLF. -/
def outgoing : Nat := line - senderReserve

/-- Bytes of the longest line accepted from a server. -/
def frame : Nat := tags + line

end Irc.Limits
