/-
A client engine for Internet Relay Chat: messages, outgoing commands,
capability negotiation, the session engine, line framing and the client loop.
-/
import Irc.Client.Rehearsal
import Irc.Message.Printer
import Irc.Proofs.Agreement
import Irc.Proofs.Backoff
import Irc.Proofs.Brackets
import Irc.Proofs.Budget
import Irc.Proofs.Building
import Irc.Proofs.CapEnd
import Irc.Proofs.Delivery
import Irc.Proofs.Ending
import Irc.Proofs.Finality
import Irc.Proofs.Framing
import Irc.Proofs.Login
import Irc.Proofs.Outbox
import Irc.Proofs.Overlength
import Irc.Proofs.ReadBack
import Irc.Proofs.Refusals
import Irc.Proofs.RoundTrip
import Irc.Proofs.WellFormed
import Irc.Proofs.FrameLimit
import Irc.Proofs.Influence
import Irc.Proofs.Pings
import Irc.Proofs.Registration
import Irc.Proofs.Batch
import Irc.Proofs.Offers
import Irc.Proofs.Keepalive
import Irc.Proofs.Drops
import Irc.Proofs.Latency
import Irc.Proofs.Nicknames
import Irc.Proofs.Telling
import Irc.Proofs.Credentials
import Irc.Proofs.Ctcp
import Irc.Proofs.Features
import Irc.Proofs.Deadlines
import Irc.Proofs.Truncation
import Irc.Proofs.CaseMapping
import Irc.Proofs.Transport
import Irc.Proofs.Settling
