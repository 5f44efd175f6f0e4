/-
The transport of a client.

A transport over TCP passes on what the network says; it refuses to be used only where it is
not connected.  The log of a client tells how its transport was used, and by that which
stream the transport holds: `TcpTransport.replay` reads it off.  A client uses its transport
only on a connection, and then over the stream that its configuration asks for.

* **`TcpTransport.dial_eq_ok_iff`** — what it takes to get a stream;
* **`TcpTransport.write_refused_iff`**, **`TcpTransport.read_refused_iff`** — what is refused;
* **`TcpTransport.stream_run`** — what becomes of a transport however it is used;
* **`TcpTransport.replay_of_tells`** — what the log tells is what became of the transport;
* **`Client.Carrying.move`** — the client knows whether its transport is connected;
* **`Client.carried_over_stream`** — nothing is written or read on another stream;
* **`Client.never_refused`** — so the transport of a client never refuses.
-/
import Irc.Proofs.Delays
import Irc.Proofs.Sockets

namespace Irc

namespace TcpTransport

variable {t : TcpTransport} {network : Network} {host : String} {port : Nat} {tls : TlsOptions}
  {stream : TcpStream} {bytes : List UInt8}

/-! ### Using a transport -/

/-- **What it takes to get a stream.**  It takes a socket, and if the stream is to be encrypted
a name that a certificate can be for and a handshake. -/
theorem dial_eq_ok_iff :
    dial network host port tls = .ok stream ↔
      network.socket host port = .ok () ∧ stream = tls.stream ∧
        (tls.enabled = true →
          network.isServerName host = true ∧ network.handshake host tls.verify = .ok ()) := by
  rw [dial, TlsOptions.stream]
  cases network.socket host port with
  | error cause => simp
  | ok connected =>
    cases tls.enabled with
    | false => simp [eq_comm (a := stream)]
    | true =>
      cases network.isServerName host with
      | false => simp
      | true =>
        cases network.handshake host tls.verify with
        | error cause => simp
        | ok shaken => simp [eq_comm (a := stream)]

/-- A transport refuses to write just when it is not connected. -/
theorem write_refused_iff :
    t.write bytes network = .error .notConnected ↔ t.isConnected = false := by
  have hpassed : ∀ answer : Except String Unit,
      answer.mapError TransportError.io ≠ .error .notConnected := by
    intro answer
    cases answer <;> simp [Except.mapError]
  rw [write, isConnected]
  cases t.stream with
  | none => simp
  | some stream => cases stream <;> simp [hpassed]

/-- A transport refuses to read just when it is not connected. -/
theorem read_refused_iff : t.read network = .error .notConnected ↔ t.isConnected = false := by
  rw [read, isConnected]
  cases t.stream with
  | none => simp
  | some stream => cases network.receive <;> simp [Except.mapError]

/-- Closing never fails. -/
theorem close_eq_ok (t : TcpTransport) (network : Network) : t.close network = .ok () := by
  rw [close]
  cases t.stream with
  | none => rfl
  | some stream => cases network.shutdown <;> rfl

/-- The transport after it was used many times, each time in a network of its own. -/
def run (t : TcpTransport) (uses : List (Network × TransportUse)) : TcpTransport :=
  uses.foldl (fun t u => t.use u.1 u.2) t

/-- The stream that a use leaves, if it is one that can change it. -/
def sets? (network : Network) : TransportUse → Option (Option TcpStream)
  | .connect host port tls => some (dial network host port tls).toOption
  | .close => some none
  | .write _ | .read => none

/-- **What becomes of a transport.**  It holds the stream that was connected last, unless it was
closed after that or the last attempt to connect has failed. -/
theorem stream_run (t : TcpTransport) (uses : List (Network × TransportUse)) :
    (t.run uses).stream =
      ((uses.filterMap fun u => sets? u.1 u.2).getLast?).getD t.stream := by
  induction uses generalizing t with
  | nil => rfl
  | cons u uses ih =>
    have hrun : t.run (u :: uses) = (t.use u.1 u.2).run uses := rfl
    have huse : (t.use u.1 u.2).stream = (sets? u.1 u.2).getD t.stream := by
      cases u.2 <;> rfl
    rw [hrun, ih, huse, List.filterMap_cons]
    cases sets? u.1 u.2 with
    | none => rfl
    | some set =>
      rw [List.getLast?_cons]
      cases (uses.filterMap fun u => sets? u.1 u.2).getLast? <;> rfl

end TcpTransport

/-! ### What the log tells of the transport -/

/-- The attempt to connect that a note tells of. -/
def Note.dialed? : Note → Option (String × Nat × TlsOptions)
  | .dialed host port tls => some (host, port, tls)
  | _ => none

/-- A note that comes after a log tells of a use of the transport. -/
inductive Note.Tells (log : List Note) (network : Network) : Note → TransportUse → Prop where
  | dialed {host : String} {port : Nat} {tls : TlsOptions} {err : TransportError}
      (h : TcpTransport.dial network host port tls = .error err) :
      Tells log network (.dialed host port tls) (.connect host port tls)
  /-- The last attempt has come to something. -/
  | opened {host : String} {port : Nat} {tls : TlsOptions} {stream : TcpStream}
      (hlast : log.findSome? Note.dialed? = some (host, port, tls))
      (h : TcpTransport.dial network host port tls = .ok stream) :
      Tells log network .opened (.connect host port tls)
  | wrote (line : String) (failure : Option TransportError) :
      Tells log network (.wrote line failure) (.write (Framer.encode line))
  | closed : Tells log network .closed .close

namespace TcpTransport

/-- The transport of a client, by the log so far.  While an attempt is under way it holds no
stream. -/
def replay : List Note → TcpTransport
  | [] => unconnected
  | .session _ :: log => replay log
  | .dialed _ _ _ :: _ => unconnected
  | .opened :: log => ⟨(log.findSome? Note.dialed?).map fun attempt => attempt.2.2.stream⟩
  | .wrote _ _ :: log => replay log
  | .closed :: _ => unconnected

/-- What the log tells is what became of the transport. -/
theorem replay_of_tells {network : Network} {log : List Note} {n : Note} {u : TransportUse}
    (h : n.Tells log network u) : replay (n :: log) = (replay log).use network u := by
  cases h with
  | dialed h =>
    rw [use, h]
    rfl
  | opened hlast h =>
    rw [use, replay, hlast, h, (dial_eq_ok_iff.mp h).2.1]
    rfl
  | wrote line failure => rfl
  | closed => rfl

theorem replay_session (entries : List Entry) (log : List Note) :
    replay (entries.map .session ++ log) = replay log := by
  induction entries with
  | nil => rfl
  | cons entry entries ih => exact ih

/-- If all attempts were of one kind, so is the stream. -/
theorem stream_replay {tls : TlsOptions} {log : List Note}
    (hlog : ∀ n ∈ log, ∀ attempt, n.dialed? = some attempt → attempt.2.2 = tls)
    (h : (replay log).isConnected = true) : (replay log).stream = some tls.stream := by
  induction log with
  | nil => exact absurd h (by decide)
  | cons n log ih =>
    rw [List.forall_mem_cons] at hlog
    cases n with
    | session entry => exact ih hlog.2 h
    | dialed host port tls => exact absurd h Bool.false_ne_true
    | opened =>
      obtain ⟨attempt, hattempt⟩ : ∃ attempt, log.findSome? Note.dialed? = some attempt :=
        Option.isSome_iff_exists.mp (by rwa [isConnected, replay, Option.isSome_map] at h)
      obtain ⟨n, hn, hdialed⟩ := List.exists_of_findSome?_eq_some hattempt
      rw [replay, hattempt, Option.map_some, hlog.2 n hn attempt hdialed]
    | wrote line failure => exact ih hlog.2 h
    | closed => exact absurd h Bool.false_ne_true

end TcpTransport

/-! ### Writing on a connection -/

namespace Client

open TcpTransport

variable {σ : Type} {c : Client σ} {quits : Bool} {config : Config} {now : Instant}

/-- A client knows whether its transport is connected, and has written only while it was. -/
structure Carrying (c : Client σ) : Prop where
  socket : (replay c.log).isConnected = c.socketOpen
  attempted : c.dialing = true → (c.log.findSome? Note.dialed?).isSome = true
  carried : ∀ {line failure earlier}, .wrote line failure :: earlier <:+ c.log →
    (replay earlier).isConnected = true

/-- Nothing is written by what happens in the session. -/
theorem wrote_suffix_session {entries : List Entry} {line : String}
    {failure : Option TransportError} {earlier log : List Note}
    (h : .wrote line failure :: earlier <:+ entries.map Note.session ++ log) :
    .wrote line failure :: earlier <:+ log := by
  induction entries with
  | nil => exact h
  | cons entry entries ih =>
    rcases List.suffix_cons_iff.mp h with heq | hrest
    · exact absurd (List.cons.inj heq).1 (by simp)
    · exact ih hrest

theorem findSome?_dialed_session (entries : List Entry) (log : List Note) :
    (entries.map Note.session ++ log).findSome? Note.dialed? = log.findSome? Note.dialed? := by
  induction entries with
  | nil => rfl
  | cons entry entries ih => exact ih

namespace Carrying

theorem take (h : c.Carrying) (t : Turn) : (c.take t).Carrying where
  socket := (congrArg isConnected (replay_session _ _)).trans h.socket
  attempted := fun hdialing => by
    have hlog := findSome?_dialed_session (c.session.perform t).journal c.log
    exact (congrArg Option.isSome hlog).trans (h.attempted hdialing)
  carried := fun hwrote => h.carried (wrote_suffix_session hwrote)

theorem shutdown (h : c.Carrying) : c.shutdown.Carrying where
  socket := rfl
  attempted := h.attempted
  carried := fun hwrote => h.carried ((List.suffix_cons_iff.mp hwrote).resolve_left (by simp))

theorem idle (h : c.Carrying) : Carrying { c with dialing := false } :=
  ⟨h.socket, fun hdialing => absurd hdialing Bool.false_ne_true, h.carried⟩

/-- With a line to write the transport is connected. -/
theorem put (h : c.Carrying) (hsound : c.Sound True) {line : String} {rest : List String}
    (houtbox : c.session.outbox = line :: rest) : (c.put line rest).Carrying where
  socket := h.socket
  attempted := h.attempted
  carried := fun hwrote => by
    rcases List.suffix_cons_iff.mp hwrote with heq | hearlier
    · obtain ⟨-, rfl⟩ := List.cons.inj heq
      rw [h.socket]
      refine Bool.of_not_eq_false fun hclosed => ?_
      exact absurd (houtbox.symm.trans (hsound.spent (.inl trivial) hclosed))
        (List.cons_ne_nil _ _)
    · exact h.carried hearlier

theorem dial (h : c.Carrying) (hsocket : c.socketOpen = false) : c.dial.Carrying where
  socket := hsocket.symm
  attempted := fun _ => rfl
  carried := fun hwrote => h.carried ((List.suffix_cons_iff.mp hwrote).resolve_left (by simp))

theorem attach (h : c.Carrying) (hdialing : c.dialing = true) : c.attach.Carrying where
  socket := by
    show (Option.map _ (c.log.findSome? Note.dialed?)).isSome = true
    rw [Option.isSome_map]
    exact h.attempted hdialing
  attempted := fun hd => absurd hd Bool.false_ne_true
  carried := fun hwrote => h.carried ((List.suffix_cons_iff.mp hwrote).resolve_left (by simp))

/-- The client goes on knowing it with every move. -/
theorem move {x y : Stage σ} (hmove : Move quits x y) (hsound : x.client.Sound True)
    (h : x.client.Carrying) : y.client.Carrying := by
  cases hmove with
  | takesUp c => exact ⟨h.socket, h.attempted, h.carried⟩
  | carries c now effect rest hcloses hrunning =>
    obtain ⟨_, _, _, heq⟩ := carryOut_eq hcloses hrunning now
    rw [heq]
    exact ⟨h.socket, h.attempted, h.carried⟩
  | passes c effect rest => exact h
  | dials c agenda hstate => exact h.dial (hsound.socket_of_not_holds (hstate ▸ by decide))
  | writes c agenda houtbox => exact h.put hsound houtbox
  | loses c agenda reason hdialing =>
    rw [lose_eq_take]
    exact h.shutdown.take _
  | opens c agenda now hdialing hstate hfreed =>
    rw [answer_dialed_eq_take hstate hfreed]
    exact (h.attach hdialing).take _
  | fails c agenda reason hdialing =>
    rw [attempt_eq_take]
    exact h.idle.shutdown.take _
  | acts c agenda hdialing ht => exact h.take _
  | reads c agenda bytes hopen => exact ⟨h.socket, h.attempted, h.carried⟩
  | ticks c agenda now => exact ⟨h.socket, h.attempted, h.carried⟩
  | expires c agenda hstate hfreed =>
    rw [attempt_eq_take]
    have hbefore : Carrying { c with reconnectAt := none } := ⟨h.socket, h.attempted, h.carried⟩
    exact hbefore.take _

end Carrying

/-! ### The stream that the configuration asks for -/

/-- A client has kept its configuration, and has dialled as that says. -/
structure Configured (config : Config) (c : Client σ) : Prop where
  kept : c.session.engine.config = config
  dials : ∀ n ∈ c.log, ∀ attempt, n.dialed? = some attempt →
    attempt = (config.host, config.port, config.tls)

namespace Configured

theorem take (h : c.Configured config) {t : Turn} (ht : t.engine.config = c.session.engine.config) :
    (c.take t).Configured config where
  kept := by rw [engine_take, ht, h.kept]
  dials := fun n hn attempt hdialed => by
    rcases List.mem_append.mp hn with hn | hn
    · obtain ⟨entry, -, rfl⟩ := List.mem_map.mp hn
      exact absurd hdialed (by simp [Note.dialed?])
    · exact h.dials n hn attempt hdialed

theorem note (h : c.Configured config) {n : Note}
    (hn : ∀ attempt, n.dialed? = some attempt → attempt = (config.host, config.port, config.tls)) :
    (c.note n).Configured config :=
  ⟨h.kept, List.forall_mem_cons.mpr ⟨hn, h.dials⟩⟩

theorem turn (h : c.Configured config) (op : Operation) :
    (c.take (c.session.engine.turn op)).Configured config :=
  h.take (c.session.engine.config_turn op)

theorem shutdown (h : c.Configured config) : c.shutdown.Configured config :=
  ⟨h.kept, (h.note (n := .closed) fun _ hn => absurd hn (by simp [Note.dialed?])).dials⟩

theorem dial (h : c.Configured config) : c.dial.Configured config := by
  refine ⟨h.kept, (h.note fun attempt hn => ?_).dials⟩
  rw [← h.kept]
  exact (Option.some_inj.mp hn).symm

theorem answer (h : c.Configured config) {w : Wake} (hw : c.awaits now w = true) :
    (c.answer now w).Configured config := by
  refine answer_induction (P := Configured config) hw (fun b op _ hb => hb.turn op)
    (fun b request hb => hb.take (by rw [Engine.engine_queue]))
    (fun b reason _ hb => ?_) (fun b hb => ?_) (fun b hb => hb.shutdown)
    (fun b hb => ⟨hb.kept, hb.dials⟩) (fun b hb => ⟨hb.kept, hb.dials⟩)
    (fun b _ _ hb => ⟨hb.kept, hb.dials⟩) h
  · have hidle : Configured config { b with dialing := false } := ⟨hb.kept, hb.dials⟩
    exact hidle.shutdown.turn _
  · exact ⟨hb.kept, (hb.note (n := .opened) fun _ hn => absurd hn (by simp [Note.dialed?])).dials⟩

theorem settle (h : c.Configured config) (now : Instant) :
    (c.settle now).Configured config := by
  refine settle_induction (P := Configured config) (fun b hb => ⟨hb.kept, hb.dials⟩)
    (fun b effect hcloses hrunning hb => ?_)
    (fun b line rest _ hb => ⟨hb.kept,
      (hb.note (n := .wrote line b.writes.head?.join) fun _ hn =>
        absurd hn (by simp [Note.dialed?])).dials⟩)
    (fun b _ hb => hb.dial) (fun b reason hb => ?_) h
  · obtain ⟨_, _, _, heq⟩ := carryOut_eq hcloses hrunning now
    rw [heq]
    exact ⟨hb.kept, hb.dials⟩
  · rw [lose_eq_take]
    exact hb.shutdown.turn _

theorem run (h : c.Configured config) (wakes : List (Instant × Wake)) :
    (c.run wakes).Configured config := by
  induction wakes generalizing c with
  | nil => exact h
  | cons w wakes ih =>
    have hrun : c.run (w :: wakes) = (c.wake w.1 w.2).run wakes := rfl
    rw [hrun]
    refine ih ?_
    rw [wake]
    split_ifs with hidle
    · exact h
    · rw [Bool.not_eq_true, Bool.or_eq_false_iff, Bool.not_eq_false'] at hidle
      exact (h.answer hidle.2).settle w.1

end Configured

/-- **Nothing is written or read on another stream.**  In every run of every client the transport
is connected just when the client takes it to be.  It is when a line is handed to it and when
the client waits for something to read, and then over the stream that the configuration asks
for: a client that is to encrypt its connection never writes in the clear. -/
theorem carried_over_stream (id : SessionId) (config : Config) (begun : Instant)
    (handler : Handler σ) (memory : σ) (writes : List (Option TransportError))
    (wakes : List (Instant × Wake)) :
    let c := (fresh id config begun handler memory writes).run wakes
    (replay c.log).isConnected = c.socketOpen ∧
      (∀ line failure earlier, .wrote line failure :: earlier <:+ c.log →
        (replay earlier).stream = some config.tls.stream) ∧
      (c.stopped = false → ∀ now outcome, c.awaits now (.read outcome) = true →
        (replay c.log).stream = some config.tls.stream) := by
  intro c
  have hkept := (leads_fresh id config begun handler memory writes wakes).keeps
    (I := fun x => x.client.Sound True ∧ x.client.Carrying)
    (fun hmove h => ⟨h.1.move hmove, h.2.move hmove h.1⟩)
    ⟨sound_fresh id config begun handler memory writes,
      rfl, fun hd => absurd hd Bool.false_ne_true, fun h => absurd h (by simp [fresh, start])⟩
  obtain ⟨hsound, hcarrying⟩ : c.Sound True ∧ c.Carrying := hkept
  have hstart : (fresh id config begun handler memory writes).Configured config :=
    ⟨rfl, fun _ hn => absurd hn List.not_mem_nil⟩
  have hconfigured : c.Configured config := hstart.run wakes
  have htls : ∀ n ∈ c.log, ∀ attempt, n.dialed? = some attempt → attempt.2.2 = config.tls :=
    fun n hn attempt hdialed => by rw [hconfigured.dials n hn attempt hdialed]
  refine ⟨hcarrying.socket, fun line failure earlier hwrote => ?_,
    fun hrunning now outcome hw => ?_⟩
  · refine stream_replay (fun n hn => htls n ?_) (hcarrying.carried hwrote)
    exact hwrote.subset (List.mem_cons_of_mem _ hn)
  · have hopen : c.session.engine.Open := ⟨of_decide_eq_true hw, freed_of_running hrunning⟩
    refine stream_replay htls ?_
    rw [hcarrying.socket]
    exact hsound.owned (.inl trivial) hopen

/-- A client is never told that its transport is not connected. -/
theorem never_refused (id : SessionId) (config : Config) (begun : Instant) (handler : Handler σ)
    (memory : σ) (writes : List (Option TransportError)) (wakes : List (Instant × Wake)) :
    let c := (fresh id config begun handler memory writes).run wakes
    (∀ line failure earlier, .wrote line failure :: earlier <:+ c.log → ∀ bytes network,
        (replay earlier).write bytes network ≠ .error .notConnected) ∧
      (c.stopped = false → ∀ now outcome, c.awaits now (.read outcome) = true → ∀ network,
        (replay c.log).read network ≠ .error .notConnected) := by
  intro c
  have hconnected : ∀ {t : TcpTransport}, t.stream = some config.tls.stream →
      t.isConnected ≠ false := fun h hclosed => by simp [isConnected, h] at hclosed
  obtain ⟨-, hwritten, hread⟩ := carried_over_stream id config begun handler memory writes wakes
  refine ⟨fun line failure earlier hwrote bytes network hrefused => ?_,
    fun hrunning now outcome hw network hrefused => ?_⟩
  · exact hconnected (hwritten line failure earlier hwrote) (write_refused_iff.mp hrefused)
  · exact hconnected (hread hrunning now outcome hw) (read_refused_iff.mp hrefused)

example :
    let config := { Config.forServer "irc.example" 6697 "me" with tls := { enabled := true } }
    let c := (fresh ⟨1⟩ config ⟨0⟩ Handler.idle () []).run
      [(⟨0⟩, .command .connect), (⟨0⟩, .dialed (.ok ()))]
    (replay c.log).stream = some .tls := by
  decide +kernel

end Client

end Irc
