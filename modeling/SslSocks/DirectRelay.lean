import SslSocks.Manager
import SslSocks.RelayLife

/-!
# The direct connection of a SOCKS5 client

For a host that is not blocked `impl_start_local` connects `_sock_remote` and relays
between the two sockets. `raw_tcp::stop_relay` closes `_sock`, and nothing closes
`_sock_remote`. `released_iff` says in which runs a stopped raw_tcp holds nothing: those
that never stop it while it has a direct connection, and begin none when it was stopped.
-/

namespace SslSocks

open Lib

namespace Relay

/-- The raw_tcp of a connection to the SOCKS5 port. -/
def accepted (dst : Endpoint) : Relay := (Node.initLocal .localServer).newAccepted dst

/-- Both sockets are closed and neither direction of `impl_local_relay` awaits anything. -/
structure Released (r : Relay) : Prop where
  sock : r.sock = false
  sockRemote : r.tcp.sockRemote = false
  toClient : r.tcp.toClient = .off
  toRemote : r.tcp.toRemote = .off

/-- No handler is ready to run: nothing was posted, and whatever a coroutine awaits, it
awaits on an open socket. A resolver may always go on. -/
structure Idle (r : Relay) : Prop where
  inbox : r.inbox = []
  activations : r.activations = 0
  arrived : r.arrived = none
  sending : r.sending ≠ none → r.sock = true
  reading : r.reading = true → r.sock = true
  startup : r.startup ≠ .idle → r.startup ≠ .directResolve → r.startup ≠ .directConnect →
    r.sock = true
  toClient : (r.tcp.toClient = .reading → r.tcp.sockRemote = true) ∧
    (r.tcp.toClient = .writing → r.sock = true)
  toRemote : (r.tcp.toRemote = .reading → r.sock = true) ∧
    (r.tcp.toRemote = .writing → r.tcp.sockRemote = true)

/-- The step runs `raw_tcp::stop_relay`: its handler, or the catch block of a coroutine. -/
def RunsStop (r : Relay) : RelayAction → Prop
  | .event _ .task => r.inbox.head? = some .stopRelay
  | .event _ .sendError | .event _ .readError | .event _ (.startup false)
  | .event _ (.direct _ false) => True
  | .event _ (.request _) => ∀ buf, r.arrived = some (.stream buf) → ¬ AcceptsRequest buf
  | _ => False

/-- The step begins the connect of `_sock_remote`. -/
def BeginsDirect (r : Relay) : RelayAction → Prop
  | .event _ (.startup true) => r.startup = .directResolve
  | _ => False

/-- The condition: no stop of a relay with a direct connection, and no direct connection
of a relay whose client was closed. -/
structure KeepsApart (r : Relay) (a : RelayAction) : Prop where
  stop : r.RunsStop a → r.tcp.sockRemote = false
  direct : r.BeginsDirect a → r.sock = true

/-- What holds of a raw_tcp of the SOCKS5 port in every run. -/
structure Socks (r : Relay) : Prop where
  kind : r.kind = .rawTcp
  type : r.type = .localServer
  ssl : r.ssl = {}
  startup : r.startup ≠ .resolve ∧ r.startup ≠ .connect ∧ r.startup ≠ .handshake
  connecting : r.startup = .directConnect → r.tcp.sockRemote = true
  relaying : r.tcp.toClient ≠ .off ∨ r.tcp.toRemote ≠ .off → r.tcp.sockRemote = true
  stopped : r.state = .stop → r.sock = false

variable {r r' r'' : Relay} {a : RelayAction} {alive : Bool} {ev : RelayEvent}
  {outs : List RelayOut}

/-- A step that runs the stop begins no connection. -/
theorem RunsStop.not_direct (stop : r.RunsStop a) : ¬ r.BeginsDirect a := by
  intro direct
  cases a with
  | call c => exact direct
  | event alive ev =>
    cases ev with
    | startup ok =>
      cases ok with
      | true => exact stop
      | false => exact direct
    | _ => exact direct

theorem socks_accepted (dst : Endpoint) : Socks (accepted dst) where
  kind := rfl
  type := rfl
  ssl := rfl
  startup := ⟨nofun, nofun, nofun⟩
  connecting := fun connecting => by cases connecting
  relaying := by
    rintro (on | on)
    · exact absurd rfl on
    · exact absurd rfl on
  stopped := fun stopped => by cases stopped

/-- `stop_relay` closes the client, and changes nothing else of what is looked at here. -/
theorem Socks.stopHere (socks : Socks r) : Socks r.stopHere ∧ r.stopHere.sock = false ∧
    r.stopHere.tcp = r.tcp := by
  rcases stopHere_cases r with ⟨ssl, _⟩ | ⟨_, ⟨stopped, same⟩ | ⟨bound, same⟩⟩
  · exact absurd (socks.kind.symm.trans ssl) nofun
  · rw [same]
    exact ⟨socks, socks.stopped stopped, rfl⟩
  · rw [same]
    exact ⟨⟨socks.kind, socks.type, socks.ssl, socks.startup, socks.connecting, socks.relaying,
      fun _ => rfl⟩, rfl, rfl⟩

/-- What a step does to the two sockets. -/
structure Sockets (r : Relay) (a : RelayAction) (r' : Relay) : Prop where
  socks : Socks r'
  sock : ¬ r.RunsStop a → r'.sock = r.sock
  stop : r.RunsStop a → r'.sock = false
  sockRemote : ¬ r.BeginsDirect a → r'.tcp.sockRemote = r.tcp.sockRemote
  direct : r.BeginsDirect a → r'.tcp.sockRemote = true

/-- The parts that are looked at, without the start-up and the state. -/
structure SameSockets (r r' : Relay) : Prop where
  kind : r'.kind = r.kind
  type : r'.type = r.type
  ssl : r'.ssl = r.ssl
  sock : r'.sock = r.sock
  tcp : r'.tcp = r.tcp

/-- A step that stops nothing and connects nothing. -/
theorem Sockets.of_same (socks : Socks r) (same : SameSockets r r')
    (startup : r'.startup = r.startup ∨ r'.startup ≠ .resolve ∧ r'.startup ≠ .connect ∧
      r'.startup ≠ .handshake ∧ r'.startup ≠ .directConnect)
    (state : r'.state = .stop → r.state = .stop) (noStop : ¬ r.RunsStop a)
    (noDirect : ¬ r.BeginsDirect a) : Sockets r a r' where
  socks := by
    refine ⟨same.kind.trans socks.kind, same.type.trans socks.type, same.ssl.trans socks.ssl,
      ?_, ?_, ?_, ?_⟩
    · rcases startup with still | ⟨resolve, connect, handshake, _⟩
      · rw [still]
        exact socks.startup
      · exact ⟨resolve, connect, handshake⟩
    · intro connecting
      rw [same.tcp]
      rcases startup with still | ⟨_, _, _, other⟩
      · exact socks.connecting (still ▸ connecting)
      · exact absurd connecting other
    · rw [same.tcp]
      exact socks.relaying
    · intro stopped
      rw [same.sock]
      exact socks.stopped (state stopped)
  sock := fun _ => same.sock
  stop := fun stop => absurd stop noStop
  sockRemote := fun _ => by rw [same.tcp]
  direct := fun direct => absurd direct noDirect

/-- A step that ends in `stop_relay`, which may also end a direction. -/
theorem Sockets.of_stop {h : Relay} (socks : Socks h) (remote : h.tcp.sockRemote = r.tcp.sockRemote)
    (stop : r.RunsStop a) (noDirect : ¬ r.BeginsDirect a) : Sockets r a h.stopHere := by
  obtain ⟨after, closed, tcp⟩ := socks.stopHere
  refine ⟨after, fun no => absurd stop no, fun _ => closed, fun _ => ?_,
    fun direct => absurd direct noDirect⟩
  rw [tcp, remote]

theorem Sockets.note (sockets : Sockets r a r') (outs : List RelayOut) :
    Sockets r a (r'.note outs) :=
  ⟨⟨sockets.socks.kind, sockets.socks.type, sockets.socks.ssl, sockets.socks.startup,
    sockets.socks.connecting, sockets.socks.relaying, sockets.socks.stopped⟩, sockets.sock, sockets.stop,
    sockets.sockRemote, sockets.direct⟩

theorem sockets_call {c : RelayCall} (socks : Socks r) (proper : r.Proper (.call c)) :
    Sockets r (.call c) (r.call c) := by
  have quiet {r' : Relay} (same : SameSockets r r') (startup : r'.startup = r.startup)
      (state : r'.state = r.state) : Sockets r (.call c) r' :=
    .of_same socks same (.inl startup) (fun stopped => state ▸ stopped) id id
  have called := calls_call r c
  generalize r.call c = r' at called
  cases called with
  | @begin session =>
    have startup : (r.begin session).startup = .greeting := by
      unfold Relay.begin
      rw [socks.type]
    refine .of_same socks ⟨rfl, rfl, rfl, rfl, rfl⟩ (.inr ?_) id id id
    rw [startup]
    decide
  | stopSsl _ _ ssl => exact absurd (socks.kind.symm.trans ssl) nofun
  | startRead => exact absurd (socks.type.symm.trans proper.2.1) nofun
  | startUdpRemote _ remote => exact absurd (socks.type.symm.trans remote) nofun
  | _ => exact quiet ⟨rfl, rfl, rfl, rfl, rfl⟩ rfl rfl

theorem sockets_sendLoop {h : Relay} (loop : SendLoop r' h) (socks : Socks r)
    (same : SameSockets r r') (startup : r'.startup = r.startup)
    (state : r'.state = .stop → r.state = .stop) (noStop : ¬ r.RunsStop a)
    (noDirect : ¬ r.BeginsDirect a) : Sockets r a h := by
  have raw : r'.kind = .rawTcp := same.kind.trans socks.kind
  obtain ⟨kind, type, ssl, sock, tcp⟩ := same
  cases loop with
  | empty _ =>
    exact .of_same socks ⟨kind, type, ssl, sock, tcp⟩ (.inl startup) nofun noStop noDirect
  | stopped _ _ =>
    exact .of_same socks ⟨kind, type, ssl, sock, tcp⟩ (.inl startup) state noStop noDirect
  | stream _ _ _ =>
    exact .of_same socks ⟨kind, type, ssl, sock, tcp⟩ (.inl startup) state noStop noDirect
  | datagram _ _ _ _ _ udp => exact absurd (raw.symm.trans udp) nofun
  | threw _ _ _ _ udp => exact absurd (raw.symm.trans udp) nofun

theorem sockets_event (socks : Socks r) (handled : Handles alive r ev r' outs) :
    Sockets r (.event alive ev) r' := by
  have other {task : RelayTask} {inbox : List RelayTask} (queue : r.inbox = task :: inbox)
      (ne : task ≠ .stopRelay) : ¬ r.RunsStop (.event alive .task) := by
    intro stop
    have head : r.inbox.head? = some .stopRelay := stop
    rw [queue] at head
    exact ne (Option.some.inj head)
  have quiet {ev : RelayEvent} {r' : Relay} (same : SameSockets r r')
      (startup : r'.startup = r.startup) (state : r'.state = .stop → r.state = .stop)
      (noStop : ¬ r.RunsStop (.event alive ev)) (noDirect : ¬ r.BeginsDirect (.event alive ev)) :
      Sockets r (.event alive ev) r' :=
    .of_same socks same (.inl startup) state noStop noDirect
  have moved {r' : Relay} (here : r.startup ≠ .directResolve) (same : SameSockets r r')
      (startup : r'.startup ≠ .resolve ∧ r'.startup ≠ .connect ∧ r'.startup ≠ .handshake ∧
        r'.startup ≠ .directConnect)
      (state : r'.state = .stop → r.state = .stop) :
      Sockets r (.event alive (.startup true)) r' :=
    .of_same socks same (.inr startup) state id here
  have ended {h : Relay} {ev : RelayEvent} (kind : h.kind = r.kind) (type : h.type = r.type)
      (ssl : h.ssl = r.ssl) (sock : h.sock = r.sock) (state : h.state = r.state)
      (startup : h.startup = r.startup ∨ h.startup = .idle)
      (remote : h.tcp.sockRemote = r.tcp.sockRemote)
      (relaying : h.tcp.toClient ≠ .off ∨ h.tcp.toRemote ≠ .off → r.tcp.sockRemote = true)
      (stop : r.RunsStop (.event alive ev)) (noDirect : ¬ r.BeginsDirect (.event alive ev)) :
      Sockets r (.event alive ev) h.stopHere := by
    refine .of_stop ⟨kind.trans socks.kind, type.trans socks.type, ssl.trans socks.ssl, ?_, ?_,
      ?_, ?_⟩ remote stop noDirect
    · rcases startup with same | idle
      · rw [same]
        exact socks.startup
      · rw [idle]
        exact ⟨nofun, nofun, nofun⟩
    · intro connecting
      rw [remote]
      rcases startup with same | idle
      · exact socks.connecting (same ▸ connecting)
      · exact absurd (idle.symm.trans connecting) nofun
    · rw [remote]
      exact relaying
    · rw [state, sock]
      exact socks.stopped
  have raw := socks.kind
  obtain ⟨noResolve, noConnect, noHandshake⟩ := socks.startup
  cases handled with
  | dropped queue _ => exact quiet ⟨rfl, rfl, rfl, rfl, rfl⟩ rfl id (other queue nofun) id
  | pushed queue _ => exact quiet ⟨rfl, rfl, rfl, rfl, rfl⟩ rfl id (other queue nofun) id
  | @stopTask inbox queue =>
    have stop : r.RunsStop (.event alive .task) := by
      show r.inbox.head? = some .stopRelay
      rw [queue]
      rfl
    have here : (Relay.stopTask { r with inbox }) = Relay.stopHere { r with inbox } := by
      unfold Relay.stopHere
      simp only [raw]
    rw [here]
    exact ended rfl rfl rfl rfl rfl (.inl rfl) rfl socks.relaying stop id
  | startInit queue =>
    exact quiet ⟨rfl, rfl, rfl, rfl, rfl⟩ rfl nofun (other queue nofun) id
  | addPeer queue => exact quiet ⟨rfl, rfl, rfl, rfl, rfl⟩ rfl id (other queue nofun) id
  | delPeer queue => exact quiet ⟨rfl, rfl, rfl, rfl, rfl⟩ rfl id (other queue nofun) id
  | sslStop some =>
    rw [socks.ssl] at some
    cases some
  | closed some =>
    rw [socks.ssl] at some
    cases some
  | startIdle _ _ => exact quiet ⟨rfl, rfl, rfl, rfl, rfl⟩ rfl id id id
  | startSend _ _ loop =>
    exact sockets_sendLoop loop socks ⟨rfl, rfl, rfl, rfl, rfl⟩ rfl nofun id id
  | take _ _ _ _ => exact quiet ⟨rfl, rfl, rfl, rfl, rfl⟩ rfl id id id
  | transmit _ _ => exact quiet ⟨rfl, rfl, rfl, rfl, rfl⟩ rfl id id id
  | sent _ loop => exact sockets_sendLoop loop socks ⟨rfl, rfl, rfl, rfl, rfl⟩ rfl id id id
  | sendError _ => exact ended rfl rfl rfl rfl rfl (.inl rfl) rfl socks.relaying trivial id
  | arrive _ _ _ _ => exact quiet ⟨rfl, rfl, rfl, rfl, rfl⟩ rfl id id id
  | readRaw _ _ _ _ => exact quiet ⟨rfl, rfl, rfl, rfl, rfl⟩ rfl id id id
  | readRawDead _ _ _ _ => exact quiet ⟨rfl, rfl, rfl, rfl, rfl⟩ rfl id id id
  | readMore _ _ ssl _ => exact absurd (raw.symm.trans ssl) nofun
  | readMessage _ _ ssl _ _ => exact absurd (raw.symm.trans ssl) nofun
  | readMessageDead _ _ ssl _ _ => exact absurd (raw.symm.trans ssl) nofun
  | readThrew _ _ ssl _ => exact absurd (raw.symm.trans ssl) nofun
  | readOverrun _ _ ssl _ => exact absurd (raw.symm.trans ssl) nofun
  | readDatagram _ _ _ => exact quiet ⟨rfl, rfl, rfl, rfl, rfl⟩ rfl id id id
  | readDatagramDead _ _ _ => exact quiet ⟨rfl, rfl, rfl, rfl, rfl⟩ rfl id id id
  | readError _ _ => exact ended rfl rfl rfl rfl rfl (.inl rfl) rfl socks.relaying trivial id
  | greeting here _ =>
    refine moved ?_ ⟨rfl, rfl, rfl, rfl, rfl⟩ ⟨nofun, nofun, nofun, nofun⟩ id
    rw [here]
    exact nofun
  | greetingReply here =>
    refine moved ?_ ⟨rfl, rfl, rfl, rfl, rfl⟩ ⟨nofun, nofun, nofun, nofun⟩ id
    rw [here]
    exact nofun
  | directResolve here =>
    refine ⟨⟨raw, socks.type, socks.ssl, ⟨nofun, nofun, nofun⟩, fun _ => rfl, fun _ => rfl,
      socks.stopped⟩, fun _ => rfl, fun stop => stop.elim, fun no => absurd here no, fun _ => rfl⟩
  | directConnect here =>
    have no : r.startup ≠ .directResolve := by
      rw [here]
      exact nofun
    exact ⟨⟨raw, socks.type, socks.ssl, ⟨nofun, nofun, nofun⟩, nofun,
      fun _ => socks.connecting here, nofun⟩, fun _ => rfl, fun stop => stop.elim, fun _ => rfl,
      fun direct => absurd direct no⟩
  | okReply here =>
    refine moved ?_ ⟨rfl, rfl, rfl, rfl, rfl⟩ ⟨nofun, nofun, nofun, nofun⟩ id
    rw [here]
    exact nofun
  | resolve here => exact absurd here noResolve
  | connectSsl here _ _ => exact absurd here noConnect
  | connectRaw here _ _ => exact absurd here noConnect
  | handshake here => exact absurd here noHandshake
  | startupThrew _ _ => exact ended rfl rfl rfl rfl rfl (.inr rfl) rfl socks.relaying trivial id
  | @requestBad _ buf _ arrived bad =>
    refine ended rfl rfl rfl rfl rfl (.inr rfl) rfl socks.relaying ?_ id
    intro buf' there
    rw [arrived] at there
    cases there
    exact bad
  | requestBlocked _ arrived accepts _ _ =>
    exact .of_same socks ⟨rfl, rfl, rfl, rfl, rfl⟩ (.inr ⟨nofun, nofun, nofun, nofun⟩)
      nofun (fun stop => stop _ arrived accepts) id
  | requestDead _ arrived accepts _ _ =>
    exact quiet ⟨rfl, rfl, rfl, rfl, rfl⟩ rfl id (fun stop => stop _ arrived accepts) id
  | requestDirect _ arrived accepts _ =>
    exact .of_same socks ⟨rfl, rfl, rfl, rfl, rfl⟩ (.inr ⟨nofun, nofun, nofun, nofun⟩) id
      (fun stop => stop _ arrived accepts) id
  | direct toClient' toRemote' on =>
    exact ⟨⟨raw, socks.type, socks.ssl, socks.startup, socks.connecting, fun _ => socks.relaying on,
      socks.stopped⟩, fun _ => rfl, fun stop => stop.elim, fun _ => rfl, fun direct => direct.elim⟩
  | directFailed toClient' toRemote' on =>
    exact ended rfl rfl rfl rfl rfl (.inl rfl) rfl (fun _ => socks.relaying on) trivial id

theorem sockets_act (socks : Socks r) (proper : r.Proper a) (stepped : r.act a = some r') :
    Sockets r a r' := by
  cases a with
  | call c =>
    cases stepped
    exact sockets_call socks proper
  | event alive ev =>
    obtain ⟨h, outs, handled, rfl⟩ := act_event.mp stepped
    exact (sockets_event socks (handles_of_handle handled)).note outs

/-! ## Runs -/

theorem socks_reach {C : Relay → RelayAction → Prop} (proper : ∀ {r a}, C r a → r.Proper a)
    (socks : Socks r) (run : Reach act C r r') : Socks r' :=
  run.invariant socks fun _ socks meets stepped => (sockets_act socks (proper meets) stepped).socks

/-- A client that was closed stays closed, and a direct connection stays open. -/
theorem stays_reach (socks : Socks r) (run : Reach act Proper r r') :
    (r.sock = false → r'.sock = false) ∧
      (r.tcp.sockRemote = true → r'.tcp.sockRemote = true) := by
  refine run.invariant (P := fun t => (r.sock = false → t.sock = false) ∧
    (r.tcp.sockRemote = true → t.tcp.sockRemote = true)) ⟨id, id⟩ ?_
  rintro t a t' before ⟨closed, opened⟩ proper stepped
  have sockets := sockets_act (socks_reach id socks before) proper stepped
  constructor
  · intro start
    by_cases stop : t.RunsStop a
    · exact sockets.stop stop
    · rw [sockets.sock stop]
      exact closed start
  · intro start
    by_cases direct : t.BeginsDirect a
    · exact sockets.direct direct
    · rw [sockets.sockRemote direct]
      exact opened start

/-- Steps that keep the two apart: a relay whose client is closed has no direct
connection. -/
theorem apart_reach (socks : Socks r) (apart : r.sock = false → r.tcp.sockRemote = false)
    (run : Reach act (fun r a => r.Proper a ∧ r.KeepsApart a) r r') :
    r'.sock = false → r'.tcp.sockRemote = false := by
  refine run.invariant (P := fun t => t.sock = false → t.tcp.sockRemote = false) apart ?_
  intro t a t' before ih meets stepped closed
  have sockets := sockets_act (socks_reach And.left socks before) meets.1 stepped
  have still (no : ¬ t.BeginsDirect a) (none : t.tcp.sockRemote = false) :
      t'.tcp.sockRemote = false := by
    rw [sockets.sockRemote no, none]
  by_cases stop : t.RunsStop a
  · exact still stop.not_direct (meets.2.stop stop)
  · rw [sockets.sock stop] at closed
    refine still (fun direct => ?_) (ih closed)
    rw [meets.2.direct direct] at closed
    cases closed

/-- Without its direct connection a closed relay holds nothing. -/
theorem Socks.released (socks : Socks r) (closed : r.sock = false)
    (none : r.tcp.sockRemote = false) : r.Released := by
  have off : ¬ (r.tcp.toClient ≠ .off ∨ r.tcp.toRemote ≠ .off) := by
    intro on
    rw [socks.relaying on] at none
    cases none
  obtain ⟨toClient, toRemote⟩ := not_or.mp off
  exact ⟨closed, none, not_not.mp toClient, not_not.mp toRemote⟩

/-- **When a stopped raw_tcp holds no connection**: in every run that keeps a stop and a
direct connection apart, all is released in every state after a stop, whether or not
handlers are left to run. After a step that does not keep them apart the relay is closed,
its direct connection is open, and so it stays. -/
theorem released_iff (dst : Endpoint) :
    (∀ {stopped r}, Reach act (fun r a => r.Proper a ∧ r.KeepsApart a) (accepted dst) stopped →
      stopped.state = .stop → Reach act (fun r a => r.Proper a ∧ r.KeepsApart a) stopped r →
      r.Released) ∧
    ∀ {r a r' later}, Reach act Proper (accepted dst) r → r.Proper a → r.act a = some r' →
      ¬ r.KeepsApart a → Reach act Proper r' later →
      later.sock = false ∧ later.tcp.sockRemote = true ∧ ¬ later.Released := by
  constructor
  · intro stopped r before stop after
    have socks := socks_reach And.left (socks_accepted dst) before
    have closed := (stays_reach socks (after.mono And.left)).1 (socks.stopped stop)
    have apart := apart_reach (socks_accepted dst) (by intro open'; cases open')
      (before.trans after)
    exact (socks_reach And.left socks after).released closed (apart closed)
  · intro r a r' later before proper stepped meets after
    have socks := socks_reach id (socks_accepted dst) before
    have sockets := sockets_act socks proper stepped
    have both : r'.sock = false ∧ r'.tcp.sockRemote = true := by
      by_cases stop : r.RunsStop a
      · have opened : r.tcp.sockRemote = true := by
          by_contra none
          exact meets ⟨fun _ => by simpa using none, fun direct => absurd direct stop.not_direct⟩
        exact ⟨sockets.stop stop, (sockets.sockRemote stop.not_direct).trans opened⟩
      · by_cases direct : r.BeginsDirect a
        · have closed : r.sock = false := by
            by_contra open'
            exact meets ⟨fun there => absurd there stop, fun _ => by simpa using open'⟩
          exact ⟨(sockets.sock stop).trans closed, sockets.direct direct⟩
        · exact absurd ⟨fun there => absurd there stop, fun there => absurd there direct⟩ meets
    obtain ⟨closed, opened⟩ := stays_reach sockets.socks after
    refine ⟨closed both.1, opened both.2, ?_⟩
    intro released
    rw [released.sockRemote] at opened
    exact absurd (opened both.2) nofun

/-- Greeting and request of a blocked host, and the last reply; a message for the client is
written, bytes of the client are read, and the timer stops the relay. -/
def stoppedBlocked : List RelayAction :=
  [.event true (.arrive (.stream [5, 1, 0])), .event true (.startup true),
    .event true (.startup true), .event true (.arrive (.stream [5, 1, 0, 1, 8, 8, 8, 8, 0, 53])),
    .event true (.request true), .event true (.startup true), .event true (.startSend 0),
    .call (.sendData ⟨1, .dataTcp, [7, 8]⟩), .event true .task, .event true (.startSend 0),
    .event true (.take 2), .event true (.sent 0), .event true (.arrive (.stream [9])),
    .event true .read, .call .stopRelay, .event true .task]

/-- A relay that has no direct connection and begins none. -/
theorem KeepsApart.of_none {a : RelayAction} (none : r.tcp.sockRemote = false)
    (other : r.startup ≠ .directResolve) : r.KeepsApart a := by
  refine ⟨fun _ => none, fun direct => ?_⟩
  cases a with
  | call => cases direct
  | event alive ev =>
    cases ev with
    | startup ok =>
      cases ok with
      | true => exact absurd direct other
      | false => cases direct
    | _ => cases direct

/-- A blocked session that was written to and read from. -/
theorem released_iff_blocked : ∃ r, Reach act (fun r a => r.Proper a ∧ r.KeepsApart a)
    (accepted default) r ∧ r.state = .stop ∧ r.log.written = [7, 8] ∧ r.log.readLog = [9] ∧
      r.Released := by
  have born : (accepted default).Born :=
    ⟨⟨rfl, rfl, rfl, rfl, rfl, rfl, rfl, rfl, rfl, rfl, rfl⟩, rfl⟩
  have begun : Reach act (fun r a => r.Proper a ∧ r.KeepsApart a) (accepted default)
      ((accepted default).begin 1) :=
    Reach.refl.tail (a := .call (.begin 1)) ⟨⟨rfl, born⟩, .of_none rfl nofun⟩ rfl
  have rest := @Reach.of_isSome _ _ act
    (fun r a => r.Anytime a ∧ r.tcp.sockRemote = false ∧ r.startup ≠ .directResolve)
    ((accepted default).begin 1) _ stoppedBlocked (by decide +kernel)
  have run := begun.trans (rest.mono fun ⟨free, apart, other⟩ => ⟨free.proper, .of_none apart other⟩)
  exact ⟨_, run, by decide +kernel, by decide +kernel, by decide +kernel,
    (released_iff default).1 run (by decide +kernel) .refl⟩

/-- Greeting, request, direct connection and the last reply; then the timer stops the
relay, and the direction from the client ends. -/
def stoppedDirect : List RelayAction :=
  [.event true (.arrive (.stream [5, 1, 0])), .event true (.startup true),
    .event true (.startup true), .event true (.arrive (.stream [5, 1, 0, 1, 8, 8, 8, 8, 0, 53])),
    .event true (.request false), .event true (.startup true), .event true (.startup true),
    .event true (.startSend 0), .event true (.startup true), .call .stopRelay,
    .event true .task, .event true (.direct false false)]

/-- **A stopped raw_tcp may hold an open connection**: no handler is ready to run, and the
other direction awaits the remote. -/
theorem released_direct : ∃ r, Reach act Proper (accepted default) r ∧ r.state = .stop ∧ r.Idle ∧
    r.tcp.sockRemote = true ∧ r.tcp.toClient = .reading ∧ ¬ r.Released := by
  have born : (accepted default).Born :=
    ⟨⟨rfl, rfl, rfl, rfl, rfl, rfl, rfl, rfl, rfl, rfl, rfl⟩, rfl⟩
  have begun : Reach act Proper (accepted default) ((accepted default).begin 1) :=
    Reach.refl.tail (a := .call (.begin 1)) ⟨rfl, born⟩ rfl
  have rest := @Reach.of_isSome _ _ act Anytime ((accepted default).begin 1) _ stoppedDirect
    (by decide +kernel)
  refine ⟨_, begun.trans (rest.mono Anytime.proper), by decide +kernel, ?_, by decide +kernel,
    by decide +kernel, ?_⟩
  · exact ⟨by decide +kernel, by decide +kernel, by decide +kernel, by decide +kernel,
      by decide +kernel, by decide +kernel, by decide +kernel, by decide +kernel⟩
  · intro released
    exact absurd released.sockRemote (by decide +kernel)

end Relay

end SslSocks
