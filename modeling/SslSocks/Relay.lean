import SslSocks.Address
import SslSocks.FrameReader
import SslSocks.Lib.AssocMap

/-!
# The relays: `base_relay`, `raw_tcp`, `raw_udp` and `ssl_relay`

A `Relay` is one relay object with its socket, its await points and the handlers
posted to its strand. The three classes share the queue and the four-state
machine of `base_relay`, so they are one structure with a `kind`, whose parts
`tcp`, `udp` and `ssl` stay at their initial values in the other kinds.

`Relay.step` performs one handler or completion of the relay's strand, and
`Relay.call` is what the manager does to a relay from its own strand: `send_data`,
`stop_relay`, `add_peer` and `del_peer` only post a handler there, `timeout_down`
counts at once, and the start functions run up to their first await.
-/

namespace SslSocks

open Lib

/-- Relays are numbered in the order in which they are made. -/
abbrev RelayId := Nat

inductive RelayKind
  | rawTcp
  | rawUdp
  | ssl
  deriving DecidableEq, Repr

/-- A handler posted to a relay's strand. `startInit` is the last handler of
`raw_udp::start_relay` and of `impl_start_transparent`. -/
inductive RelayTask
  | sendData (buf : Frame)
  | stopRelay
  | startInit
  | addPeer (session : UInt32) (peer : Endpoint)
  | delPeer (session : UInt32)
  deriving DecidableEq

/-- The await point of a start-up coroutine. -/
inductive Startup
  | idle
  /-- `impl_start_local`: greeting, its reply, the request, the direct connection
  of a host that is not blocked, the last reply. -/
  | greeting
  | greetingReply
  | request
  | directResolve
  | directConnect
  | okReply
  /-- `impl_start_remote` and `ssl_relay::start_relay`. -/
  | resolve
  | connect
  | handshake
  deriving DecidableEq, Repr

/-- The `internal_send_data` under way: the bytes not yet taken by the stream, or
the datagram, whether it has gone, and the window sent (`none`: the length of the
message is below that of the address prefix, so the window is not in `_data`). -/
inductive Sending
  | stream (rest : List UInt8)
  | datagram (dst : Endpoint) (window : Option (List UInt8)) (gone : Bool)
  deriving DecidableEq

/-- A completed read whose handler has not run. -/
inductive Arrival
  | stream (bytes : List UInt8)
  | datagram (peer : Endpoint) (bytes : List UInt8)
  deriving DecidableEq

/-- One direction of `impl_local_relay`. -/
inductive Loop
  | off
  | reading
  | writing
  deriving DecidableEq, Repr

/-- `raw_tcp::tcp_impl` beside `_sock`. -/
structure TcpImpl where
  /-- `_sock_remote` is open; the two directions between the sockets. -/
  sockRemote : Bool := false
  toClient : Loop := .off
  toRemote : Loop := .off
  /-- `_sock.local_endpoint()`: the address the client meant. -/
  localEndpoint : Endpoint := default
  /-- `_dst_host`, `_dst_service`. -/
  target : Option (Host × String) := none

/-- `raw_udp::udp_impl` beside `_sock`. -/
structure UdpImpl where
  peers : Map UInt32 Endpoint := ∅
  localAddr : Endpoint := default
  remoteAddr : Endpoint := default
  /-- The address `_sock` is bound to. -/
  bound : Option Endpoint := none

/-- `ssl_relay::ssl_impl`: the read loop's place in the stream; the handshake is
done; shutdown has begun on it; the `stop_relay` coroutines not yet begun and
those that await their shutdown. -/
structure SslImpl where
  reader : Reader := .header
  established : Bool := false
  shut : Bool := false
  stops : Nat := 0
  closing : Nat := 0

/-- What happened to a relay; no function reads it. -/
structure RelayLog where
  /-- Messages given to `send_data`, pushed by it, passed to `internal_send_data`. -/
  given : List Frame := []
  accepted : List Frame := []
  passed : List Frame := []
  /-- The manager called `stop_relay`, and gave it a message after that. -/
  stopCalled : Bool := false
  late : Bool := false
  /-- Bytes the stream took from the send queue, bytes the read loop received. -/
  written : List UInt8 := []
  readLog : List UInt8 := []
  /-- Datagrams sent: from, to, payload. -/
  sent : List (Option Endpoint × Endpoint × List UInt8) := []
  /-- Messages given to `add_request` and to `add_response`. -/
  emitted : List Frame := []
  delivered : List Frame := []

structure Relay where
  kind : RelayKind
  type : ServerType
  session : UInt32 := 0
  state : RelayState := .uninit
  bufs : List Frame := []
  timeout : Nat := timeoutTicks
  /-- Handlers posted to the strand, in order. -/
  inbox : List RelayTask := []
  /-- `start_send` coroutines not yet begun. -/
  activations : Nat := 0
  sending : Option Sending := none
  startup : Startup := .idle
  /-- The read loop runs; a read that has completed. -/
  reading : Bool := false
  arrived : Option Arrival := none
  /-- `_sock` is open (ssl: its lowest layer). -/
  sock : Bool := false
  tcp : TcpImpl := {}
  udp : UdpImpl := {}
  ssl : SslImpl := {}
  log : RelayLog := {}

/-- What a relay does to its manager: `add_request`, `add_response`, or a call
through a null pointer. -/
inductive RelayOut
  | request (buf : Frame)
  | response (buf : Frame)
  | crash
  deriving DecidableEq

/-! ## Datagrams in a message -/

/-- The bytes that `udp_data_buffer()` leaves for the address. -/
def udpOffset : Nat := 19

/-- The bytes of `_data` before the window: zeros, where `parse_addr` writes. -/
def udpHead (addr : Option Endpoint) : List UInt8 :=
  let record := addr.elim [] parseAddr
  record ++ List.replicate (udpOffset - record.length) 0

theorem length_udpHead (addr : Option Endpoint) : (udpHead addr).length = udpOffset := by
  have record : (addr.elim [] parseAddr).length ≤ udpOffset := by
    cases addr with
    | none => exact Nat.zero_le _
    | some e =>
      rcases length_parseAddr e with short | long
      · exact short ▸ by decide
      · exact long ▸ by decide
  unfold udpHead
  simp only [List.length_append, List.length_replicate]
  omega

/-- `udp_data_buffer()`. -/
def udpWindow (buf : Frame) : Option (List UInt8) :=
  if udpOffset ≤ buf.payload.length then some (buf.payload.drop udpOffset) else none

/-- What the manager does to a relay from its own strand. -/
inductive RelayCall
  | sendData (buf : Frame)
  | stopRelay
  | timeoutDown
  | addPeer (session : UInt32) (peer : Endpoint)
  | delPeer (session : UInt32)
  /-- The raw_tcp gets its session and starts. -/
  | begin (session : UInt32)
  /-- `impl_start_transparent` calls `add_request`, and after `START_TCP` starts the
  read loop and posts the switch to `RELAY_INIT`. -/
  | emit (buf : Frame)
  | startRead
  /-- `raw_udp::start_relay`. -/
  | startUdp
  deriving DecidableEq

namespace Relay

/-! ## Calls from the manager's strand -/

def post (r : Relay) (task : RelayTask) : Relay := { r with inbox := r.inbox ++ [task] }

/-- `send_data`. -/
def sendData (r : Relay) (buf : Frame) : Relay :=
  { r with
    inbox := r.inbox ++ [.sendData buf]
    log.given := r.log.given ++ [buf]
    log.late := r.log.late || r.log.stopCalled }

/-- `stop_relay`. -/
def stopRelay (r : Relay) : Relay :=
  match r.kind with
  | .ssl => { r with ssl.stops := r.ssl.stops + 1, log.stopCalled := true }
  | _ => { r with inbox := r.inbox ++ [.stopRelay], log.stopCalled := true }

/-- `timeout_down`, with the value it returns. -/
def timeoutDown (r : Relay) : Relay × Nat :=
  if r.timeout = 0 then (r, 0)
  else if r.timeout - 1 = 0 then ({ r with timeout := 0 }.stopRelay, 0)
  else ({ r with timeout := r.timeout - 1 }, r.timeout - 1)

/-- `session` is set and `start_relay` called; `impl_start_transparent` has no
await. -/
def begin (r : Relay) (session : UInt32) : Relay :=
  { r with
    session
    startup :=
      match r.type with
      | .localServer => .greeting
      | .remoteServer => .resolve
      | .localTransparent => r.startup }

def startRead (r : Relay) : Relay :=
  { r with reading := true, inbox := r.inbox ++ [.startInit] }

/-- The end of `raw_udp::start_relay`: on the remote side the socket is bound and
`impl_start_recv` runs. -/
def startUdp (r : Relay) : Relay :=
  if r.type = .remoteServer then
    { r with
      udp.bound := some ⟨.v6 (Vector.replicate 16 0), 0⟩
      reading := true
      inbox := r.inbox ++ [.startInit] }
  else r.post .startInit

def call (r : Relay) : RelayCall → Relay
  | .sendData buf => r.sendData buf
  | .stopRelay => r.stopRelay
  | .timeoutDown => r.timeoutDown.1
  | .addPeer session peer => r.post (.addPeer session peer)
  | .delPeer session => r.post (.delPeer session)
  | .begin session => r.begin session
  | .emit buf => { r with log.emitted := r.log.emitted ++ [buf] }
  | .startRead => r.startRead
  | .startUdp => r.startUdp

/-! ## Handlers of the relay's own strand -/

/-- `reset_timeout`. -/
def resetTimeout (r : Relay) : Relay := { r with timeout := timeoutTicks }

/-- The handler posted by `raw_tcp::stop_relay` and `raw_udp::stop_relay`. -/
def stopTask (r : Relay) : Relay :=
  match r.kind with
  | .rawTcp => if r.state = .stop then r else { r with state := .stop, sock := false }
  | _ => { r with state := .stop, sock := false, udp.bound := none }

/-- `stop_relay` called in the strand: it runs at once, or spawns (ssl). -/
def stopHere (r : Relay) : Relay :=
  match r.kind with
  | .ssl => { r with ssl.stops := r.ssl.stops + 1 }
  | _ => r.stopTask

/-- The coroutine of `ssl_relay::stop_relay` up to `async_shutdown`. -/
def sslStopTask (r : Relay) : Relay :=
  { r with
    state := .stop
    ssl.stops := r.ssl.stops - 1
    ssl.shut := r.ssl.shut || r.ssl.established
    ssl.closing := r.ssl.closing + 1 }

/-- The handler posted by `send_data`. -/
def sendDataTask (r : Relay) (buf : Frame) : Relay :=
  if r.state = .stop then r
  else
    let r := { r with bufs := r.bufs ++ [buf], log.accepted := r.log.accepted ++ [buf] }
    if r.state = .init ∧ r.bufs.length = 1 then { r with activations := r.activations + 1 } else r

/-- `state = RELAY_INIT; start_send();` -/
def enterInit (r : Relay) : Relay :=
  { r with state := .init, activations := r.activations + 1 }

/-- The handler posted by `add_peer`. -/
def addPeerTask (r : Relay) (session : UInt32) (peer : Endpoint) : Relay :=
  { r with udp.peers := r.udp.peers.insert session peer }

/-- The handler posted by `del_peer`; session 0 stands for all. -/
def delPeerTask (r : Relay) (session : UInt32) : Relay :=
  { r with udp.peers := if session = 0 then ∅ else r.udp.peers.erase session }

def runTask (r : Relay) : RelayTask → Relay
  | .sendData buf => r.sendDataTask buf
  | .stopRelay => r.stopTask
  | .startInit => r.enterInit
  | .addPeer session peer => r.addPeerTask session peer
  | .delPeer session => r.delPeerTask session

/-- All calls of `rebind` succeed. A socket of `udp::v6()` is not bound to an IPv4
endpoint. -/
def rebinds (addr : Endpoint) (done : Nat) : Bool := 5 ≤ done && addr.addr.isV6

/-- `_sock.close(); _sock.open(udp::v6()); _sock.set_option(); _sock.set_option();
_sock.bind(addr);` of which `done` calls succeed, if the last one can. -/
def rebind (r : Relay) (addr : Endpoint) (done : Nat) : Relay :=
  if done = 0 then r
  else if done = 1 then { r with sock := false, udp.bound := none }
  else if rebinds addr done then { r with sock := true, udp.bound := some addr }
  else { r with sock := true, udp.bound := none }

/-- `get_send_data_addr`; an error is an exception. -/
def getSendDataAddr (r : Relay) (buf : Frame) (done : Nat) : Except Relay (Relay × Endpoint) :=
  match r.type with
  | .remoteServer =>
    .ok ({ r with udp.remoteAddr := getDataAddr buf.payload }, getDataAddr buf.payload)
  | .localTransparent =>
    let reAddr := getDataAddr buf.payload
    -- `_local` is set before the calls that may throw
    let moved := r.udp.localAddr ≠ reAddr
    let r := if moved then { r with udp.localAddr := reAddr }.rebind reAddr done else r
    if moved ∧ rebinds reAddr done = false then .error r
    else
      match r.udp.peers.lookup buf.session with
      | some peer => .ok (r, peer)
      | none =>
        .ok ({ r with udp.peers := r.udp.peers.insert buf.session default }, default)
  | .localServer => .ok (r, r.udp.remoteAddr)

/-- `internal_send_data` up to its await. -/
def internalSendData (r : Relay) (buf : Frame) (done : Nat) : Except Relay Relay :=
  match r.kind with
  | .rawTcp => .ok { r with sending := some (.stream buf.payload) }
  | .ssl => .ok { r.resetTimeout with sending := some (.stream buf.encode) }
  | .rawUdp =>
    match r.getSendDataAddr buf done with
    | .ok (r, dst) => .ok { r with sending := some (.datagram dst (udpWindow buf) false) }
    | .error r => .error r

/-- The loop of `start_send` from its test to the next await or the end. -/
def sendLoop (r : Relay) (done : Nat) : Relay :=
  match r.bufs with
  | [] => { r with state := .init }
  | buf :: _ =>
    if r.state = .stop then r
    else
      match { r.resetTimeout with log.passed := r.log.passed ++ [buf] }.internalSendData buf done with
      | .ok r => r
      | .error r => r.stopHere

/-- A `start_send` coroutine begins. -/
def startSend (r : Relay) (done : Nat) : Relay :=
  let r := { r with activations := r.activations - 1 }
  if r.state ≠ .init then r else { r with state := .start }.sendLoop done

/-- `internal_send_data` returned. -/
def sendDone (r : Relay) (done : Nat) : Relay :=
  { r with sending := none, bufs := r.bufs.tail }.sendLoop done

/-- `internal_send_data` threw. -/
def sendThrew (r : Relay) : Relay := { r with sending := none }.stopHere

/-- The stream of the send queue takes bytes: the socket is open and, for ssl, the
connection neither before its handshake nor shut down. -/
def writable (r : Relay) : Bool :=
  match r.kind with
  | .ssl => r.sock && r.ssl.established && !r.ssl.shut
  | _ => r.sock

/-- The catch block of a read loop or a start-up coroutine: a raw_tcp tells the
other end, if the manager is still there, and the relay stops. -/
def caught (r : Relay) (alive : Bool) : Relay × List RelayOut :=
  (r.stopHere,
    if r.kind = .rawTcp ∧ alive then [.request ⟨r.session, .stopTcp, []⟩] else [])

/-- A read is awaited. -/
def awaitsRead (r : Relay) : Bool :=
  r.reading || r.startup = .greeting || r.startup = .request

/-- The size of the buffer it fills. -/
def readSize (r : Relay) : Nat :=
  match r.kind with
  | .ssl => r.ssl.reader.want
  | .rawTcp => if r.reading then readBufferSize else 512
  | .rawUdp => readBufferSize - udpOffset

/-- A read can complete with this. A stream read returns at least one byte. -/
def CanArrive (r : Relay) : Arrival → Prop
  | .stream bytes => r.kind ≠ .rawUdp ∧ bytes ≠ [] ∧ bytes.length ≤ r.readSize
  | .datagram _ bytes => r.kind = .rawUdp ∧ bytes.length ≤ r.readSize

instance (r : Relay) : (arrival : Arrival) → Decidable (r.CanArrive arrival)
  | .stream _ => inferInstanceAs (Decidable (_ ∧ _ ∧ _))
  | .datagram _ _ => inferInstanceAs (Decidable (_ ∧ _))

/-- The read loop goes on with a completed read: `raw_tcp` and `ssl_relay`
`impl_start_read`, `raw_udp` `impl_start_recv`. -/
def readDone (r : Relay) (alive : Bool) : Arrival → Relay × List RelayOut
  | .stream bytes =>
    let heard := { r with arrived := none, log.readLog := r.log.readLog ++ bytes }
    if r.kind = .ssl then
      match r.ssl.reader.feed bytes with
      | .more rd => ({ heard with ssl.reader := rd }, [])
      | .message buf =>
        let heard := { heard.resetTimeout with ssl.reader := .header }
        if alive then (heard, [.response buf.frame]) else ({ heard with reading := false }, [])
      | .threw => { heard with reading := false }.caught alive
      | .overrun => (heard, [.crash])
    -- the null check before `mngr->add_request` has an empty body
    else if alive then (heard.resetTimeout, [.request ⟨r.session, .dataTcp, bytes⟩])
    else (r, [.crash])
  | .datagram peer bytes =>
    if alive then
      ({ r with arrived := none }, [.request ⟨r.session, .dataUdp, udpHead (some peer) ++ bytes⟩])
    else (r, [.crash])

/-- A start-up step other than the request completes. -/
def startupDone (r : Relay) : Option Relay :=
  match r.startup with
  | .idle | .request => none
  | .greeting =>
    if r.arrived.isSome then some { r with startup := .greetingReply, arrived := none } else none
  | .greetingReply => some { r with startup := .request }
  | .directResolve => some { r with startup := .directConnect, tcp.sockRemote := true }
  | .directConnect =>
    some { r.enterInit with
      startup := .okReply
      tcp.toClient := .reading
      tcp.toRemote := .reading }
  | .okReply => some { r with startup := .idle }
  -- a connect opens the socket, and fails when it finds it closed
  | .resolve => some { r with startup := .connect, sock := true }
  | .connect =>
    if r.sock then
      match r.kind with
      | .ssl => some { r with startup := .handshake }
      | _ => some { r.enterInit with startup := .idle, reading := true }
    else none
  | .handshake =>
    some { r.enterInit with startup := .idle, reading := true, ssl.established := true }

/-- A start-up step throws. -/
def startupThrew (r : Relay) (alive : Bool) : Option (Relay × List RelayOut) :=
  if r.startup = .idle ∨ r.arrived.isSome then none
  else some ({ r with startup := .idle }.caught alive)

/-- `impl_start_local` goes on with the bytes of the connect request; `blocked` is
what `gfw.is_blocked` says of the host. -/
def requestDone (r : Relay) (alive blocked : Bool) (buf : List UInt8) :
    Relay × List RelayOut :=
  let r := { r with arrived := none }
  if buf.length < 6 ∨ buf.getD 1 0 ≠ 1 then { r with startup := .idle }.caught alive
  else
    match parseAddress (buf.drop 3) (buf.length - 3) with
    | .error _ => { r with startup := .idle }.caught alive
    | .ok _ =>
      if blocked then
        if alive then
          ({ r.enterInit with startup := .okReply, reading := true },
            [.request ⟨r.session, .startTcp, buf.drop 3⟩])
        else (r, [.crash])
      else ({ r with startup := .directResolve }, [])

/-- One await of `impl_local_relay(toClient)` completes. -/
def directDone (r : Relay) (alive toClient ok : Bool) : Option (Relay × List RelayOut) :=
  let loop := if toClient then r.tcp.toClient else r.tcp.toRemote
  let source := if toClient then r.tcp.sockRemote else r.sock
  let sink := if toClient then r.sock else r.tcp.sockRemote
  let next (l : Loop) :=
    if toClient then { r with tcp.toClient := l } else { r with tcp.toRemote := l }
  match loop, ok with
  | .off, _ => none
  | .reading, true => if source then some (next .writing, []) else none
  | .writing, true => if sink then some (next .reading, []) else none
  | _, false => some ((next .off).caught alive)

end Relay

/-- The handlers and completions of a relay's strand. -/
inductive RelayEvent
  /-- The first posted handler runs. -/
  | task
  /-- ssl: a spawned `stop_relay` begins; its shutdown completes and it closes. -/
  | stop
  | closed
  /-- A `start_send` begins. `done` is for `rebind`, as it is in `sent`. -/
  | startSend (done : Nat)
  /-- The stream takes bytes of the send under way; the datagram goes. -/
  | take (count : Nat)
  | transmit
  /-- `internal_send_data` returns, or throws. -/
  | sent (done : Nat)
  | sendError
  /-- A read completes; its handler runs; it fails. -/
  | arrive (arrival : Arrival)
  | read
  | readError
  /-- A start-up step completes or throws; the connect request is handled. -/
  | startup (ok : Bool)
  | request (blocked : Bool)
  /-- An await of `impl_local_relay` completes or throws. -/
  | direct (toClient ok : Bool)
  deriving DecidableEq

/-- One handler of the relay's strand, with what it asks of the manager; `alive`
is whether the weak reference to the manager still locks. -/
def Relay.handle (alive : Bool) (r : Relay) : RelayEvent → Option (Relay × List RelayOut)
  | .task =>
    match r.inbox with
    | [] => none
    | task :: inbox => some ({ r with inbox }.runTask task, [])
  | .stop => if 0 < r.ssl.stops then some (r.sslStopTask, []) else none
  | .closed =>
    if 0 < r.ssl.closing then
      some ({ r with sock := false, ssl.closing := r.ssl.closing - 1 }, [])
    else none
  | .startSend done => if 0 < r.activations then some (r.startSend done, []) else none
  | .take count =>
    match r.sending with
    | some (.stream rest) =>
      if r.writable ∧ 0 < count ∧ count ≤ rest.length then
        some ({ r with
          sending := some (.stream (rest.drop count))
          log.written := r.log.written ++ rest.take count }, [])
      else none
    | _ => none
  | .transmit =>
    match r.sending with
    | some (.datagram dst (some window) false) =>
      if r.sock then
        some ({ r with
          sending := some (.datagram dst (some window) true)
          log.sent := r.log.sent ++ [(r.udp.bound, dst, window)] }, [])
      else none
    | _ => none
  | .sent done =>
    match r.sending with
    | some (.stream []) | some (.datagram _ _ true) => some (r.sendDone done, [])
    | _ => none
  | .sendError => if r.sending.isSome then some (r.sendThrew, []) else none
  | .arrive arrival =>
    if r.awaitsRead ∧ r.sock ∧ r.arrived.isNone ∧ r.CanArrive arrival then
      some ({ r with arrived := some arrival }, [])
    else none
  | .read =>
    match r.arrived with
    | some arrival => if r.reading then some (r.readDone alive arrival) else none
    | none => none
  | .readError =>
    if r.reading ∧ r.arrived.isNone then some ({ r with reading := false }.caught alive) else none
  | .startup true => r.startupDone.map fun r => (r, [])
  | .startup false => r.startupThrew alive
  | .request blocked =>
    match r.startup, r.arrived with
    | .request, some (.stream buf) => some (r.requestDone alive blocked buf)
    | _, _ => none
  | .direct toClient ok => r.directDone alive toClient ok

/-- The messages given to `add_request`, and those given to `add_response`. -/
def RelayOut.asRequest : RelayOut → Option Frame
  | .request buf => some buf
  | _ => none

def RelayOut.asResponse : RelayOut → Option Frame
  | .response buf => some buf
  | _ => none

/-- The history of what was asked. -/
def Relay.note (r : Relay) (outs : List RelayOut) : Relay :=
  { r with
    log.emitted := r.log.emitted ++ outs.filterMap RelayOut.asRequest
    log.delivered := r.log.delivered ++ outs.filterMap RelayOut.asResponse }

/-- `Relay.handle`, noted. -/
def Relay.step (alive : Bool) (r : Relay) (ev : RelayEvent) :
    Option (Relay × List RelayOut) :=
  (r.handle alive ev).map fun (h, outs) => (h.note outs, outs)

theorem Relay.step_eq_some {alive : Bool} {r r' : Relay} {ev : RelayEvent}
    {outs : List RelayOut} :
    r.step alive ev = some (r', outs) ↔
      ∃ h, r.handle alive ev = some (h, outs) ∧ r' = h.note outs := by
  unfold step
  constructor
  · intro stepped
    obtain ⟨⟨h, outs'⟩, handled, same⟩ := Option.map_eq_some_iff.mp stepped
    cases same
    exact ⟨h, handled, rfl⟩
  · rintro ⟨h, handled, rfl⟩
    rw [handled]
    rfl

/-! ## One relay in any environment -/

inductive RelayAction
  | call (c : RelayCall)
  | event (alive : Bool) (ev : RelayEvent)
  deriving DecidableEq

/-- A step of one relay, whoever makes it. -/
def Relay.act (r : Relay) : RelayAction → Option Relay
  | .call c => some (r.call c)
  | .event alive ev => (r.step alive ev).map Prod.fst

theorem Relay.act_event {alive : Bool} {r r' : Relay} {ev : RelayEvent} :
    r.act (.event alive ev) = some r' ↔
      ∃ h outs, r.handle alive ev = some (h, outs) ∧ r' = h.note outs := by
  unfold act
  constructor
  · intro stepped
    obtain ⟨⟨h, outs⟩, step, rfl⟩ := Option.map_eq_some_iff.mp stepped
    obtain ⟨h', handled, same⟩ := step_eq_some.mp step
    exact ⟨h', outs, handled, same⟩
  · rintro ⟨h, outs, handled, rfl⟩
    exact Option.map_eq_some_iff.mpr ⟨_, step_eq_some.mpr ⟨h, handled, rfl⟩, rfl⟩

end SslSocks
