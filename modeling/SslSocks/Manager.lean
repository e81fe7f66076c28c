import SslSocks.Relay
import SslSocks.Lib.Fallible
import SslSocks.Lib.Transition

/-!
# `relay_manager` and what surrounds it

A `Node` is one `relay_manager` with the relays made for it, the handlers posted
to its strand, its timer and the acceptor that feeds it. `Node.step` is one
handler: of the manager's strand, of the timer, of the acceptor or of a relay's
strand. In the manager's own strand `add_request` runs at once, elsewhere it is
posted.

A handler may throw: the result is then `Fallible`'s exception, with the state as
far as the handler got, and the run goes on from it. A null pointer that is
dereferenced sets `crashed`, after which nothing happens.

The fields `requests`, `answered`, `issued` and `allocated` are history and are
read by no function.
-/

namespace SslSocks

open Lib

/-- `udp_timeout`. -/
structure UdpTimeout where
  session : UInt32
  timeout : Nat
  deriving DecidableEq, Repr

/-- `relay_manager::manager_impl`. -/
structure Manager where
  ssl : Option RelayId := none
  relays : Map UInt32 (Option RelayId) := ∅
  udpSend : Option RelayId := none
  srcs : Map Endpoint UdpTimeout := ∅
  udpSrcs : Map UInt32 Endpoint := ∅
  state : RelayState := .start
  session : UInt32 := 1

/-- A handler posted to the manager's strand. The relay named by `addRequest` and
`addResponse` is the one that posted it; the code does not pass it on. -/
inductive ManagerTask
  | addRequest (relay : RelayId) (buf : Frame)
  | addResponse (relay : RelayId) (buf : Frame)
  | addLocalRawTcp (relay : RelayId)
  | sendUdpData (src : Endpoint) (buf : Frame)
  deriving DecidableEq

/-- A call of `add_request`: the ssl relay that got the message, if one did, the
relay that asked, if it was one, and the message. -/
structure Request where
  ssl : Option RelayId
  relay : Option RelayId
  buf : Frame
  deriving DecidableEq

/-- A session id handed out. -/
inductive Issue
  | tcp (session : UInt32) (relay : RelayId)
  | udp (session : UInt32) (src : Endpoint)
  deriving DecidableEq

/-- Which of the calls that may throw do so in a handler: `local_endpoint`, the
construction of an `ssl_relay` (and of a second one, if the handler comes to it),
the construction of a `raw_udp` and the socket calls of its `start_relay`. -/
structure Throws where
  localEndpoint : Bool := false
  newSsl : Bool := false
  newSslAgain : Bool := false
  newUdp : Bool := false
  startUdp : Bool := false
  deriving DecidableEq

structure Node extends Manager where
  type : ServerType
  /-- The relays made so far are those below `next`. -/
  objs : RelayId → Relay
  next : RelayId
  strand : List ManagerTask := []
  /-- The timer coroutine and the acceptor own the manager. -/
  timer : Bool := true
  held : Bool := true
  crashed : Bool := false
  requests : List Request := []
  answered : List (RelayId × Frame) := []
  issued : List Issue := []
  allocated : Nat := 0

/-- `transparent_udp_recv_on`: the original destination, if the control message
brings it, and the datagram, cut to the buffer; `none` is a failed `recvmsg`,
whose -1 becomes the length. -/
def transparentUdpRecvOn (dst : Option Endpoint) (received : Option (List UInt8)) : Frame :=
  match received with
  | some data => ⟨0, .dataUdp, udpHead dst ++ data.take (readBufferSize - udpOffset)⟩
  | none => ⟨0, .dataUdp, (udpHead dst).take (udpOffset - 1)⟩

namespace Node

/-- Somebody owns the manager; the handlers in its strand do. -/
def alive (n : Node) : Bool := n.held || n.timer || !n.strand.isEmpty

/-! ## Relays -/

def call (n : Node) (r : RelayId) (c : RelayCall) : Node :=
  { n with objs := Function.update n.objs r ((n.objs r).call c) }

/-- A new relay; its number is the old `next`. -/
def make (n : Node) (relay : Relay) : Node :=
  { n with objs := Function.update n.objs n.next relay, next := n.next + 1 }

def newRawTcp (n : Node) (target : Option (Host × String)) : Relay :=
  { kind := .rawTcp, type := n.type, tcp := { target } }

/-- The raw_tcp of an accepted connection. -/
def newAccepted (n : Node) (dst : Endpoint) : Relay :=
  { n.newRawTcp none with sock := true, tcp.localEndpoint := dst }

def newRawUdp (n : Node) (session : UInt32) : Relay :=
  { kind := .rawUdp, type := n.type, session, sock := true }

/-- A local `ssl_relay` after `start_relay`. -/
def newSslRelay (n : Node) : Relay := { kind := .ssl, type := n.type, startup := .resolve }

/-! ## `relay_manager` -/

/-- `stop_manager`. -/
def stopManager (n : Node) : Node :=
  let n := n.relays.sweep (fun n _ relay => relay.elim n fun r => n.call r .stopRelay) n
  { n with relays := ∅, state := .stop }

/-- `ssl == nullptr || ssl->state == RELAY_STOP`. -/
def sslDown (n : Node) : Bool :=
  match n.ssl with
  | none => true
  | some k => (n.objs k).state = .stop

/-- `ssl->send_data(buf)`. -/
def sendSsl (n : Node) (relay : Option RelayId) (buf : Frame) : Node :=
  match n.ssl with
  | none => n
  | some k => { n.call k (.sendData buf) with requests := n.requests ++ [⟨some k, relay, buf⟩] }

/-- `add_request`, in the strand. -/
def addRequest (n : Node) (newSslThrows : Bool) (relay : Option RelayId) (buf : Frame) :
    Fallible Node :=
  if n.sslDown then
    let lost := { n with requests := n.requests ++ [⟨none, relay, buf⟩] }
    if n.type = .remoteServer then .ok lost.stopManager
    else if newSslThrows then .error lost
    else .ok ({ n.make n.newSslRelay with ssl := some n.next }.sendSsl relay buf)
  else .ok (n.sendSsl relay buf)

/-- A raw_tcp calls `add_request` in the manager's strand. -/
def relayRequest (n : Node) (newSslThrows : Bool) (r : RelayId) (buf : Frame) : Fallible Node :=
  (n.call r (.emit buf)).addRequest newSslThrows (some r) buf

/-- The try block of `impl_start_transparent`. -/
def tryStartTransparent (n : Node) (throws : Throws) (r : RelayId) : Fallible Node :=
  -- `local_endpoint()` throws on a closed socket
  if throws.localEndpoint ∨ (n.objs r).sock = false then .error n
  else
    (n.relayRequest throws.newSsl r
      ⟨(n.objs r).session, .startTcp, parseAddr (n.objs r).tcp.localEndpoint⟩).andThen fun n =>
    .ok (n.call r .startRead)

/-- `impl_start_transparent`. -/
def implStartTransparent (n : Node) (throws : Throws) (r : RelayId) : Fallible Node :=
  match n.tryStartTransparent throws r with
  | .ok n => .ok n
  | .error n =>
    (n.relayRequest throws.newSslAgain r ⟨(n.objs r).session, .stopTcp, []⟩).andThen fun n =>
    .ok (n.call r .stopRelay)

/-- `raw_tcp::start_relay`. -/
def startRawTcp (n : Node) (throws : Throws) (r : RelayId) (session : UInt32) : Fallible Node :=
  let n := n.call r (.begin session)
  if n.type = .localTransparent then n.implStartTransparent throws r else .ok n

/-- `add_local_raw_tcp`. -/
def addLocalRawTcp (n : Node) (throws : Throws) (r : RelayId) : Fallible Node :=
  let session := n.session
  let n := { n with session := n.session + 1, allocated := n.allocated + 1 }
  if session ∈ n.relays then .ok n
  else
    { n with
      relays := n.relays.insert session (some r)
      issued := n.issued ++ [Issue.tcp session r] }.startRawTcp throws r session

/-- `add_remote_raw_tcp`. -/
def addRemoteRawTcp (n : Node) (throws : Throws) (session : UInt32) (target : Host × String) :
    Fallible Node :=
  { n.make (n.newRawTcp (some target)) with
    relays := n.relays.insert session (some n.next) }.startRawTcp throws n.next session

/-- A `raw_udp` is constructed, given to its owner by `keep`, and started. -/
def startRawUdp (n : Node) (throws : Throws) (session : UInt32) (keep : Node → Node) :
    Fallible Node :=
  if throws.newUdp then .error n
  else
    let r := n.next
    let n := keep (n.make (n.newRawUdp session))
    if throws.startUdp then .error n else .ok (n.call r .startUdp)

/-- `start_local_udp`. -/
def startLocalUdp (n : Node) (throws : Throws) : Fallible Node :=
  n.startRawUdp throws 0 fun m => { m with udpSend := some n.next }

/-- A call on `_udp_send`. -/
def callUdpSend (n : Node) (c : RelayCall) : Node :=
  match n.udpSend with
  | none => { n with crashed := true }
  | some u => n.call u c

/-- `_udp_send->state == RELAY_STOP`. -/
def udpSendStopped (n : Node) : Bool :=
  match n.udpSend with
  | none => false
  | some u => (n.objs u).state = .stop

/-- `if (_udp_send->state == RELAY_STOP) start_local_udp();` -/
def restartUdp (n : Node) (throws : Throws) : Fallible Node :=
  if n.udpSendStopped then n.startLocalUdp throws else .ok n

/-- `local_transparent_send_udp`. -/
def localTransparentSendUdp (n : Node) (throws : Throws) (buf : Frame) : Fallible Node :=
  (n.restartUdp throws).andThen fun n => .ok (n.callUdpSend (.sendData buf))

/-- `_relays[session]`: a missing key gets a null pointer. -/
def relaySlot (n : Node) (session : UInt32) : Node :=
  if session ∈ n.relays then n else { n with relays := n.relays.insert session none }

/-- `add_remote_raw_udp`; the new relay has the number `next`. -/
def addRemoteRawUdp (n : Node) (throws : Throws) (session : UInt32) : Fallible Node :=
  let r := n.next
  (n.startRawUdp throws session id).andThen fun n =>
  .ok { n with relays := n.relays.insert session (some r) }

/-- `remote_server_send_udp`. -/
def remoteServerSendUdp (n : Node) (throws : Throws) (buf : Frame) : Fallible Node :=
  let n := n.relaySlot buf.session
  let fresh := n.next
  match (n.relays.lookup buf.session).join with
  | some r =>
    if (n.objs r).state = .stop then
      (n.addRemoteRawUdp throws buf.session).andThen fun n =>
      .ok (n.call fresh (.sendData buf))
    else .ok (n.call r (.sendData buf))
  | none =>
    (n.addRemoteRawUdp throws buf.session).andThen fun n =>
    .ok (n.call fresh (.sendData buf))

/-- `remote_server_start_tcp`. -/
def remoteServerStartTcp (n : Node) (throws : Throws) (buf : Frame) : Fallible Node :=
  let n := n.relaySlot buf.session
  let n := (n.relays.lookup buf.session).join.elim n fun r => n.call r .stopRelay
  match parseAddress buf.payload buf.payload.length with
  | .error _ => .error n
  | .ok target => n.addRemoteRawTcp throws buf.session target

/-- The value of `_srcs[src]`. -/
def source (n : Node) (src : Endpoint) : UdpTimeout := (n.srcs.lookup src).getD ⟨0, 0⟩

/-- `_srcs[_udp_srcs[session]].timeout = TIMEOUT`. -/
def touchSource (n : Node) (session : UInt32) : Node :=
  let src := (n.udpSrcs.lookup session).getD default
  { n with
    udpSrcs := if session ∈ n.udpSrcs then n.udpSrcs else n.udpSrcs.insert session default
    srcs := n.srcs.insert src { n.source src with timeout := timeoutTicks } }

/-- The DATA_TCP branch of `add_response`. -/
def responseDataTcp (n : Node) (throws : Throws) (buf : Frame) : Fallible Node :=
  match n.relays.lookup buf.session with
  | none => .ok n
  | some none => .ok { n with crashed := true }
  | some (some r) =>
    if (n.objs r).state = .stop then
      { n with relays := n.relays.erase buf.session }.addRequest throws.newSsl none
        ⟨buf.session, .stopTcp, []⟩
    else .ok (n.call r (.sendData buf))

/-- The STOP_TCP branch of `add_response`. -/
def responseStopTcp (n : Node) (buf : Frame) : Node :=
  match n.relays.lookup buf.session with
  | none => n
  | some none => { n with crashed := true }
  | some (some r) => { n.call r .stopRelay with relays := n.relays.erase buf.session }

/-- `add_response`. -/
def addResponse (n : Node) (throws : Throws) (relay : RelayId) (buf : Frame) : Fallible Node :=
  let n := { n with answered := n.answered ++ [(relay, buf)] }
  match buf.cmd with
  | .dataTcp => n.responseDataTcp throws buf
  | .dataUdp =>
    match n.type with
    | .localTransparent =>
      (n.localTransparentSendUdp throws buf).andThen fun n => .ok (n.touchSource buf.session)
    | .remoteServer => n.remoteServerSendUdp throws buf
    | .localServer => .ok n
  | .startTcp => n.remoteServerStartTcp throws buf
  | .stopTcp => .ok (n.responseStopTcp buf)
  | _ => .ok n

/-- `sess.session = ++_session` for the entry `old` of a source. -/
def assignSession (n : Node) (src : Endpoint) (old : UdpTimeout) : Node :=
  { n with
    session := n.session + 1
    srcs := n.srcs.insert src { old with session := n.session + 1 }
    allocated := n.allocated + 1
    issued := n.issued ++ [Issue.udp (n.session + 1) src] }

/-- `_udp_send->add_peer(session, src)` and `_udp_srcs.insert`, which keeps an entry
that is there. -/
def addSource (n : Node) (session : UInt32) (src : Endpoint) : Node :=
  { n.callUdpSend (.addPeer session src) with
    udpSrcs := if session ∈ n.udpSrcs then n.udpSrcs else n.udpSrcs.insert session src }

/-- The part of `send_udp_data` for a source without a session. -/
def newSource (n : Node) (throws : Throws) (src : Endpoint) (old : UdpTimeout) : Fallible Node :=
  ((n.assignSession src old).restartUdp throws).andThen fun m =>
  .ok (m.addSource (n.session + 1) src)

/-- The end of `send_udp_data`: the source gets its time back and the message goes on
under its session. -/
def forwardUdp (n : Node) (throws : Throws) (src : Endpoint) (buf : Frame) : Fallible Node :=
  { n with
    srcs := n.srcs.insert src { n.source src with timeout := timeoutTicks } }.addRequest
      throws.newSsl none { buf with session := (n.source src).session }

/-- `send_udp_data`. -/
def sendUdpData (n : Node) (throws : Throws) (src : Endpoint) (buf : Frame) : Fallible Node :=
  (if (n.source src).session = 0 then n.newSource throws src (n.source src)
    else .ok n).andThen fun n => n.forwardUdp throws src buf

def runTask (n : Node) (throws : Throws) : ManagerTask → Fallible Node
  | .addRequest relay buf => n.addRequest throws.newSsl (some relay) buf
  | .addResponse relay buf => n.addResponse throws relay buf
  | .addLocalRawTcp relay => n.addLocalRawTcp throws relay
  | .sendUdpData src buf => n.sendUdpData throws src buf

/-! ## The timer -/

/-- An iteration of the loop over `_srcs`. -/
def visitSource (n : Node) (src : Endpoint) (entry : UdpTimeout) : Node :=
  if entry.timeout - 1 = 0 then
    { n with udpSrcs := n.udpSrcs.erase entry.session, srcs := n.srcs.erase src }.callUdpSend
      (.delPeer entry.session)
  else { n with srcs := n.srcs.insert src { entry with timeout := entry.timeout - 1 } }

/-- An iteration of the loop over `_relays`. -/
def visitRelay (n : Node) (session : UInt32) (relay : Option RelayId) : Node :=
  match relay with
  | none => { n with relays := n.relays.erase session }
  | some r =>
    if (n.objs r).timeoutDown.2 = 0 then
      { n.call r .timeoutDown with relays := n.relays.erase session }
    else n.call r .timeoutDown

def sweepSources (n : Node) : Node := n.srcs.sweep visitSource n

def sweepRelays (n : Node) : Node := n.relays.sweep visitRelay n

/-- `_udp_srcs.clear(); _srcs.clear(); _udp_send->del_peer(0);` -/
def clearSources (n : Node) : Node :=
  { n with udpSrcs := ∅, srcs := ∅ }.callUdpSend (.delPeer 0)

/-- `_ssl->timeout_down()`, if there is an `_ssl`. -/
def sslTimeout (n : Node) : Node :=
  match n.ssl with
  | none => n
  | some k => n.call k .timeoutDown

/-- `_ssl != nullptr && _ssl->timeout_down() == 0`. -/
def sslExpires (n : Node) : Bool :=
  match n.ssl with
  | none => false
  | some k => (n.objs k).timeoutDown.2 = 0

/-- The test of `_state` that starts a round. -/
def endTimer (n : Node) : Node :=
  if n.state = .stop then { n with timer := false } else n

/-- A round of `start_timer` after its wait, up to the next one. -/
def tick (n : Node) : Node :=
  if n.sslExpires ∧ n.type = .remoteServer then { n.sslTimeout.stopManager with timer := false }
  else
    (if n.sslExpires then n.sslTimeout.clearSources
      else n.sslTimeout).sweepSources.sweepRelays.endTimer

/-! ## Steps -/

/-- What a relay's handler asked of the manager. -/
def ask (n : Node) (r : RelayId) : RelayOut → Node
  | .request buf => { n with strand := n.strand ++ [.addRequest r buf] }
  | .response buf => { n with strand := n.strand ++ [.addResponse r buf] }
  | .crash => { n with crashed := true }

end Node

inductive NodeAction
  /-- `local_accept`: a connection whose local end is `dst`. -/
  | accept (dst : Endpoint)
  /-- `local_udp_accept`. -/
  | udpPacket (src : Endpoint) (dst : Option Endpoint) (received : Option (List UInt8))
  /-- The first handler of the manager's strand. -/
  | manager (throws : Throws)
  | tick
  /-- `remote_accept` goes on to the next connection. -/
  | release
  | relay (r : RelayId) (ev : RelayEvent)
  deriving DecidableEq

/-- One handler. -/
def Node.step (n : Node) (a : NodeAction) : Option Node :=
  if n.crashed then none
  else
    match a with
    | .accept dst =>
      if n.type = .remoteServer then none
      else
        some { n.make (n.newAccepted dst) with
          strand := n.strand ++ [.addLocalRawTcp n.next] }
    | .udpPacket src dst received =>
      if n.type = .remoteServer then none
      else
        some { n with
          strand := n.strand ++ [.sendUdpData src (transparentUdpRecvOn dst received)] }
    | .manager throws =>
      match n.strand with
      | [] => none
      | task :: strand => some ({ n with strand }.runTask throws task).state
    | .tick => if n.timer then some n.tick else none
    | .release =>
      if n.type = .remoteServer ∧ n.held then some { n with held := false } else none
    | .relay r ev =>
      if r < n.next then
        match (n.objs r).step n.alive ev with
        | none => none
        | some (relay, outs) =>
          some (outs.foldl (fun n out => n.ask r out)
            { n with objs := Function.update n.objs r relay })
      else none

/-- `start_accept` on the local side, after `start_local_udp`. -/
def Node.initLocal (type : ServerType) : Node where
  type
  objs := fun _ => { kind := .rawUdp, type, sock := true, inbox := [.startInit] }
  next := 1
  udpSend := some 0

/-- `remote_accept` on a new connection. -/
def Node.initRemote : Node where
  type := .remoteServer
  objs := fun _ =>
    { kind := .ssl, type := .remoteServer, sock := true, startup := .handshake }
  next := 1
  ssl := some 0

end SslSocks
