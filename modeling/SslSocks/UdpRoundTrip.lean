import SslSocks.AddressRecords
import SslSocks.NodeParts

/-!
# A datagram from one end to the other

`captureUdp` and `receiveUdp` fill the array of a `relay_data` as the code does: the
datagram goes behind the place of the address, the length is changed, the address record
is written over the front. `frame_captureUdp` and `frame_receiveUdp` show that the
message is the one the model of the manager and of the relays passes on, and
`udpRoundTrip` that the other end sends the datagram that came in.
-/

namespace SslSocks

open Lib

namespace RelayData

/-! ## The array -/

/-- `relay_data()`: a zeroed object of command `DATA_UDP`. -/
def forUdp : RelayData :=
  { ofSession 0 with head := ⟨0, .dataUdp, UInt64.ofNat readBufferSize⟩ }

/-- `session(session)`. -/
def setSession (buf : RelayData) (session : UInt32) : RelayData :=
  { buf with head.session := session }

/-- `resize_udp(dataLen)`. -/
def resizeUdp (buf : RelayData) (dataLen : UInt64) : RelayData :=
  { buf with head.len := dataLen + UInt64.ofNat udpOffset }

/-- `parse_addr(data_buffer().data(), addr)`. -/
def storeAddr (buf : RelayData) (e : Endpoint) : Option RelayData := buf.store 0 (parseAddr e)

/-- `udp_data_buffer()`; `none` is a length that wraps below zero. -/
def udpDataBuffer (buf : RelayData) : Option (List UInt8) :=
  if udpOffset ≤ buf.dataSize then
    some ((buf.data.drop udpOffset).take (buf.dataSize - udpOffset))
  else none

/-- What the array holds after a datagram was stored, and perhaps an address. -/
structure Holds (buf : RelayData) (dst : Option Endpoint) (bytes : List UInt8) : Prop where
  data : ∃ zeros, buf.data = udpHead dst ++ bytes ++ List.replicate zeros 0
  room : udpOffset + bytes.length ≤ readBufferSize

variable {buf buf' : RelayData} {dst : Option Endpoint} {e : Endpoint} {bytes : List UInt8}

/-- A store that stays inside the array. -/
theorem store_eq_some {off : Nat} (inside : off + bytes.length ≤ readBufferSize) :
    ∃ buf', buf.store off bytes = some buf' ∧ buf'.head = buf.head ∧
      buf'.data = buf.data.take off ++ bytes ++ buf.data.drop (off + bytes.length) := by
  unfold store
  rw [dif_pos inside]
  exact ⟨_, rfl, rfl, rfl⟩

/-- The datagram is stored behind the place of the address. -/
theorem holds_store (room : udpOffset + bytes.length ≤ readBufferSize) :
    ∃ buf, forUdp.store udpOffset bytes = some buf ∧ buf.head = forUdp.head ∧
      buf.Holds none bytes := by
  obtain ⟨buf, stored, head, data⟩ := @store_eq_some forUdp _ _ room
  refine ⟨buf, stored, head, ⟨readBufferSize - (udpOffset + bytes.length), ?_⟩, room⟩
  have front : (forUdp.data).take udpOffset = udpHead none := by
    show List.take _ (List.replicate _ _) = _
    rw [List.take_replicate]
    rfl
  have behind : (forUdp.data).drop (udpOffset + bytes.length) =
      List.replicate (readBufferSize - (udpOffset + bytes.length)) 0 :=
    List.drop_replicate
  rw [data, front, behind]

/-- The address is stored over the zeros before the datagram. -/
theorem Holds.storeAddr (holds : buf.Holds none bytes) (e : Endpoint) :
    ∃ buf', buf.storeAddr e = some buf' ∧ buf'.head = buf.head ∧ buf'.Holds (some e) bytes := by
  obtain ⟨⟨zeros, data⟩, room⟩ := holds
  have short : (parseAddr e).length ≤ udpOffset := by
    have total := length_udpHead (some e)
    rw [udpHead, List.length_append] at total
    exact Nat.le.intro total
  obtain ⟨buf', stored, head, data'⟩ := @store_eq_some buf (parseAddr e) 0 (by omega)
  refine ⟨buf', stored, head, ⟨zeros, ?_⟩, room⟩
  have cut : (udpHead none ++ bytes ++ List.replicate zeros 0).drop (0 + (parseAddr e).length) =
      List.replicate (udpOffset - (parseAddr e).length) 0 ++ bytes ++ List.replicate zeros 0 := by
    have inside : (parseAddr e).length ≤ (udpHead none).length := by
      rw [length_udpHead]
      exact short
    rw [Nat.zero_add, List.append_assoc, List.drop_append_of_le_length inside, List.append_assoc]
    congr 1
    exact List.drop_replicate
  rw [data', data, cut, List.take_zero, List.nil_append, udpHead]
  simp only [Option.elim_some, List.append_assoc]

/-- The front of the array, up to the end of the datagram. -/
theorem Holds.take (holds : buf.Holds dst bytes) {len : Nat}
    (inside : len ≤ udpOffset + bytes.length) :
    buf.data.take len = (udpHead dst ++ bytes).take len := by
  obtain ⟨⟨zeros, data⟩, _⟩ := holds
  have within : len ≤ (udpHead dst ++ bytes).length := by
    rw [List.length_append, length_udpHead]
    exact inside
  rw [data, List.take_append_of_le_length within]

/-- What is sent of a message is what its content shows. -/
theorem udpWindow_frame (fits : buf.dataSize ≤ readBufferSize) :
    udpWindow buf.frame = buf.udpDataBuffer := by
  have size : buf.frame.payload.length = buf.dataSize := length_dataBuffer fits
  unfold udpWindow udpDataBuffer
  rw [size]
  split
  · show some (List.drop udpOffset (buf.data.take buf.dataSize)) = _
    rw [List.drop_take]
  · rfl

/-! ## The two producers -/

/-- `transparent_udp_recv_on`. The -1 of a failed `recvmsg` is converted to
`std::size_t`; without a control message no address is written. -/
def captureUdp (dst : Option Endpoint) (received : Option (List UInt8)) : Option RelayData :=
  match received with
  | some data =>
    (forUdp.store udpOffset (data.take (forUdp.dataSize - udpOffset))).bind fun buf =>
    let buf := buf.resizeUdp (UInt64.ofNat (data.take (forUdp.dataSize - udpOffset)).length)
    dst.elim (some buf) buf.storeAddr
  | none =>
    let buf := forUdp.resizeUdp (-1)
    dst.elim (some buf) buf.storeAddr

/-- `impl_start_recv`, for a datagram `data` that came from `peer`. -/
def receiveUdp (session : UInt32) (peer : Endpoint) (data : List UInt8) : Option RelayData :=
  (forUdp.store udpOffset data).bind fun buf =>
  (buf.storeAddr peer).map fun buf =>
  (buf.setSession session).resizeUdp (UInt64.ofNat data.length)

theorem toNat_resize (room : udpOffset + bytes.length ≤ readBufferSize) :
    (UInt64.ofNat bytes.length + UInt64.ofNat udpOffset).toNat = udpOffset + bytes.length := by
  have small : udpOffset + bytes.length < 2 ^ 64 := Nat.lt_of_le_of_lt room (by decide)
  rw [← UInt64.ofNat_add, Nat.add_comm]
  exact UInt64.toNat_ofNat_of_lt' small

/-- The address is written at the front, if there is one. -/
theorem Holds.elim_storeAddr (holds : buf.Holds none bytes) (dst : Option Endpoint) :
    ∃ buf', dst.elim (some buf) buf.storeAddr = some buf' ∧ buf'.head = buf.head ∧
      buf'.Holds dst bytes := by
  cases dst with
  | none => exact ⟨buf, rfl, rfl, holds⟩
  | some e => exact holds.storeAddr e

/-- The message that a whole datagram makes. -/
theorem Holds.dataBuffer (holds : buf.Holds dst bytes)
    (size : buf.dataSize = udpOffset + bytes.length) :
    buf.dataBuffer = udpHead dst ++ bytes := by
  have whole : (udpHead dst ++ bytes).length = udpOffset + bytes.length := by
    rw [List.length_append, length_udpHead]
  rw [RelayData.dataBuffer, size, holds.take (Nat.le_refl _), ← whole, List.take_length]

/-- **What the acceptor captures** is the message the manager's model is given. -/
theorem frame_captureUdp (dst : Option Endpoint) (received : Option (List UInt8)) :
    ∃ buf, captureUdp dst received = some buf ∧ buf.dataSize ≤ readBufferSize ∧
      buf.frame = transparentUdpRecvOn dst received := by
  cases received with
  | some data =>
    have window : forUdp.dataSize - udpOffset = readBufferSize - udpOffset := rfl
    unfold captureUdp
    simp only [window]
    generalize bytesIs : data.take (readBufferSize - udpOffset) = bytes
    have room : udpOffset + bytes.length ≤ readBufferSize := by
      have cut := List.length_take_le (readBufferSize - udpOffset) data
      have offset : udpOffset ≤ readBufferSize := by decide
      rw [bytesIs] at cut
      omega
    obtain ⟨buf, stored, head, holds⟩ := holds_store room
    have resized : (buf.resizeUdp (UInt64.ofNat bytes.length)).Holds none bytes :=
      ⟨holds.data, holds.room⟩
    obtain ⟨buf', written, head', holds'⟩ := resized.elim_storeAddr dst
    have size : buf'.dataSize = udpOffset + bytes.length := by
      rw [dataSize, head']
      exact toNat_resize room
    refine ⟨buf', ?_, ?_, ?_⟩
    · rw [stored]
      exact written
    · rw [size]
      exact room
    · rw [transparentUdpRecvOn, bytesIs, frame, holds'.dataBuffer size, head', resizeUdp, head]
      rfl
  | none =>
    have holds : (forUdp.resizeUdp (-1)).Holds none [] := by
      refine ⟨⟨readBufferSize - udpOffset, ?_⟩, by decide⟩
      have front : udpHead none = List.replicate udpOffset 0 := rfl
      rw [List.append_nil, front, List.replicate_append_replicate]
      rfl
    obtain ⟨buf, written, head, holds⟩ := holds.elim_storeAddr dst
    have size : buf.dataSize = udpOffset - 1 := by
      rw [dataSize, head]
      decide
    refine ⟨buf, written, ?_, ?_⟩
    · rw [size]
      decide
    · rw [transparentUdpRecvOn, frame, RelayData.dataBuffer, size, holds.take (by decide),
        List.append_nil, head]
      rfl

/-- **What a raw_udp receives** is the message its read loop gives to `add_request`. -/
theorem frame_receiveUdp (session : UInt32) (peer : Endpoint)
    (room : udpOffset + bytes.length ≤ readBufferSize) :
    ∃ buf, receiveUdp session peer bytes = some buf ∧ buf.dataSize ≤ readBufferSize ∧
      buf.frame = ⟨session, .dataUdp, udpHead (some peer) ++ bytes⟩ := by
  obtain ⟨buf, stored, head, holds⟩ := holds_store room
  obtain ⟨buf', written, head', holds'⟩ := holds.storeAddr peer
  have resized : ((buf'.setSession session).resizeUdp (UInt64.ofNat bytes.length)).Holds
      (some peer) bytes := ⟨holds'.data, holds'.room⟩
  have size : ((buf'.setSession session).resizeUdp (UInt64.ofNat bytes.length)).dataSize =
      udpOffset + bytes.length := toNat_resize room
  refine ⟨(buf'.setSession session).resizeUdp (UInt64.ofNat bytes.length), ?_, ?_, ?_⟩
  · rw [receiveUdp, stored, Option.bind_some, written, Option.map_some]
  · rw [size]
    exact room
  · rw [frame, resized.dataBuffer size]
    simp only [resizeUdp, setSession, head', head]
    rfl

/-! ## Through the ssl connection -/

/-- Wherever the message stands in a stream, what the read loop of the other end hands on
in its place is a message of which `P` holds, and it does hand one on when the stream is
complete and no chunk ends inside a header. -/
def Arrives (buf : RelayData) (P : RelayData → Prop) : Prop :=
  ∀ before after : List RelayData, (∀ msg ∈ before ++ after, msg.dataSize ≤ readBufferSize) →
    ∀ chunks : List (List UInt8),
      chunks.flatten <+: (before ++ buf :: after).flatMap buffers →
      (∀ got, (implStartRead chunks).handed[before.length]? = some got → P got) ∧
        (chunks.flatten = (before ++ buf :: after).flatMap buffers →
          HeadersWhole 0 (before ++ buf :: after) chunks →
          ∃ got, (implStartRead chunks).handed[before.length]? = some got)

theorem Arrives.mono {P Q : RelayData → Prop} (arrives : buf.Arrives P)
    (weaker : ∀ got, P got → Q got) : buf.Arrives Q := by
  intro before after othersFit chunks truncated
  obtain ⟨all, handed⟩ := arrives before after othersFit chunks truncated
  exact ⟨fun got here => weaker got (all got here), handed⟩

/-- The content of a message arrives. -/
theorem arrives_of_frame {P : RelayData → Prop} (fits : buf.dataSize ≤ readBufferSize)
    (same : ∀ got : RelayData, got.dataSize ≤ readBufferSize → got.frame = buf.frame → P got) :
    buf.Arrives P := by
  intro before after othersFit chunks truncated
  have allFit : ∀ msg ∈ before ++ buf :: after, msg.dataSize ≤ readBufferSize := by
    intro msg member
    rcases List.mem_append.mp member with first | later
    · exact othersFit msg (List.mem_append_left _ first)
    rcases List.mem_cons.mp later with rfl | later
    · exact fits
    · exact othersFit msg (List.mem_append_right _ later)
  have place : ((before ++ buf :: after).map frame)[before.length]? = some buf.frame := by
    rw [List.getElem?_map, List.getElem?_append_right (Nat.le_refl _), Nat.sub_self]
    rfl
  constructor
  · intro got handed
    apply same got ((implStartRead_fits chunks).1 got (List.mem_of_getElem? handed))
    obtain ⟨rest, whole⟩ := implStartRead_frames allFit truncated
    have here : ((implStartRead chunks).handed.map frame)[before.length]? = some got.frame := by
      rw [List.getElem?_map, handed]
      rfl
    rw [← whole, List.getElem?_append_left (List.getElem?_eq_some_iff.mp here).1, here] at place
    exact Option.some.inj place
  · intro complete whole
    have all := (readLoop_complete allFit Reader.ok_header (Nat.lt_succ_self _)
      (Reader.aligned_header complete whole)).1
    have lengths := congrArg List.length all
    rw [List.length_map, List.length_map, List.length_append, List.length_cons] at lengths
    have there : before.length < (implStartRead chunks).handed.length := by
      rw [implStartRead, lengths]
      omega
    exact ⟨_, List.getElem?_eq_getElem there⟩

end RelayData

theorem udpWindow_append {session : UInt32} {cmd : Command} {dst : Option Endpoint}
    {data : List UInt8} :
    udpWindow ⟨session, cmd, udpHead dst ++ data⟩ = some data := by
  have offset := length_udpHead dst
  have long : udpOffset ≤ (udpHead dst ++ data).length := by
    rw [List.length_append]
    omega
  unfold udpWindow
  rw [if_pos long, ← offset, List.drop_left]

theorem getDataAddr_udpHead (e : Endpoint) (data : List UInt8) :
    getDataAddr (udpHead (some e) ++ data) = e := by
  rw [udpHead, List.append_assoc]
  exact getDataAddr_parseAddr e _

namespace Relay

/-- `internal_send_data` waits to send `data` to `dst`, and sends it when the socket is
open. -/
structure SendsTo (r sent : Relay) (dst : Endpoint) (data : List UInt8) : Prop where
  waits : sent.sending = some (.datagram dst (some data) false)
  goes : sent.sock → ∀ alive, ∃ gone, sent.handle alive .transmit = some (gone, []) ∧
    gone.log.sent = r.log.sent ++ [(sent.udp.bound, dst, data)]

variable {r : Relay}

theorem sendsTo_datagram {sent : Relay} {dst : Endpoint} {data : List UInt8}
    (waits : sent.sending = some (.datagram dst (some data) false))
    (log : sent.log.sent = r.log.sent) : r.SendsTo sent dst data where
  waits := waits
  goes := by
    intro sock alive
    refine ⟨{ sent with
      sending := some (.datagram dst (some data) true)
      log.sent := sent.log.sent ++ [(sent.udp.bound, dst, data)] }, ?_, ?_⟩
    · simp only [handle, waits, sock, if_true]
    · rw [log]

/-- A raw_udp of the remote side sends to the address in the message. -/
theorem internalSendData_remote (kind : r.kind = .rawUdp) (type : r.type = .remoteServer)
    (session : UInt32) (cmd : Command) (e : Endpoint) (data : List UInt8) (done : Nat) :
    ∃ sent, r.internalSendData ⟨session, cmd, udpHead (some e) ++ data⟩ done = .ok sent ∧
      r.SendsTo sent e data := by
  have dst := getDataAddr_udpHead e data
  refine ⟨{ r with
    udp.remoteAddr := e
    sending := some (.datagram e (some data) false) }, ?_, sendsTo_datagram rfl rfl⟩
  simp only [internalSendData, kind, getSendDataAddr, type, dst, udpWindow_append]

/-- A raw_udp of the local side binds to the address in the message, if it is not bound
there, and sends to the peer of the session. -/
theorem internalSendData_local (kind : r.kind = .rawUdp) (type : r.type = .localTransparent)
    (session : UInt32) (cmd : Command) (e : Endpoint) (data : List UInt8) {done : Nat}
    (binds : rebinds e done ∨ r.udp.localAddr = e) :
    ∃ sent, r.internalSendData ⟨session, cmd, udpHead (some e) ++ data⟩ done = .ok sent ∧
      sent.udp.localAddr = e ∧ (r.udp.localAddr ≠ e → sent.udp.bound = some e) ∧
      r.SendsTo sent ((r.udp.peers.lookup session).getD default) data := by
  have addr := getDataAddr_udpHead e data
  by_cases moved : r.udp.localAddr = e
  · cases found : r.udp.peers.lookup session with
    | some peer =>
      refine ⟨{ r with sending := some (.datagram peer (some data) false) }, ?_, moved,
        fun other => absurd moved other, sendsTo_datagram rfl rfl⟩
      simp [internalSendData, kind, getSendDataAddr, type, addr, udpWindow_append, moved, found]
    | none =>
      refine ⟨{ r with
        udp.peers := r.udp.peers.insert session default
        sending := some (.datagram default (some data) false) }, ?_, moved,
        fun other => absurd moved other, sendsTo_datagram rfl rfl⟩
      simp [internalSendData, kind, getSendDataAddr, type, addr, udpWindow_append, moved, found]
  · have all : rebinds e done := binds.resolve_right moved
    cases found : r.udp.peers.lookup session with
    | some peer =>
      refine ⟨{ r with
        sock := true
        udp.localAddr := e
        udp.bound := some e
        sending := some (.datagram peer (some data) false) }, ?_, rfl, fun _ => rfl,
        sendsTo_datagram rfl rfl⟩
      simp [internalSendData, kind, getSendDataAddr, type, addr, udpWindow_append, moved, found,
        rebind_of_rebinds all, all]
    | none =>
      refine ⟨{ r with
        sock := true
        udp.localAddr := e
        udp.bound := some e
        udp.peers := r.udp.peers.insert session default
        sending := some (.datagram default (some data) false) }, ?_, rfl, fun _ => rfl,
        sendsTo_datagram rfl rfl⟩
      simp [internalSendData, kind, getSendDataAddr, type, addr, udpWindow_append, moved, found,
        rebind_of_rebinds all, all]

/-- It throws when a call of the re-binding fails, and then sends nothing. -/
theorem internalSendData_unbound (kind : r.kind = .rawUdp) (type : r.type = .localTransparent)
    (session : UInt32) (cmd : Command) (e : Endpoint) (data : List UInt8) {done : Nat}
    (fails : rebinds e done = false) (moved : r.udp.localAddr ≠ e) :
    ∃ udp sock, r.internalSendData ⟨session, cmd, udpHead (some e) ++ data⟩ done =
      .error { r with udp, sock } := by
  have addr := getDataAddr_udpHead e data
  obtain ⟨udp, sock, rebound, _⟩ := rebind_eq { r with udp.localAddr := e } e done
  have threw : r.getSendDataAddr ⟨session, cmd, udpHead (some e) ++ data⟩ done =
      .error { r with udp, sock } := by
    unfold getSendDataAddr
    split
    · rename_i remote
      cases type.symm.trans remote
    · simp only
      rw [addr, if_pos moved, if_pos ⟨moved, fails⟩, rebound]
    · rename_i socks
      cases type.symm.trans socks
  refine ⟨udp, sock, ?_⟩
  unfold internalSendData
  split
  · rename_i tcp
    cases kind.symm.trans tcp
  · rename_i ssl
    cases kind.symm.trans ssl
  · rw [threw]

/-- The loop of `start_send` then stops the relay. -/
theorem sendLoop_unbound {buf : Frame} {rest : List Frame} {session : UInt32} {cmd : Command}
    {e : Endpoint} {data : List UInt8} {done : Nat} (kind : r.kind = .rawUdp)
    (type : r.type = .localTransparent) (running : r.state ≠ .stop)
    (bufs : r.bufs = buf :: rest) (content : buf = ⟨session, cmd, udpHead (some e) ++ data⟩)
    (fails : rebinds e done = false) (moved : r.udp.localAddr ≠ e) :
    (r.sendLoop done).state = .stop ∧ (r.sendLoop done).sending = r.sending ∧
      (r.sendLoop done).log.sent = r.log.sent := by
  unfold sendLoop
  rw [bufs]
  simp only
  rw [if_neg running]
  generalize passedIs : { r.resetTimeout with log.passed := r.log.passed ++ [buf] } = passed
  have same : passed.kind = r.kind ∧ passed.type = r.type ∧ passed.udp = r.udp ∧
      passed.sending = r.sending ∧ passed.log.sent = r.log.sent := by
    subst passedIs
    exact ⟨rfl, rfl, rfl, rfl, rfl⟩
  obtain ⟨sameKind, sameType, sameUdp, sending, sent⟩ := same
  obtain ⟨udp, sock, threw⟩ := passed.internalSendData_unbound (sameKind.trans kind)
    (sameType.trans type) session cmd e data fails (sameUdp ▸ moved)
  rw [content, threw]
  simp only
  unfold stopHere stopTask
  simp only [sameKind.trans kind]
  exact ⟨trivial, sending, sent⟩

end Relay

/-! ## `send_udp_data` -/

namespace Node

variable {n m : Node}

theorem requests_stopManager (n : Node) : n.stopManager.requests = n.requests := by
  have swept : (n.relays.sweep (fun n _ relay => relay.elim n fun r => n.call r .stopRelay)
      n).requests = n.requests := by
    refine Map.sweep_invariant (P := fun m : Node => m.requests = n.requests) rfl ?_
    intro m _ relay same _
    cases relay with
    | none => exact same
    | some r => exact same
  exact swept

/-- `add_request` is noted once, with the message it was given. -/
theorem requests_addRequest (n : Node) (throws : Bool) (relay : Option RelayId) (buf : Frame) :
    (n.addRequest throws relay buf).Both fun m =>
      ∃ k, m.requests = n.requests ++ [⟨k, relay, buf⟩] := by
  unfold addRequest
  split
  · simp only
    split
    · exact ⟨none, requests_stopManager _⟩
    · split
      · exact ⟨none, rfl⟩
      · exact ⟨some n.next, rfl⟩
  · rename_i up
    unfold sendSsl
    split
    · rename_i none
      simp only [sslDown, none, not_true_eq_false] at up
    · exact ⟨_, rfl⟩

theorem requests_newSource (n : Node) (throws : Throws) (src : Endpoint) (old : UdpTimeout) :
    (n.newSource throws src old).Both fun m => m.requests = n.requests := by
  unfold newSource
  refine Fallible.Both.andThen (requests_restartUdp _ throws) fun m same => ?_
  exact (requests_callUdpSend m _).trans same

/-- `add_request` of a local manager, when it does not throw, gives the message to the ssl
relay. -/
theorem addRequest_ok {throws : Bool} {relay : Option RelayId} {buf : Frame}
    (localSide : m.type ≠ .remoteServer) (done : n.addRequest throws relay buf = .ok m) :
    ∃ k, m.ssl = some k ∧ m.requests = n.requests ++ [⟨some k, relay, buf⟩] ∧
      .sendData buf ∈ (m.objs k).inbox := by
  have sends {a : Node} {k : RelayId} (current : a.ssl = some k)
      (same : a.requests = n.requests) (sent : a.sendSsl relay buf = m) :
      ∃ k, m.ssl = some k ∧ m.requests = n.requests ++ [⟨some k, relay, buf⟩] ∧
        .sendData buf ∈ (m.objs k).inbox := by
    rw [sendSsl, current] at sent
    subst sent
    refine ⟨k, current, congrArg (· ++ _) same, ?_⟩
    show RelayTask.sendData buf ∈ ((a.call k (.sendData buf)).objs k).inbox
    rw [objs_call, if_pos rfl]
    exact List.mem_append_right _ List.mem_cons_self
  unfold addRequest at done
  split at done
  · simp only at done
    split at done
    · rename_i remote
      cases done
      have same := quiet_stopManager { n with requests := n.requests ++ [⟨none, relay, buf⟩] }
      exact absurd (same.type.trans remote) localSide
    · split at done
      · cases done
      · have made : ({ n.make n.newSslRelay with ssl := some n.next } : Node).ssl = some n.next :=
          rfl
        exact sends made rfl (Except.ok.inj done)
  · rename_i up
    cases current : n.ssl with
    | none =>
      rw [sslDown, current] at up
      exact absurd rfl up
    | some k => exact sends current rfl (Except.ok.inj done)

/-- The message of a packet was given to the ssl relay under the session of its source. -/
def Forwards (n m : Node) (src : Endpoint) (buf : Frame) : Prop :=
  ∃ k, m.ssl = some k ∧
    m.requests = n.requests ++
      [⟨some k, none, { buf with session := (m.source src).session }⟩] ∧
    .sendData { buf with session := (m.source src).session } ∈ (m.objs k).inbox

/-- The source keeps its session. -/
theorem source_forwardUdp (n : Node) (throws : Throws) (src : Endpoint) (buf : Frame) :
    (n.forwardUdp throws src buf).Both fun m =>
      m.type = n.type ∧ (m.source src).session = (n.source src).session := by
  refine (quiet_addRequest _ _ _ _).mono fun m quiet => ⟨quiet.type, ?_⟩
  rw [source, quiet.srcs, Map.lookup_insert, if_pos rfl]
  rfl

theorem forwardUdp_ok {throws : Throws} {src : Endpoint} {buf : Frame}
    (localSide : n.type ≠ .remoteServer) (done : n.forwardUdp throws src buf = .ok m) :
    Forwards n m src buf := by
  obtain ⟨type, session⟩ :
      m.type = n.type ∧ (m.source src).session = (n.source src).session := by
    have both := n.source_forwardUdp throws src buf
    rw [done] at both
    exact both
  unfold Forwards
  rw [session]
  unfold forwardUdp at done
  have asked := addRequest_ok (type.symm ▸ localSide : m.type ≠ .remoteServer) done
  exact asked

/-- **The message of a packet goes on** under the session of its source, when the handler
does not throw. One that throws has passed on nothing or the same message. -/
theorem requests_sendUdpData (n : Node) (throws : Throws) (src : Endpoint) (buf : Frame) :
    (∀ m, n.sendUdpData throws src buf = .ok m → n.type ≠ .remoteServer → Forwards n m src buf) ∧
      (n.sendUdpData throws src buf).Both fun m => m.requests = n.requests ∨
        ∃ k, m.requests =
          n.requests ++ [⟨k, none, { buf with session := (m.source src).session }⟩] := by
  have first := requests_newSource n throws src (n.source src)
  constructor
  · intro m done localSide
    have type : m.type = n.type := by
      have work := work_sendUdpData n throws src buf
      rw [done] at work
      exact work.type
    unfold sendUdpData at done
    split at done
    · cases created : n.newSource throws src (n.source src) with
      | error a =>
        rw [created] at done
        cases done
      | ok a =>
        rw [created] at done first
        have both := a.source_forwardUdp throws src buf
        replace done : a.forwardUdp throws src buf = .ok m := done
        rw [done] at both
        have same : a.requests = n.requests := first
        unfold Forwards
        rw [← same]
        exact forwardUdp_ok (both.1 ▸ type ▸ localSide) done
    · exact forwardUdp_ok localSide done
  · have forwards (n : Node) : (n.forwardUdp throws src buf).Both fun m =>
        ∃ k, m.requests =
          n.requests ++ [⟨k, none, { buf with session := (m.source src).session }⟩] := by
      obtain ⟨k, asked⟩ := requests_addRequest
        { n with srcs := n.srcs.insert src { n.source src with timeout := timeoutTicks } }
        throws.newSsl none { buf with session := (n.source src).session }
      have session := (n.source_forwardUdp throws src buf).2
      refine ⟨k, ?_⟩
      rw [session]
      exact asked
    unfold sendUdpData
    split
    · refine first.andThen_of (fun m same => Or.inl same) fun m same => ?_
      refine (forwards m).mono fun k asked => Or.inr ?_
      rw [← same]
      exact asked
    · exact (forwards n).mono fun m => Or.inr

/-- A handler throws only when something that it calls does. -/
theorem sendUdpData_total (n : Node) (src : Endpoint) (buf : Frame) :
    ∃ m, n.sendUdpData {} src buf = .ok m := by
  have forward (n : Node) : ∃ m, n.forwardUdp {} src buf = .ok m := by
    unfold forwardUdp addRequest
    split
    · simp only
      split
      · exact ⟨_, rfl⟩
      · exact ⟨_, rfl⟩
    · exact ⟨_, rfl⟩
  have restart (n : Node) : ∃ m, n.restartUdp {} = .ok m := by
    unfold restartUdp
    split
    · exact ⟨_, rfl⟩
    · exact ⟨_, rfl⟩
  unfold sendUdpData newSource
  split
  · obtain ⟨m, restarted⟩ := restart (n.assignSession src (n.source src))
    rw [restarted]
    exact forward _
  · exact forward n

end Node

/-! ## There and back -/

/-- **The UDP round trip.** A captured datagram, under the session its source has, is given
to the ssl relay, unless a call of the handler throws, and makes the raw_udp of the remote side
send the payload to the original destination. A datagram that a remote raw_udp receives makes
the raw_udp of the local side find the address that it came from, bind to it and send the
payload. Its socket is one of `udp::v6()` as the one that received it is: for an IPv4 endpoint,
which no such socket receives from, the bind throws and nothing is sent. -/
theorem udpRoundTrip (e : Endpoint) (payload : List UInt8)
    (fits : payload.length ≤ readBufferSize - udpOffset) :
    (∃ buf, RelayData.captureUdp (some e) (some payload) = some buf ∧
      buf.frame = transparentUdpRecvOn (some e) (some payload) ∧
      (∀ (n : Node) (throws : Throws) (src : Endpoint) (m : Node), n.type ≠ .remoteServer →
        n.sendUdpData throws src buf.frame = .ok m →
          ∃ k, m.ssl = some k ∧
            m.requests = n.requests ++
              [⟨some k, none, (buf.setSession (m.source src).session).frame⟩] ∧
            .sendData (buf.setSession (m.source src).session).frame ∈ (m.objs k).inbox) ∧
      (∀ (n : Node) (src : Endpoint), ∃ m, n.sendUdpData {} src buf.frame = .ok m) ∧
      ∀ session, (buf.setSession session).Arrives fun got => got.udpDataBuffer = some payload ∧
        ∀ r : Relay, r.kind = .rawUdp → r.type = .remoteServer → ∀ done,
          ∃ sent, r.internalSendData got.frame done = .ok sent ∧ r.SendsTo sent e payload) ∧
    ∀ session, ∃ buf, RelayData.receiveUdp session e payload = some buf ∧
      (∀ r : Relay, r.session = session →
        (r.readDone true (.datagram e payload)).2 = [.request buf.frame]) ∧
      buf.Arrives fun got => got.udpDataBuffer = some payload ∧
        getDataAddr got.frame.payload = e ∧
        ∀ r : Relay, r.kind = .rawUdp → r.type = .localTransparent → ∀ done,
          (e.addr.isV6 ∧ 5 ≤ done ∨ r.udp.localAddr = e →
            ∃ sent, r.internalSendData got.frame done = .ok sent ∧ sent.udp.localAddr = e ∧
              (r.udp.localAddr ≠ e → sent.udp.bound = some e) ∧
              r.SendsTo sent ((r.udp.peers.lookup session).getD default) payload) ∧
          (e.addr.isV6 = false → r.udp.localAddr ≠ e →
            ∃ threw, r.internalSendData got.frame done = .error threw ∧
              threw.sending = r.sending ∧ threw.log = r.log) := by
  have room : udpOffset + payload.length ≤ readBufferSize := by
    have offset : udpOffset ≤ readBufferSize := by decide
    omega
  have whole : payload.take (readBufferSize - udpOffset) = payload :=
    List.take_of_length_le fits
  constructor
  · obtain ⟨buf, captured, size, frame⟩ := RelayData.frame_captureUdp (some e) (some payload)
    refine ⟨buf, captured, frame, fun n throws src m localSide done => ?_,
      fun n src => n.sendUdpData_total src buf.frame, fun session => ?_⟩
    · exact (n.requests_sendUdpData throws src buf.frame).1 m done localSide
    · refine RelayData.arrives_of_frame size fun got gotFits same => ?_
      have content : got.frame = ⟨session, .dataUdp, udpHead (some e) ++ payload⟩ := by
        have named : (buf.setSession session).frame = { buf.frame with session } := rfl
        rw [same, named, frame, transparentUdpRecvOn, whole]
      rw [← RelayData.udpWindow_frame gotFits, content]
      refine ⟨udpWindow_append, fun r kind type done => ?_⟩
      exact r.internalSendData_remote kind type session .dataUdp e payload done
  · intro session
    obtain ⟨buf, received, size, frame⟩ := RelayData.frame_receiveUdp session e room
    refine ⟨buf, received, ?_, ?_⟩
    · rintro r rfl
      rw [frame]
      rfl
    · refine RelayData.arrives_of_frame size fun got gotFits same => ?_
      rw [← RelayData.udpWindow_frame gotFits, same, frame]
      refine ⟨udpWindow_append, getDataAddr_udpHead e payload, fun r kind type done => ⟨?_, ?_⟩⟩
      · rintro (⟨family, calls⟩ | same)
        · have binds : Relay.rebinds e done := by simp [Relay.rebinds, family, calls]
          exact r.internalSendData_local kind type session .dataUdp e payload (.inl binds)
        · exact r.internalSendData_local kind type session .dataUdp e payload (.inr same)
      · intro family moved
        have fails : Relay.rebinds e done = false := by simp [Relay.rebinds, family]
        obtain ⟨udp, sock, threw⟩ :=
          r.internalSendData_unbound kind type session .dataUdp e payload fails moved
        exact ⟨_, threw, rfl, rfl⟩

/-- A query to a name server, which is the first packet of its source, and its answer. -/
theorem udpRoundTrip_query :
    (∃ buf, RelayData.captureUdp (some (.mapped 8 8 8 8 53)) (some [1, 2, 3]) = some buf ∧
      (∃ m k, (Node.initLocal .localTransparent).sendUdpData {} (.mapped 10 0 0 1 5000) buf.frame =
          .ok m ∧ m.ssl = some k ∧
        m.requests =
          [⟨some k, none, (buf.setSession (m.source (.mapped 10 0 0 1 5000)).session).frame⟩]) ∧
      (buf.setSession 2).Arrives fun got => ∀ done, ∃ sent,
        (Node.initRemote.newRawUdp 2).internalSendData got.frame done = .ok sent ∧
          (Node.initRemote.newRawUdp 2).SendsTo sent (.mapped 8 8 8 8 53) [1, 2, 3]) ∧
    ∃ buf, RelayData.receiveUdp 2 (.mapped 8 8 8 8 53) [1, 2, 3] = some buf ∧
      buf.Arrives fun got => ∃ sent,
        ((Node.initLocal .localTransparent).newRawUdp 0).internalSendData got.frame 5 = .ok sent ∧
          sent.udp.bound = some (.mapped 8 8 8 8 53) ∧
          sent.sending = some (.datagram default (some [1, 2, 3]) false) := by
  obtain ⟨⟨buf, captured, _, forwards, total, asks⟩, answers⟩ :=
    udpRoundTrip (.mapped 8 8 8 8 53) [1, 2, 3] (by decide)
  obtain ⟨reply, received, _, arrives⟩ := answers 2
  refine ⟨⟨buf, captured, ?_, (asks 2).mono fun got given => ?_⟩,
    ⟨reply, received, arrives.mono fun got given => ?_⟩⟩
  · obtain ⟨m, done⟩ := total (Node.initLocal .localTransparent) (.mapped 10 0 0 1 5000)
    obtain ⟨k, current, requests, _⟩ := forwards _ _ _ m (by decide) done
    exact ⟨m, k, done, current, requests⟩
  · exact given.2 _ rfl rfl
  · obtain ⟨sent, sends, _, bound, goes⟩ :=
      (given.2.2 ((Node.initLocal .localTransparent).newRawUdp 0) rfl rfl 5).1
        (.inl ⟨rfl, Nat.le_refl 5⟩)
    exact ⟨sent, sends, bound (by decide), goes.waits⟩

/-- `_udp_send` when its `start_send` has found a message. -/
def startedWith (buf : Frame) : Relay :=
  { (Node.initLocal .localTransparent).newRawUdp 0 with state := .start, bufs := [buf] }

/-- **A reply from an IPv4 endpoint is never sent**: the address is found, and the loop of
`start_send` ends with the exception of the bind. -/
theorem udpRoundTrip_ipv4 : ∃ buf, RelayData.receiveUdp 2 (.ipv4 8 8 8 8 53) [7] = some buf ∧
    getDataAddr buf.frame.payload = .ipv4 8 8 8 8 53 ∧ ∀ done,
      ((startedWith buf.frame).sendLoop done).state = .stop ∧
        ((startedWith buf.frame).sendLoop done).sending = none ∧
        ((startedWith buf.frame).sendLoop done).log.sent = [] := by
  obtain ⟨buf, received, _, frame⟩ :=
    @RelayData.frame_receiveUdp [7] 2 (.ipv4 8 8 8 8 53) (by decide)
  refine ⟨buf, received, frame ▸ getDataAddr_udpHead (.ipv4 8 8 8 8 53) [7], fun done => ?_⟩
  have fails : Relay.rebinds (.ipv4 8 8 8 8 53) done = false := Bool.and_false _
  exact Relay.sendLoop_unbound (r := startedWith buf.frame) rfl rfl nofun rfl frame fails nofun

end SslSocks
