import SslSocks.UdpRoundTrip

/-!
# Datagrams longer than the buffer

`recvmsg` and `async_receive_from` copy at most what `udp_data_buffer()` offers and
discard the rest of the datagram. Neither `transparent_udp_recv_on` nor
`impl_start_recv` looks at the sign of that, so that a longer datagram goes on as if it
were complete. `udpWhole_iff` says which datagrams are relayed whole.
-/

namespace SslSocks

namespace RelayData

/-- What a fresh buffer offers for a datagram. -/
def offered : Nat := forUdp.dataSize - udpOffset

theorem offered_eq : offered = readBufferSize - udpOffset := rfl

variable {buf : RelayData} {dst : Option Endpoint} {session : UInt32} {bytes payload : List UInt8}

/-- The bytes that the kernel leaves of a datagram fit behind the address. -/
theorem room_take (payload : List UInt8) :
    udpOffset + (payload.take offered).length ≤ readBufferSize := by
  have cut := List.length_take_le offered payload
  have offset : udpOffset ≤ readBufferSize := by decide
  rw [offered_eq] at cut
  rw [offered_eq]
  omega

/-- They are the datagram when it is not longer than what is offered. -/
theorem take_offered_iff :
    some (payload.take offered) = some payload ↔ payload.length ≤ readBufferSize - udpOffset := by
  rw [Option.some_inj, List.take_eq_self_iff, offered_eq]

/-- A message is relayed as it is, under any session: what arrives of it is its window. -/
theorem arrives_window (fits : buf.dataSize ≤ readBufferSize)
    (frame : buf.frame = ⟨session, .dataUdp, udpHead dst ++ bytes⟩) :
    buf.udpDataBuffer = some bytes ∧
      ∀ session, (buf.setSession session).Arrives fun got => got.udpDataBuffer = some bytes := by
  constructor
  · rw [← udpWindow_frame fits, frame, udpWindow_append]
  · intro session
    refine arrives_of_frame fits ?_
    intro got gotFits same
    have named : (buf.setSession session).frame = { buf.frame with session } := rfl
    rw [← udpWindow_frame gotFits, same, named, frame, udpWindow_append]

/-- The local side: the message of a datagram carries what the kernel left of it. -/
theorem captureUdp_window (dst : Option Endpoint) (payload : List UInt8) :
    ∃ buf, captureUdp dst (some payload) = some buf ∧
      buf.frame = transparentUdpRecvOn dst (some payload) ∧
      buf.udpDataBuffer = some (payload.take offered) ∧
      ∀ session, (buf.setSession session).Arrives fun got =>
        got.udpDataBuffer = some (payload.take offered) := by
  obtain ⟨buf, captured, fits, frame⟩ := frame_captureUdp dst (some payload)
  exact ⟨buf, captured, frame, arrives_window fits frame⟩

/-- The remote side. -/
theorem receiveUdp_window (session : UInt32) (peer : Endpoint) (payload : List UInt8) :
    ∃ buf, receiveUdp session peer (payload.take offered) = some buf ∧
      buf.frame = ⟨session, .dataUdp, udpHead (some peer) ++ payload.take offered⟩ ∧
      buf.udpDataBuffer = some (payload.take offered) ∧
      ∀ session, (buf.setSession session).Arrives fun got =>
        got.udpDataBuffer = some (payload.take offered) := by
  obtain ⟨buf, received, fits, frame⟩ := frame_receiveUdp session peer (room_take payload)
  exact ⟨buf, received, frame, arrives_window fits frame⟩

end RelayData

open RelayData

/-- The acceptor posts the message of a packet, whatever its length. -/
theorem Node.udpPacket_posts {n m : Node} {src : Endpoint} {dst : Option Endpoint}
    {received : Option (List UInt8)} (stepped : n.step (.udpPacket src dst received) = some m) :
    m.strand = n.strand ++ [.sendUdpData src (transparentUdpRecvOn dst received)] := by
  unfold Node.step at stepped
  split at stepped
  · cases stepped
  · simp only at stepped
    split at stepped
    · cases stepped
    · cases stepped
      rfl

/-- **A datagram is relayed whole if and only if it fits the buffer.** Both ends send a
message for every datagram; its window, and the one that arrives at the other end, is the
payload exactly when the payload is at most as long as the room behind the address. -/
theorem udpWhole_iff (payload : List UInt8) :
    (∀ dst, ∃ buf, captureUdp dst (some payload) = some buf ∧
      (∀ (n m : Node) (src : Endpoint), n.step (.udpPacket src dst (some payload)) = some m →
        m.strand = n.strand ++ [.sendUdpData src buf.frame]) ∧
      (buf.udpDataBuffer = some payload ↔ payload.length ≤ readBufferSize - udpOffset) ∧
      ∀ session, (buf.setSession session).Arrives fun got =>
        (got.udpDataBuffer = some payload ↔ payload.length ≤ readBufferSize - udpOffset)) ∧
    ∀ session peer, ∃ buf, receiveUdp session peer (payload.take offered) = some buf ∧
      (∀ r : Relay, r.kind = .rawUdp → r.session = session →
        r.CanArrive (.datagram peer (payload.take offered)) ∧
        (r.readDone true (.datagram peer (payload.take offered))).2 = [.request buf.frame]) ∧
      (buf.udpDataBuffer = some payload ↔ payload.length ≤ readBufferSize - udpOffset) ∧
      buf.Arrives fun got =>
        (got.udpDataBuffer = some payload ↔ payload.length ≤ readBufferSize - udpOffset) := by
  have whole (got : RelayData) (window : got.udpDataBuffer = some (payload.take offered)) :
      got.udpDataBuffer = some payload ↔ payload.length ≤ readBufferSize - udpOffset := by
    rw [window]
    exact take_offered_iff
  constructor
  · intro dst
    obtain ⟨buf, captured, frame, window, arrives⟩ := captureUdp_window dst payload
    refine ⟨buf, captured, ?_, whole buf window, ?_⟩
    · intro n m src stepped
      rw [frame]
      exact Node.udpPacket_posts stepped
    · intro session
      exact (arrives session).mono whole
  · intro session peer
    obtain ⟨buf, received, frame, window, arrives⟩ := receiveUdp_window session peer payload
    refine ⟨buf, received, ?_, whole buf window, ?_⟩
    · intro r kind named
      constructor
      · refine ⟨kind, ?_⟩
        rw [Relay.readSize, kind]
        exact List.length_take_le _ _
      · rw [frame, ← named]
        rfl
    · have same : buf.setSession session = buf := by
        have head : buf.head.session = session := congrArg Frame.session frame
        rw [setSession, ← head]
      exact same ▸ (arrives session).mono whole

/-- **A datagram of one byte more is cut**: on either side the message that is sent for it
carries all but the last byte. -/
theorem udpWhole_cut :
    (∃ m f, (Node.initLocal .localTransparent).step
        (.udpPacket default none (some (List.replicate 4078 1))) = some m ∧
      m.strand = [.sendUdpData default f] ∧ udpWindow f = some (List.replicate 4077 1) ∧
      udpWindow f ≠ some (List.replicate 4078 1)) ∧
    ∃ (r : Relay) (f : Frame), r.kind = .rawUdp ∧
      r.CanArrive (.datagram default ((List.replicate 4078 1).take r.readSize)) ∧
      (r.readDone true (.datagram default ((List.replicate 4078 1).take r.readSize))).2 =
        [.request f] ∧
      udpWindow f = some (List.replicate 4077 1) ∧
      udpWindow f ≠ some (List.replicate 4078 1) := by
  have cut : (List.replicate 4078 (1 : UInt8)).take offered = List.replicate 4077 1 := by
    rw [List.take_replicate]
    rfl
  have other : some (List.replicate 4077 (1 : UInt8)) ≠ some (List.replicate 4078 1) := by
    intro same
    have lengths := congrArg List.length (Option.some.inj same)
    rw [List.length_replicate, List.length_replicate] at lengths
    omega
  have passed (payload : List UInt8) : ∃ m f, (Node.initLocal .localTransparent).step
      (.udpPacket default none (some payload)) = some m ∧
      m.strand = [.sendUdpData default f] ∧ udpWindow f = some (payload.take offered) :=
    ⟨_, transparentUdpRecvOn none (some payload), rfl, rfl, udpWindow_append⟩
  constructor
  · obtain ⟨m, f, stepped, posted, window⟩ := passed (List.replicate 4078 1)
    rw [cut] at window
    refine ⟨m, f, stepped, posted, window, ?_⟩
    rw [window]
    exact other
  · refine ⟨(Node.initRemote.newRawUdp 2), ⟨2, .dataUdp, udpHead (some default) ++
      (List.replicate 4078 1).take offered⟩, rfl, ⟨rfl, List.length_take_le _ _⟩, rfl, ?_⟩
    rw [cut, udpWindow_append]
    exact ⟨rfl, other⟩

end SslSocks
