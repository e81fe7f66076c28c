import SslSocks.ManagerAlive
import SslSocks.NodeLedger

/-!
# The relays that the remote manager gives its messages

`_relays` of the remote manager is keyed by session alone and holds both kinds of raw relay,
and no branch of `add_response` looks at the kind of the relay that it finds. `Unmixed` says
that a relay was given messages of its own kind only. `unmixed_step` keeps it for as long as
no session is owned by two kinds.
-/

namespace SslSocks

open Lib

/-- The message is one that the local side sends for a relay of this kind. -/
def Frame.For (buf : Frame) : RelayKind → Prop
  | .rawTcp => buf.cmd = .startTcp ∨ buf.cmd = .dataTcp
  | .rawUdp => buf.cmd = .dataUdp
  | .ssl => False

/-- A relay of this kind may be given the message. -/
def Suits (kind : RelayKind) (buf : Frame) : Prop :=
  (kind = .rawTcp → buf.cmd = .dataTcp) ∧ (kind = .rawUdp → buf.cmd = .dataUdp)

/-- No session is owned by two kinds. -/
def Exclusive (owned : RelayKind → UInt32 → Prop) : Prop :=
  ∀ s kind kind', owned kind s → owned kind' s → kind = kind'

theorem suits_ssl (buf : Frame) : Suits .ssl buf := by
  constructor <;> intro same <;> cases same

theorem suits_rawTcp {buf : Frame} (isData : buf.cmd = .dataTcp) : Suits .rawTcp buf := by
  refine ⟨fun _ => isData, fun same => ?_⟩
  cases same

theorem suits_rawUdp {buf : Frame} (isData : buf.cmd = .dataUdp) : Suits .rawUdp buf := by
  refine ⟨fun same => ?_, fun _ => isData⟩
  cases same

namespace Node

/-- `_relays` has a relay of this kind for the session. -/
def Holds (n : Node) (kind : RelayKind) (s : UInt32) : Prop :=
  ∃ r, n.relays.lookup s = some (some r) ∧ (n.objs r).kind = kind

/-- No relay was given a message of another kind, and a relay in `_relays` is of a kind that
owns its session. -/
structure Unmixed (owned : RelayKind → UInt32 → Prop) (n : Node) : Prop where
  given : ∀ {r}, r < n.next → ∀ buf ∈ n.givenTo r, Suits (n.objs r).kind buf
  keys : ∀ {s r}, n.relays.lookup s = some (some r) → r < n.next ∧ owned (n.objs r).kind s

variable {n m : Node} {owned : RelayKind → UInt32 → Prop}

/-! ## Calls and new relays -/

theorem Unmixed.of_fewer (unmixed : Unmixed owned n) (objs : m.objs = n.objs)
    (next : m.next = n.next)
    (fewer : ∀ {s r}, m.relays.lookup s = some (some r) → n.relays.lookup s = some (some r)) :
    Unmixed owned m := by
  refine ⟨fun known => ?_, fun there => ?_⟩
  · unfold givenTo
    rw [objs]
    exact unmixed.given (next ▸ known)
  · rw [objs, next]
    exact unmixed.keys (fewer there)

theorem Unmixed.call (unmixed : Unmixed owned n) {a : RelayId} {c : RelayCall}
    (suits : ∀ buf, c = .sendData buf → Suits (n.objs a).kind buf) :
    Unmixed owned (n.call a c) := by
  refine ⟨fun {r} known buf there => ?_, fun there => ?_⟩
  · rw [objs_call_kind]
    by_cases sends : ∃ sent, c = .sendData sent
    · obtain ⟨sent, rfl⟩ := sends
      rw [givenTo_send] at there
      rcases List.mem_append.mp there with old | new
      · exact unmixed.given known buf old
      · split at new
        · rename_i same
          rw [List.mem_singleton.mp new, same]
          exact suits sent rfl
        · cases new
    · rw [givenTo_call fun buf same => sends ⟨buf, same⟩] at there
      exact unmixed.given known buf there
  · rw [objs_call_kind]
    exact unmixed.keys there

/-- A call that gives no message. -/
theorem Unmixed.quiet (unmixed : Unmixed owned n) {a : RelayId} {c : RelayCall}
    (gives : ∀ buf, c ≠ .sendData buf) : Unmixed owned (n.call a c) :=
  unmixed.call fun buf same => absurd same (gives buf)

theorem Unmixed.make (unmixed : Unmixed owned n) {relay : Relay} (given : relay.log.given = []) :
    Unmixed owned (n.make relay) := by
  refine ⟨fun {r} known buf there => ?_, fun {s r} there => ?_⟩
  · unfold givenTo at there
    rw [objs_make] at there ⊢
    split at there
    · rw [given] at there
      cases there
    · rename_i old
      rw [if_neg old]
      exact unmixed.given (Nat.lt_of_le_of_ne (Nat.le_of_lt_succ known) old) buf there
  · obtain ⟨known, isOwned⟩ := unmixed.keys there
    rw [objs_make_of_lt _ known]
    exact ⟨Nat.lt_succ_of_lt known, isOwned⟩

/-- A relay comes to `_relays` under a session that its kind owns. -/
theorem Unmixed.insert (unmixed : Unmixed owned n) {session : UInt32} {r : RelayId}
    (known : r < n.next) (isOwned : owned (n.objs r).kind session)
    {relays : Map UInt32 (Option RelayId)} (before : n.relays = relays) :
    Unmixed owned { n with relays := relays.insert session (some r) } := by
  refine ⟨unmixed.given, fun {s a} there => ?_⟩
  replace there : (relays.insert session (some r)).lookup s = some (some a) := there
  rw [Map.lookup_insert] at there
  split at there
  · rename_i same
    cases there
    exact ⟨known, same ▸ isOwned⟩
  · exact unmixed.keys (before ▸ there)

theorem Unmixed.stopManager (unmixed : Unmixed owned n) : Unmixed owned n.stopManager := by
  have swept : Unmixed owned (n.relays.sweep
      (fun n _ relay => relay.elim n fun r => n.call r .stopRelay) n) := by
    refine Map.sweep_invariant unmixed fun {m _ relay} unmixed _ => ?_
    cases relay with
    | none => exact unmixed
    | some r =>
      apply unmixed.quiet
      intro buf same
      cases same
  refine swept.of_fewer rfl rfl fun {s r} there => ?_
  rw [show n.stopManager.relays = ∅ from rfl, Map.lookup_empty] at there
  cases there

/-! ## The handlers -/

/-- `add_request` of the remote side gives its message to the ssl relay. -/
theorem unmixed_addRequest (unmixed : Unmixed owned n) (remote : n.type = .remoteServer)
    (ssl : ∀ k, n.ssl = some k → (n.objs k).kind = .ssl) (throws : Bool)
    (relay : Option RelayId) (buf : Frame) :
    (n.addRequest throws relay buf).Both (Unmixed owned) := by
  unfold addRequest
  split
  · simp only
    exact (unmixed.of_fewer (m := { n with requests := n.requests ++ [⟨none, relay, buf⟩] })
      rfl rfl fun there => there).stopManager
  · show Unmixed owned (n.sendSsl relay buf)
    unfold sendSsl
    split
    · exact unmixed
    · rename_i k is
      have sent : Unmixed owned (n.call k (.sendData buf)) := by
        apply unmixed.call
        intro sent _
        rw [ssl k is]
        exact suits_ssl sent
      exact sent.of_fewer rfl rfl fun there => there

theorem unmixed_responseStopTcp (unmixed : Unmixed owned n) (buf : Frame) :
    Unmixed owned (n.responseStopTcp buf) := by
  unfold responseStopTcp
  split
  · exact unmixed
  · exact unmixed.of_fewer rfl rfl fun there => there
  · rename_i r _
    have stopped : Unmixed owned (n.call r .stopRelay) := by
      apply unmixed.quiet
      intro buf same
      cases same
    exact stopped.of_fewer rfl rfl fun there => (Map.of_lookup_erase there).2

theorem unmixed_relaySlot (unmixed : Unmixed owned n) (session : UInt32) :
    Unmixed owned (n.relaySlot session) := by
  unfold relaySlot
  split
  · exact unmixed
  · refine unmixed.of_fewer rfl rfl fun {s r} there => ?_
    replace there : (n.relays.insert session none).lookup s = some (some r) := there
    rw [Map.lookup_insert] at there
    split at there
    · cases there
    · exact there

/-- A raw_udp is made for a session that is owned by datagrams, and gets its datagram. -/
theorem unmixed_addRemoteRawUdp (unmixed : Unmixed owned n) (throws : Throws) {buf : Frame}
    (isData : buf.cmd = .dataUdp) (isOwned : owned .rawUdp buf.session) {k : Node}
    (next : n.next = k.next) :
    ((n.addRemoteRawUdp throws buf.session).andThen fun m =>
      .ok (m.call k.next (.sendData buf))).Both (Unmixed owned) := by
  have made : Unmixed owned (n.make (n.newRawUdp buf.session)) := unmixed.make rfl
  unfold addRemoteRawUdp startRawUdp
  simp only
  split
  · exact unmixed
  · split
    · exact made
    · have started : Unmixed owned ((n.make (n.newRawUdp buf.session)).call n.next .startUdp) := by
        apply made.quiet
        intro buf same
        cases same
      have udp : (((n.make (n.newRawUdp buf.session)).call n.next .startUdp).objs n.next).kind =
          .rawUdp := by
        rw [objs_call_kind, objs_make, if_pos rfl]
        rfl
      have kept := @Unmixed.insert _ _ started buf.session n.next (Nat.lt_succ_self _)
        (udp.symm ▸ isOwned) _ rfl
      refine kept.call fun sent same => ?_
      cases same
      rw [← next]
      exact (congrArg (Suits · buf) udp).mpr (suits_rawUdp isData)

/-- `add_remote_raw_tcp` of the remote side asks for nothing. -/
theorem addRemoteRawTcp_eq (remote : n.type = .remoteServer) (throws : Throws)
    (session : UInt32) (target : Host × String) :
    n.addRemoteRawTcp throws session target =
      .ok { n.make ((n.newRawTcp (some target)).begin session) with
        relays := n.relays.insert session (some n.next) } := by
  have silent : n.type ≠ .localTransparent := by
    rw [remote]
    decide
  have same : Node.call { n.make (n.newRawTcp (some target)) with
        relays := n.relays.insert session (some n.next) } n.next (.begin session) =
      { n.make ((n.newRawTcp (some target)).begin session) with
        relays := n.relays.insert session (some n.next) } :=
    congrArg (fun k : Node => { k with relays := n.relays.insert session (some n.next) })
      (make_call n (n.newRawTcp (some target)) (.begin session))
  unfold addRemoteRawTcp startRawTcp
  simp only
  rw [same]
  exact if_neg silent

/-- A raw_tcp is made for a session that is owned by a connection. -/
theorem unmixed_addRemoteRawTcp (unmixed : Unmixed owned n) (remote : n.type = .remoteServer)
    (throws : Throws) {session : UInt32} (isOwned : owned .rawTcp session)
    (target : Host × String) :
    (n.addRemoteRawTcp throws session target).Both (Unmixed owned) := by
  have made : Unmixed owned (n.make ((n.newRawTcp (some target)).begin session)) :=
    unmixed.make rfl
  have tcp : ((n.make ((n.newRawTcp (some target)).begin session)).objs n.next).kind =
      .rawTcp := by
    rw [objs_make, if_pos rfl]
    rfl
  have kept := @Unmixed.insert _ _ made session n.next (Nat.lt_succ_self _) (tcp.symm ▸ isOwned)
    _ rfl
  rw [addRemoteRawTcp_eq remote]
  exact kept

theorem unmixed_remoteServerStartTcp (unmixed : Unmixed owned n) (remote : n.type = .remoteServer)
    (throws : Throws) {buf : Frame} (isOwned : owned .rawTcp buf.session) :
    (n.remoteServerStartTcp throws buf).Both (Unmixed owned) := by
  have slot := unmixed_relaySlot unmixed buf.session
  have type := (sameTables_relaySlot n buf.session).type
  unfold remoteServerStartTcp
  simp only
  generalize stoppedIs : Option.elim _ (n.relaySlot buf.session) _ = stopped
  have both : Unmixed owned stopped ∧ stopped.type = .remoteServer := by
    rw [← stoppedIs]
    cases ((n.relaySlot buf.session).relays.lookup buf.session).join with
    | none => exact ⟨slot, type.trans remote⟩
    | some r =>
      refine ⟨slot.quiet ?_, type.trans remote⟩
      intro buf same
      cases same
  split
  · exact both.1
  · exact unmixed_addRemoteRawTcp both.1 both.2 throws isOwned _

section Apart

variable (apart : Exclusive owned)

include apart

theorem unmixed_responseDataTcp (unmixed : Unmixed owned n) (remote : n.type = .remoteServer)
    (ssl : ∀ k, n.ssl = some k → (n.objs k).kind = .ssl) (throws : Throws) {buf : Frame}
    (isData : buf.cmd = .dataTcp) (isOwned : owned .rawTcp buf.session) :
    (n.responseDataTcp throws buf).Both (Unmixed owned) := by
  unfold responseDataTcp
  split
  · exact unmixed
  · exact unmixed.of_fewer rfl rfl fun there => there
  · rename_i r there
    split
    · have erased : Unmixed owned { n with relays := n.relays.erase buf.session } :=
        unmixed.of_fewer rfl rfl fun there => (Map.of_lookup_erase there).2
      exact unmixed_addRequest erased remote ssl _ _ _
    · refine unmixed.call fun sent same => ?_
      cases same
      rw [apart _ _ _ (unmixed.keys there).2 isOwned]
      exact suits_rawTcp isData

theorem unmixed_remoteServerSendUdp (unmixed : Unmixed owned n) (throws : Throws) {buf : Frame}
    (isData : buf.cmd = .dataUdp) (isOwned : owned .rawUdp buf.session) :
    (n.remoteServerSendUdp throws buf).Both (Unmixed owned) := by
  have slot := unmixed_relaySlot unmixed buf.session
  have fresh := unmixed_addRemoteRawUdp slot throws isData isOwned rfl
  unfold remoteServerSendUdp
  simp only
  split
  · rename_i r found
    split
    · exact fresh
    · refine slot.call fun sent same => ?_
      cases same
      rw [apart _ _ _ (slot.keys (Option.join_eq_some_iff.mp found)).2 isOwned]
      exact suits_rawUdp isData
  · exact fresh

theorem unmixed_addResponse (unmixed : Unmixed owned n) (remote : n.type = .remoteServer)
    (ssl : ∀ k, n.ssl = some k → (n.objs k).kind = .ssl) (throws : Throws) (relay : RelayId)
    {buf : Frame} (isOwned : ∀ kind, buf.For kind → owned kind buf.session) :
    (n.addResponse throws relay buf).Both (Unmixed owned) := by
  have noted : Unmixed owned { n with answered := n.answered ++ [(relay, buf)] } :=
    unmixed.of_fewer rfl rfl fun there => there
  unfold addResponse
  simp only
  split
  · rename_i isData
    exact unmixed_responseDataTcp apart noted remote ssl throws isData
      (isOwned .rawTcp (.inr isData))
  · rename_i isData
    split
    · rename_i localSide
      cases localSide.symm.trans remote
    · exact unmixed_remoteServerSendUdp apart noted throws isData (isOwned .rawUdp isData)
    · exact noted
  · rename_i start
    exact unmixed_remoteServerStartTcp noted remote throws (isOwned .rawTcp (.inl start))
  · exact unmixed_responseStopTcp noted buf
  · exact noted

end Apart

/-! ## Steps -/

theorem unmixed_callUdpSend (unmixed : Unmixed owned n) (s : UInt32) :
    Unmixed owned (n.callUdpSend (.delPeer s)) := by
  unfold callUdpSend
  split
  · exact unmixed.of_fewer rfl rfl fun there => there
  · apply unmixed.quiet
    intro buf same
    cases same

theorem unmixed_timeoutDown (unmixed : Unmixed owned n) (r : RelayId) :
    Unmixed owned (n.call r .timeoutDown) := by
  apply unmixed.quiet
  intro buf same
  cases same

theorem unmixed_tick (unmixed : Unmixed owned n) : Unmixed owned n.tick := by
  refine tick_rule ?_ (fun unmixed _ _ => ?_) (fun {m} unmixed => ?_)
    (fun {m src entry} unmixed _ => ?_) (fun {m s relay} unmixed _ => ?_) fun unmixed _ => ?_
  · unfold sslTimeout
    split
    · exact unmixed
    · exact unmixed_timeoutDown unmixed _
  · exact unmixed.stopManager.of_fewer rfl rfl fun there => there
  · apply unmixed_callUdpSend
    exact unmixed.of_fewer rfl rfl fun there => there
  · unfold visitSource
    split
    · apply unmixed_callUdpSend
      exact unmixed.of_fewer rfl rfl fun there => there
    · exact unmixed.of_fewer rfl rfl fun there => there
  · unfold visitRelay
    split
    · exact unmixed.of_fewer rfl rfl fun there => (Map.of_lookup_erase there).2
    · split
      · exact (unmixed_timeoutDown unmixed _).of_fewer rfl rfl fun there =>
          (Map.of_lookup_erase there).2
      · exact unmixed_timeoutDown unmixed _
  · exact unmixed.of_fewer rfl rfl fun there => there

/-- **One step of the remote side** keeps the kinds apart when the message that it handles is
of a kind that owns its session, and no other kind does. -/
theorem unmixed_step {a : NodeAction} (unmixed : Unmixed owned n) (wf : WellFormed n)
    (tasks : RemoteTasks n) (apart : Exclusive owned)
    (isOwned : ∀ {k buf}, n.strand.head? = some (.addResponse k buf) →
      ∀ kind, buf.For kind → owned kind buf.session)
    (stepped : n.step a = some m) : Unmixed owned m := by
  cases stepIs_of_step stepped with
  | accept localSide | udpPacket localSide => exact absurd tasks.remote localSide
  | release _ => exact unmixed.of_fewer rfl rfl fun there => there
  | tick _ => exact unmixed_tick unmixed
  | @manager throws task strand queue =>
    have popped : Unmixed owned { n with strand } := unmixed.of_fewer rfl rfl fun there => there
    have head : n.strand.head? = some task := by
      rw [queue]
      rfl
    have ssl (k : RelayId) (is : n.ssl = some k) : (n.objs k).kind = .ssl := (wf.ssl is).2
    rcases tasks.tasks task (queue ▸ List.mem_cons_self) with ⟨r, buf, rfl⟩ | ⟨k, buf, rfl⟩
    · exact unmixed_addRequest popped tasks.remote ssl _ _ _
    · exact unmixed_addResponse apart popped tasks.remote ssl throws k (isOwned head)
  | @relay a ev relay outs known handled =>
    have same := Relay.sameCalls_step handled
    have kept (r : RelayId) : (Function.update n.objs a relay r).kind = (n.objs r).kind ∧
        (Function.update n.objs a relay r).log.given = (n.objs r).log.given := by
      by_cases is : r = a
      · subst is
        rw [Function.update_self]
        exact ⟨same.kind, same.given⟩
      · rw [Function.update_of_ne is]
        exact ⟨rfl, rfl⟩
    refine ⟨fun {r} known buf there => ?_, fun {s r} there => ?_⟩
    · show Suits (Function.update n.objs a relay r).kind buf
      rw [(kept r).1]
      exact unmixed.given known buf ((congrArg (buf ∈ ·) (kept r).2).mp there)
    · show r < n.next ∧ owned (Function.update n.objs a relay r).kind s
      rw [(kept r).1]
      exact unmixed.keys there

end Node

end SslSocks
