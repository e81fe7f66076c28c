import SslSocks.NodeLedger
import SslSocks.NodeRoutes
import SslSocks.UdpDatagrams
import SslSocks.UdpPeers
import SslSocks.UdpReplies

/-!
# The raw_udps of a transparent proxy

The manager of a transparent proxy gives its raw_udps `DATA_UDP` only, and as peers only sources
that have the session (`Relay.ServedBy`). So every raw_udp, the one in `_udp_send` and those that
it replaced, sends each datagram as `Frame.Returns` says: from the address in its message, to the
source of its session, or to the default endpoint when that has left `_peers`.
-/

namespace SslSocks

open Lib

/-- A source of the session, or the endpoint that a lookup inserts. -/
def PeerOf (issued : List Issue) (session : UInt32) (dst : Endpoint) : Prop :=
  dst = default ∨ Issue.udp session dst ∈ issued

/-- The message goes as this datagram. -/
def Frame.Returns (issued : List Issue) (datagram : Datagram) (buf : Frame) : Prop :=
  udpWindow buf = some datagram.2.2 ∧ datagram.1 = some (getDataAddr buf.payload) ∧
    PeerOf issued buf.session datagram.2.1

namespace Relay

/-- What the manager of a transparent proxy does to its raw_udps. -/
def ServedBy (issued : List Issue) (r : Relay) : RelayAction → Prop
  | .call (.sendData buf) => buf.cmd = .dataUdp
  | .call (.addPeer session peer) => Issue.udp session peer ∈ issued
  | a => r.Proper a

variable {r r' : Relay} {alive : Bool} {ev : RelayEvent} {outs : List RelayOut}
variable {issued later : List Issue}

theorem ServedBy.proper {a : RelayAction} (served : ServedBy issued r a) : r.Proper a := by
  cases a with
  | event => trivial
  | call c =>
    cases c with
    | sendData | addPeer => trivial
    | _ => exact served

theorem ServedBy.mono {a : RelayAction} (served : ServedBy issued r a)
    (more : issued ⊆ later) : ServedBy later r a := by
  cases a with
  | event => trivial
  | call c =>
    cases c with
    | addPeer => exact more served
    | _ => exact served

/-- Only `DATA_UDP` was given. -/
theorem given_dataUdp (run : Reach act (ServedBy issued) udpSend r) :
    ∀ buf ∈ r.log.given, buf.cmd = .dataUdp := by
  refine run.invariant (P := fun r => ∀ buf ∈ r.log.given, buf.cmd = .dataUdp) nofun
    fun {t a t'} _ given served stepped => ?_
  cases a with
  | event alive ev =>
    obtain ⟨h, outs, handled, rfl⟩ := act_event.mp stepped
    rw [show (h.note outs).log.given = _ from (handles_of_handle handled).sameCalls.given]
    exact given
  | call c =>
    cases stepped
    have called := calls_call t c
    generalize t.call c = t' at called
    cases called with
    | @sendData buf =>
      intro other there
      rcases List.mem_append.mp there with old | new
      · exact given other old
      · rw [List.mem_singleton.mp new]
        exact served
    | _ => exact given

/-! ## The peers -/

/-- `_peers` after `get_send_data_addr`, and the address that it finds. -/
theorem peers_getSendDataAddr {buf : Frame} {done : Nat} {dst : Endpoint}
    (found : r.getSendDataAddr buf done = .ok (r', dst)) (transparent : r.type = .localTransparent) :
    (r.udp.peers.lookup buf.session = some dst ∨ dst = default) ∧
      ∀ s e, r'.udp.peers.lookup s = some e → r.udp.peers.lookup s = some e ∨ e = default := by
  unfold getSendDataAddr at found
  rw [transparent] at found
  simp only at found
  generalize movedIs : (if r.udp.localAddr ≠ getDataAddr buf.payload then _ else r) = moved at found
  have peers : moved.udp.peers = r.udp.peers := by
    rw [← movedIs]
    split
    · exact rebind_peers _ _ _
    · rfl
  split at found
  · cases found
  · rw [← peers]
    split at found
    · rename_i peer there
      cases found
      exact ⟨.inl there, fun _ _ => .inl⟩
    · cases found
      refine ⟨.inr rfl, fun s e there => ?_⟩
      replace there : (moved.udp.peers.insert buf.session default).lookup s = some e := there
      rw [Map.lookup_insert] at there
      split at there
      · cases there
        exact .inr rfl
      · exact .inl there

theorem peers_getSendDataAddr_error {buf : Frame} {done : Nat}
    (threw : r.getSendDataAddr buf done = .error r') (transparent : r.type = .localTransparent) :
    r'.udp.peers = r.udp.peers := by
  unfold getSendDataAddr at threw
  rw [transparent] at threw
  simp only at threw
  split at threw
  · cases threw
    split
    · exact rebind_peers _ _ _
    · rfl
  · split at threw <;> cases threw

/-- Who is in `_peers`, or is about to be. -/
structure KnowsPeers (issued : List Issue) (r : Relay) : Prop where
  table : ∀ s dst, r.udp.peers.lookup s = some dst → PeerOf issued s dst
  posted : ∀ s peer, .addPeer s peer ∈ r.inbox → Issue.udp s peer ∈ issued

theorem KnowsPeers.of_same (knows : KnowsPeers issued r) (peers : r'.udp.peers = r.udp.peers)
    (inbox : r'.inbox ⊆ r.inbox) : KnowsPeers issued r' := by
  refine ⟨fun s dst there => ?_, fun s peer there => knows.posted s peer (inbox there)⟩
  rw [peers] at there
  exact knows.table s dst there

theorem KnowsPeers.stopHere (knows : KnowsPeers issued r) : KnowsPeers issued r.stopHere := by
  rcases stopHere_cases r with ⟨_, same⟩ | ⟨_, ⟨_, same⟩ | ⟨bound, same⟩⟩ <;> rw [same] <;>
    exact knows.of_same rfl (List.Subset.refl _)

theorem SendLoop.knowsPeers (loop : SendLoop r r') (transparent : r.type = .localTransparent)
    (knows : KnowsPeers issued r) : KnowsPeers issued r' := by
  cases loop with
  | empty | stopped | stream => exact knows.of_same rfl (List.Subset.refl _)
  | datagram udp sock dst _ _ _ _ _ found =>
    obtain ⟨done, found⟩ := found
    have peers := (peers_getSendDataAddr found transparent).2
    refine ⟨fun s e there => ?_, knows.posted⟩
    rcases peers s e there with old | new
    · exact knows.table s e old
    · exact .inl new
  | threw udp sock _ _ _ _ _ threw =>
    obtain ⟨done, threw⟩ := threw
    have peers := peers_getSendDataAddr_error threw transparent
    exact KnowsPeers.stopHere (knows.of_same peers (List.Subset.refl _))

theorem Handles.knowsPeers (handled : Handles alive r ev r' outs)
    (transparent : r.type = .localTransparent) (knows : KnowsPeers issued r) :
    KnowsPeers issued r' := by
  have popped {task : RelayTask} {inbox : List RelayTask} (queue : r.inbox = task :: inbox) :
      inbox ⊆ r.inbox := queue ▸ List.subset_cons_self _ _
  cases handled with
  | dropped queue | pushed queue | startInit queue => exact knows.of_same rfl (popped queue)
  | @stopTask inbox queue =>
    have rest : KnowsPeers issued { r with inbox } := knows.of_same rfl (popped queue)
    rcases stopTask_cases { r with inbox } with ⟨_, same⟩ | ⟨bound, same⟩ <;> rw [same] <;>
      exact rest.of_same rfl (List.Subset.refl _)
  | @addPeer session peer inbox queue =>
    refine ⟨fun s dst there => ?_, fun s e there => knows.posted s e (popped queue there)⟩
    replace there : (r.udp.peers.insert session peer).lookup s = some dst := there
    rw [Map.lookup_insert] at there
    split at there
    · rename_i same
      cases there
      exact .inr (same ▸ knows.posted session peer (queue ▸ List.mem_cons_self))
    · exact knows.table s dst there
  | @delPeer session inbox queue =>
    refine ⟨fun s dst there => ?_, fun s e there => knows.posted s e (popped queue there)⟩
    unfold delPeerTask at there
    simp only at there
    split at there
    · rw [Map.lookup_empty] at there
      cases there
    · exact knows.table s dst (Map.of_lookup_erase there).2
  | startSend _ _ loop | sent _ loop =>
    exact loop.knowsPeers transparent (knows.of_same rfl (List.Subset.refl _))
  | sendError | readThrew | readError | startupThrew | requestBad | directFailed =>
    exact KnowsPeers.stopHere (knows.of_same rfl (List.Subset.refl _))
  | _ => exact knows.of_same rfl (List.Subset.refl _)

theorem Calls.knowsPeers {c : RelayCall} (called : Calls r c r') (served : ServedBy issued r (.call c))
    (knows : KnowsPeers issued r) : KnowsPeers issued r' := by
  have more (task : RelayTask) (other : ∀ s peer, task ≠ .addPeer s peer) {a : Relay}
      (peers : a.udp.peers = r.udp.peers) (inbox : a.inbox = r.inbox ++ [task]) :
      KnowsPeers issued a := by
    refine ⟨fun s dst there => knows.table s dst (peers ▸ there), fun s peer there => ?_⟩
    rw [inbox] at there
    rcases List.mem_append.mp there with old | new
    · exact knows.posted s peer old
    · exact absurd (List.mem_singleton.mp new).symm (other s peer)
  cases called with
  | @sendData buf => exact more (.sendData buf) nofun rfl rfl
  | stopRaw => exact more .stopRelay nofun rfl rfl
  | @delPeer session => exact more (.delPeer session) nofun rfl rfl
  | startRead | startUdpRemote | startUdpLocal => exact more .startInit nofun rfl rfl
  | @addPeer session peer =>
    refine ⟨knows.table, fun s e there => ?_⟩
    rcases List.mem_append.mp there with old | new
    · exact knows.posted s e old
    · cases List.mem_singleton.mp new
      exact served
  | _ => exact knows.of_same rfl (List.Subset.refl _)

/-! ## Runs of a raw_udp -/

theorem transparent_reach (run : Reach act (ServedBy issued) udpSend r) :
    r.kind = .rawUdp ∧ r.type = .localTransparent ∧ r.Lives := by
  have lives : r.Lives := ⟨udpSend, born_udpSend, run.mono ServedBy.proper⟩
  suffices both : r.kind = .rawUdp ∧ r.type = .localTransparent from ⟨both.1, both.2, lives⟩
  refine run.invariant (P := fun r => r.kind = .rawUdp ∧ r.type = .localTransparent) ⟨rfl, rfl⟩
    fun {t a t'} _ both _ stepped => ?_
  cases a with
  | call c =>
    cases stepped
    exact ⟨(call_kind t c).trans both.1, (call_type t c).trans both.2⟩
  | event alive ev =>
    obtain ⟨h, outs, handled, rfl⟩ := act_event.mp stepped
    have same := (handles_of_handle handled).sameCalls
    exact ⟨same.kind.trans both.1, same.type.trans both.2⟩

theorem knowsPeers_reach (run : Reach act (ServedBy issued) udpSend r) : KnowsPeers issued r := by
  refine run.invariant (P := KnowsPeers issued) ⟨fun s dst there => ?_, nofun⟩
    fun {t a t'} before knows served stepped => ?_
  · cases (Map.lookup_empty s).symm.trans there
  · cases a with
    | call c =>
      cases stepped
      exact (calls_call t c).knowsPeers served knows
    | event alive ev =>
      obtain ⟨h, outs, handled, rfl⟩ := act_event.mp stepped
      have known := (handles_of_handle handled).knowsPeers (transparent_reach before).2.1 knows
      exact known.of_same rfl (List.Subset.refl _)

/-- The message under way is at the head of the queue. -/
theorem Placed.head {buf : Frame} (placed : Placed r) (busy : r.sending ≠ none)
    (last : r.log.passed.getLast? = some buf) : ∃ rest, r.bufs = buf :: rest := by
  cases placed with
  | waiting none => exact absurd none busy
  | @busy before rest head _ bufs _ passed =>
    rw [passed, List.getLast?_concat] at last
    cases last
    exact ⟨rest, bufs⟩
  | stuck stuck => exact absurd stuck.sending busy

/-- **The datagrams of a raw_udp** of a transparent proxy, when every message names a port. -/
theorem replies_sent (run : Reach act (ServedBy issued) udpSend r) (ported : Ported r) :
    Datagrams (Frame.Returns issued) r := by
  suffices both : Targets (fun dst buf => PeerOf issued buf.session dst) r ∧
      Datagrams (Frame.Returns issued) r from both.2
  revert ported
  refine run.invariant (P := fun r => Ported r →
    Targets (fun dst buf => PeerOf issued buf.session dst) r ∧
      Datagrams (Frame.Returns issued) r) (fun _ => ?_) fun {t a t'} before both served stepped
        ported => ?_
  · have idle {dst window} : udpSend.sending ≠ some (.datagram dst window false) := nofun
    exact ⟨targets_idle idle, .nil, fun _ _ waits => absurd waits idle⟩
  · obtain ⟨_, transparent, lives⟩ := transparent_reach before
    have portedBefore := ported_of_act lives stepped ported
    obtain ⟨targets, datagrams⟩ := both portedBefore
    cases a with
    | call c =>
      cases stepped
      have called := calls_call t c
      exact ⟨called.targets targets, called.datagrams datagrams⟩
    | event alive ev =>
      obtain ⟨h, outs, handled, rfl⟩ := act_event.mp stepped
      have handles := handles_of_handle handled
      have knows := knowsPeers_reach before
      have binds := (binds_reach (before.mono ServedBy.proper) portedBefore).2.2
      have aims : Aims (fun dst buf => PeerOf issued buf.session dst) t := by
        intro s s' buf done dst found type udp
        rcases (peers_getSendDataAddr found (type.trans transparent)).1 with there | none
        · exact knows.table buf.session dst (udp ▸ there)
        · exact .inl none
      have sound : Sound (Frame.Returns issued) t := by
        intro dst window buf waits sock last isWindow
        have busy : t.sending ≠ none := by
          rw [waits]
          exact nofun
        obtain ⟨rest, queue⟩ := lives.placed.head busy last
        obtain ⟨head, _, isHead, _, _, bound⟩ := binds.sending waits
        obtain ⟨buf', last', peer⟩ := targets _ _ waits
        cases last.symm.trans last'
        cases queue.symm.trans isHead
        exact ⟨isWindow, bound sock, peer⟩
      have targets' := handles.targets targets aims lives.startsOnce
      have datagrams' := handles.datagrams datagrams sound lives.startsOnce
      exact ⟨targets'.of_same rfl rfl, datagrams'.of_same (.inl rfl) rfl rfl⟩

end Relay

namespace Node

variable {n m : Node}

/-- The manager of a transparent proxy serves all its raw_udps, and has none in `_relays`. -/
def ServesUdps (n : Node) : Prop :=
  (∀ u, u < n.next → (n.objs u).kind = .rawUdp →
    Reach Relay.act (Relay.ServedBy n.issued) Relay.udpSend (n.objs u)) ∧
    ∀ s r, n.relays.lookup s = some (some r) → r < n.next ∧ (n.objs r).kind ≠ .rawUdp

/-! ## The parts of a handler -/

theorem ServesUdps.keep (serves : ServesUdps n) (objs : m.objs = n.objs) (next : m.next = n.next)
    (issued : n.issued ⊆ m.issued)
    (relays : ∀ s r, m.relays.lookup s = some (some r) → n.relays.lookup s = some (some r)) :
    ServesUdps m := by
  refine ⟨fun u known udp => ?_, fun s r there => ?_⟩ <;> rw [objs] at *
  · exact (serves.1 u (next ▸ known) udp).mono fun served => served.mono issued
  · rw [next]
    exact serves.2 s r (relays s r there)

theorem ServesUdps.call (serves : ServesUdps n) {a : RelayId} {c : RelayCall}
    (served : (n.objs a).kind = .rawUdp → (n.objs a).ServedBy n.issued (.call c)) :
    ServesUdps (n.call a c) := by
  refine ⟨fun u known udp => ?_, fun s r there => ?_⟩ <;> rw [objs_call_kind] at *
  · have before := serves.1 u known udp
    rw [objs_call]
    split
    · rename_i same
      subst same
      exact before.tail (served udp) rfl
    · exact before
  · exact serves.2 s r there

theorem ServesUdps.make (serves : ServesUdps n) (relay : Relay)
    (born : relay.kind = .rawUdp →
      Reach Relay.act (Relay.ServedBy n.issued) Relay.udpSend relay) :
    ServesUdps (n.make relay) := by
  refine ⟨fun u known udp => ?_, fun s r there => ?_⟩
  · rw [objs_make] at udp ⊢
    split at udp
    · rename_i new
      rw [if_pos new]
      exact born udp
    · rename_i other
      rw [if_neg other]
      exact serves.1 u (Nat.lt_of_le_of_ne (Nat.le_of_lt_succ known) other) udp
  · obtain ⟨known, raw⟩ := serves.2 s r there
    rw [objs_make_of_lt relay known]
    exact ⟨known.trans (Nat.lt_succ_self _), raw⟩

/-- A relay comes into `_relays`. -/
theorem ServesUdps.list (serves : ServesUdps n) {s : UInt32} {r : RelayId}
    (raw : r < n.next ∧ (n.objs r).kind ≠ .rawUdp) :
    ServesUdps { n with relays := n.relays.insert s (some r) } := by
  refine ⟨serves.1, fun s' r' there => ?_⟩
  replace there : (n.relays.insert s (some r)).lookup s' = some (some r') := there
  rw [Map.lookup_insert] at there
  split at there
  · cases there
    exact raw
  · exact serves.2 s' r' there

theorem ServesUdps.requested (serves : ServesUdps n)
    (ssl : ∀ k, n.ssl = some k → (n.objs k).kind = .ssl) {relay : Option RelayId} {buf : Frame}
    (requested : Requested relay buf n m) : ServesUdps m := by
  cases requested with
  | @sent k current =>
    refine serves.call (c := .sendData buf) fun udp => ?_
    exact absurd ((ssl k current).symm.trans udp) nofun
  | made => exact serves.make (n.newSslRelay.sendData buf) nofun
  | lost => exact serves

/-- A raw_udp of a transparent proxy starts. -/
theorem served_localUdp (transparent : n.type = .localTransparent) (issued : List Issue)
    (started : Bool) : Reach Relay.act (Relay.ServedBy issued) Relay.udpSend
      (if started then (n.newRawUdp 0).startUdp else n.newRawUdp 0) := by
  have isNew : n.newRawUdp 0 = Relay.udpSend := by
    unfold newRawUdp
    rw [transparent]
    rfl
  rw [isNew]
  split
  · exact Reach.refl.tail (a := .call .startUdp) ⟨rfl, Relay.born_udpSend⟩ rfl
  · exact .refl

theorem servesUdps_part (transparent : n.type = .localTransparent) (wf : WellFormed n)
    (serves : ServesUdps n) (part : Part n m) : ServesUdps m := by
  have other {r : RelayId} {P : Prop} (tcp : (n.objs r).kind = .rawTcp)
      (udp : (n.objs r).kind = .rawUdp) : P := absurd (tcp.symm.trans udp) nofun
  have ssl (k : RelayId) (current : n.ssl = some k) : (n.objs k).kind = .ssl := (wf.ssl current).2
  cases part with
  | @requested _ _ strand _ _ requested =>
    exact ServesUdps.requested (n := { n with strand }) serves ssl requested
  | @emit r buf _ _ proper _ requested =>
    have emitted : ServesUdps (n.call r (.emit buf)) := serves.call fun udp => other proper.1 udp
    refine emitted.requested (fun k current => ?_) requested
    rw [objs_call_kind]
    exact ssl k current
  | own _ _ requested => exact serves.requested ssl requested
  | respond | repeated | packet => exact serves
  | @data k r buf strand _ _ listed =>
    refine ServesUdps.call (n := n.respond k buf strand) serves (c := .sendData buf) fun udp => ?_
    exact absurd udp (serves.2 _ r listed).2
  | stopped => exact ⟨serves.1, fun s r there => serves.2 s r (Map.of_lookup_erase there).2⟩
  | drop fewer => exact ⟨serves.1, fun s r there => serves.2 s r (fewer there)⟩
  | @begin r strand queue _ =>
    obtain ⟨known, dst, accepted⟩ := wf.pending (queue ▸ List.mem_cons_self)
    have tcp : (n.objs r).kind = .rawTcp := by
      rw [accepted]
      rfl
    have listed : ServesUdps { n with relays := n.relays.insert n.session (some r) } :=
      serves.list ⟨known, by rw [tcp]; exact nofun⟩
    have issued : ServesUdps { n with
        strand
        session := n.session + 1
        allocated := n.allocated + 1
        relays := n.relays.insert n.session (some r)
        issued := n.issued ++ [Issue.tcp n.session r] } :=
      listed.keep rfl rfl (List.subset_append_left _ _) fun _ _ => id
    exact issued.call fun udp => other tcp udp
  | startRead _ proper => exact serves.call fun udp => other proper.1 udp
  | halt _ halts =>
    rcases halts with rfl | rfl
    · exact serves.call (c := .stopRelay) fun _ => trivial
    · exact serves.call (c := .timeoutDown) fun _ => trivial
  | @makeTcp s target =>
    have made : ServesUdps (n.make ((n.newRawTcp (some target)).begin s)) := serves.make _ nofun
    refine ServesUdps.list made ⟨Nat.lt_succ_self _, ?_⟩
    rw [objs_make, if_pos rfl]
    exact nofun
  | orphanUdp _ _ _ remote | makeUdp _ _ _ remote | datagram remote =>
    exact absurd (transparent.symm.trans remote) nofun
  | @reply u buf _ _ isData => exact serves.call (c := .sendData buf) fun _ => isData

theorem servesUdps_udpPart (transparent : n.type = .localTransparent)
    (serves : ServesUdps n) (part : UdpPart n m) : ServesUdps m := by
  cases part with
  | assign => exact serves.keep rfl rfl (List.subset_append_left _ _) fun _ _ => id
  | sources => exact serves
  | @addPeer u s src _ issued => exact serves.call (c := .addPeer s src) fun _ => issued
  | @delPeer u s => exact serves.call (c := .delPeer s) fun _ => trivial
  | localUdp started =>
    exact serves.make _ fun _ => served_localUdp transparent n.issued started

theorem servesUdps_outside {a : NodeAction} (serves : ServesUdps n)
    (outside : Outside n a m) : ServesUdps m := by
  cases outside with
  | @accept dst => exact serves.make (n.newAccepted dst) nofun
  | udpPacket | release => exact serves
  | @relay r ev relay outs callable stepped =>
    have kind := (Relay.sameCalls_step stepped).kind
    refine ⟨fun u known udp => ?_, fun s a there => ?_⟩
    · replace udp : ((Function.update n.objs r relay) u).kind = .rawUdp := udp
      show Reach _ _ _ (Function.update n.objs r relay u)
      rw [Function.update_apply] at udp ⊢
      split
      · rename_i same
        rw [if_pos same] at udp
        refine (serves.1 r callable.1 (kind.symm.trans udp)).tail
          (a := .event n.alive ev) trivial ?_
        rw [Relay.act, stepped]
        rfl
      · rename_i same
        rw [if_neg same] at udp
        exact serves.1 u known udp
    · obtain ⟨known, raw⟩ := serves.2 s a there
      refine ⟨known, ?_⟩
      show ((Function.update n.objs r relay) a).kind ≠ .rawUdp
      rw [Function.update_apply]
      split
      · rename_i same
        rw [kind, ← same]
        exact raw
      · exact raw

/-- **The raw_udps of a transparent proxy** in every run. -/
theorem servesUdps_reach {C : Node → NodeAction → Prop}
    (run : Reach step C (initLocal .localTransparent) n) : ServesUdps n := by
  have starts : Starts (initLocal .localTransparent) := .localSide nofun
  suffices both : n.type = .localTransparent ∧ ServesUdps n from both.2
  refine parts_rule (P := fun n => n.type = .localTransparent ∧ ServesUdps n) starts.wellFormed run
    ⟨rfl, fun u _ _ => ?_, nofun⟩ (fun wf both part => ?_) (fun wf both part => ?_)
    fun wf both _ outside => ?_
  · exact served_localUdp (n := initLocal .localTransparent) rfl [] true
  · exact ⟨(grows_part part).type.trans both.1, servesUdps_part both.1 wf both.2 part⟩
  · exact ⟨(grows_udpPart part).type.trans both.1, servesUdps_udpPart both.1 both.2 part⟩
  · exact ⟨(grows_outside outside).type.trans both.1, servesUdps_outside both.2 outside⟩

end Node

end SslSocks
