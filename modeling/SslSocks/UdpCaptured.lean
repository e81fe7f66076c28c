import SslSocks.Lib.Trace
import SslSocks.SessionOwners
import SslSocks.System

/-!
# The packets that a local manager passes on

`local_udp_accept` captures packets, and `send_udp_data` gives each the session of its source
and passes it to `add_request`. `Queries` says where the packets of a run are: those that were
passed on, the `queries`, and those that still wait in the manager's strand are, in order, some
of those captured, and every `DATA_UDP` asked for by the manager is the message of one query.
-/

namespace SslSocks

open Lib

/-- What `local_udp_accept` captures. -/
structure Packet where
  src : Endpoint
  dst : Option Endpoint
  received : Option (List UInt8)
  deriving DecidableEq

/-- Its message; the session is still to come. -/
def Packet.frame (packet : Packet) : Frame := transparentUdpRecvOn packet.dst packet.received

/-- A packet that was passed on, with the session that it got and the ssl relay, if one did get
it. -/
structure Query where
  packet : Packet
  session : UInt32
  ssl : Option RelayId
  deriving DecidableEq

def Query.frame (query : Query) : Frame := { query.packet.frame with session := query.session }

def Query.request (query : Query) : Request := ⟨query.ssl, none, query.frame⟩

/-- The packet that the step captures. -/
def NodeAction.captured : NodeAction → List Packet
  | .udpPacket src dst received => [⟨src, dst, received⟩]
  | _ => []

namespace Node

variable {n m : Node} {packets : List Packet} {qs : List Query}

/-- The manager passes on a packet, for no relay. -/
def PassesPacket (q : Request) : Prop := q.relay = none ∧ q.buf.cmd = .dataUdp

instance : DecidablePred PassesPacket := fun _ => inferInstanceAs (Decidable (_ ∧ _))

/-- The packets that were passed on. -/
def passedOn (n : Node) : List Request := n.requests.filter PassesPacket

/-- The packets that wait in the strand. -/
def waiting (n : Node) : List (Endpoint × Frame) :=
  n.strand.filterMap fun task =>
    match task with
    | .sendUdpData src buf => some (src, buf)
    | _ => none

/-- Where the packets are. -/
structure Queries (n : Node) (packets : List Packet) (qs : List Query) : Prop where
  passed : n.passedOn = qs.map Query.request
  order : ∃ later : List Packet, n.waiting = later.map (fun packet => (packet.src, packet.frame)) ∧
    (qs.map Query.packet ++ later).Sublist packets
  issued : ∀ query ∈ qs, Issue.udp query.session query.packet.src ∈ n.issued

/-! ## Steps that pass on no packet -/

/-- Something is asked, but no packet passed on. -/
def AsksOther (n m : Node) : Prop := Asked (fun q => ¬ PassesPacket q) n m

theorem AsksOther.passedOn (asks : AsksOther n m) : m.passedOn = n.passedOn := by
  obtain ⟨asked, requests, other⟩ := asks
  have none : asked.filter PassesPacket = [] := by
    apply List.filter_eq_nil_iff.mpr
    intro q there
    rw [decide_eq_true_iff]
    exact other q there
  unfold Node.passedOn
  rw [requests, List.filter_append, none, List.append_nil]

/-- The relay of a `START_TCP` may ask, never the manager. -/
theorem asksOther_startRawTcp (n : Node) (throws : Throws) (r : RelayId) (session : UInt32) :
    (n.startRawTcp throws r session).Both (AsksOther n) := by
  apply asked_startRawTcp
  · intro k buf _ _ passes
    cases passes.1
  · intro k buf _ passes
    cases passes.1

theorem asksOther_remoteServerStartTcp (n : Node) (throws : Throws) (buf : Frame) :
    (n.remoteServerStartTcp throws buf).Both (AsksOther n) := by
  have slot : (n.relaySlot buf.session).requests = n.requests := by
    unfold relaySlot
    split <;> rfl
  unfold remoteServerStartTcp
  simp only
  generalize n.relaySlot buf.session = k at slot
  have stopped : ((k.relays.lookup buf.session).join.elim k fun r =>
      k.call r .stopRelay).requests = n.requests := by
    cases (k.relays.lookup buf.session).join <;> exact slot
  generalize (k.relays.lookup buf.session).join.elim k _ = stop at stopped
  cases parseAddress buf.payload buf.payload.length with
  | error => exact Asked.of_eq stopped
  | ok target =>
    refine (asksOther_startRawTcp _ throws stop.next buf.session).mono fun m asks => ?_
    have same : AsksOther n { stop.make (stop.newRawTcp (some target)) with
        relays := stop.relays.insert buf.session (some stop.next) } := Asked.of_eq stopped
    exact Asked.trans same asks

/-- **The other handlers** of the manager's strand. -/
theorem asksOther_runTask (localSide : n.type ≠ .remoteServer) (throws : Throws)
    {task : ManagerTask} (other : ∀ src buf, task ≠ .sendUdpData src buf) :
    (n.runTask throws task).Both (AsksOther n) := by
  cases task with
  | addRequest relay buf =>
    apply asked_addRequest n throws.newSsl
    intro k passes
    cases passes.1
  | addLocalRawTcp relay =>
    apply asked_addLocalRawTcp throws
    · intro _ k buf _ _ passes
      cases passes.1
    · intro k buf _ passes
      cases passes.1
  | sendUdpData src buf => exact absurd rfl (other src buf)
  | addResponse relay buf =>
    by_cases start : buf.cmd = .startTcp
    · show (n.addResponse throws relay buf).Both _
      unfold addResponse
      simp only [start]
      have asks := asksOther_remoteServerStartTcp { n with answered := n.answered ++ [(relay, buf)] }
        throws buf
      exact asks.mono fun m asks => asks
    · apply asked_addResponse localSide throws start
      intro k frame stop passes
      cases stop.symm.trans passes.2

/-! ## A packet is passed on -/

/-- `send_udp_data` passes its packet on, under the session of its source, or throws. -/
theorem passedOn_sendUdpData (throws : Throws) (src : Endpoint) {buf : Frame}
    (isData : buf.cmd = .dataUdp)
    (sources : ∀ {entry}, n.srcs.lookup src = some entry → entry.session ≠ 0 →
      Issue.udp entry.session src ∈ n.issued)
    (issued : (n.source src).session = 0 → Issue.udp (n.session + 1) src ∈ m.issued)
    (grows : n.issued <+: m.issued) (ran : m = (n.sendUdpData throws src buf).state) :
    m.passedOn = n.passedOn ∨ ∃ k s, Issue.udp s src ∈ m.issued ∧
      m.passedOn = n.passedOn ++ [⟨k, none, { buf with session := s }⟩] := by
  have once := (requests_sendUdpData n throws src buf).2
  have asks : (n.sendUdpData throws src buf).Both
      (Asked (fun q => Issue.udp q.buf.session src ∈ m.issued) n) := by
    apply asked_sendUdpData
    · intro given k
      cases found : n.srcs.lookup src with
      | none =>
        refine absurd ?_ given
        unfold source
        rw [found]
        rfl
      | some entry =>
        rw [source_of_lookup found] at given ⊢
        exact grows.subset (sources found given)
    · exact fun first k => issued first
  replace once : m.requests = n.requests ∨ ∃ k, m.requests =
      n.requests ++ [⟨k, none, { buf with session := (m.source src).session }⟩] := ran ▸ once
  obtain ⟨asked, requests, owned⟩ : Asked (fun q => Issue.udp q.buf.session src ∈ m.issued) n m := by
    have both := asks
    unfold Fallible.Both at both
    rwa [← ran] at both
  rcases once with same | ⟨k, more⟩
  · refine .inl ?_
    unfold passedOn
    rw [same]
  · refine .inr ⟨k, (m.source src).session, ?_, ?_⟩
    · have new : asked = [⟨k, none, { buf with session := (m.source src).session }⟩] :=
        List.append_cancel_left (requests.symm.trans more)
      exact owned ⟨k, none, { buf with session := (m.source src).session }⟩
        (new ▸ List.mem_cons_self)
    · unfold passedOn
      rw [more, List.filter_append]
      congr 1
      have passes : PassesPacket ⟨k, none, { buf with session := (m.source src).session }⟩ :=
        ⟨rfl, isData⟩
      exact List.filter_cons_of_pos (decide_eq_true passes)

/-! ## Steps and runs -/

theorem Queries.keep (queries : Queries n packets qs) (passed : m.passedOn = n.passedOn)
    (waiting : m.waiting = n.waiting) (issued : n.issued <+: m.issued) : Queries m packets qs := by
  obtain ⟨isPassed, ⟨later, waits, order⟩, owned⟩ := queries
  exact ⟨passed.trans isPassed, ⟨later, waiting.trans waits, order⟩,
    fun query there => issued.subset (owned query there)⟩

theorem waiting_append (more : List ManagerTask) (strand : m.strand = n.strand ++ more)
    (other : ∀ src buf, .sendUdpData src buf ∉ more) : m.waiting = n.waiting := by
  have none : more.filterMap (fun task => match task with
      | .sendUdpData src buf => some (src, buf)
      | _ => none) = [] := by
    apply List.filterMap_eq_nil_iff.mpr
    intro task there
    cases task with
    | sendUdpData src buf => exact absurd there (other src buf)
    | _ => rfl
  unfold waiting
  rw [strand, List.filterMap_append, none, List.append_nil]

/-- The next packet of the strand is passed on, or dropped. -/
theorem queries_sendUdpData (wf : WellFormed n) (queries : Queries n packets qs)
    {throws : Throws} {src : Endpoint} {buf : Frame} {strand : List ManagerTask}
    (queue : n.strand = .sendUdpData src buf :: strand) (isData : buf.cmd = .dataUdp)
    (rest : (sendUdpData { n with strand } throws src buf).state.strand = strand)
    (issued : n.issued <+: (sendUdpData { n with strand } throws src buf).state.issued)
    (first : (n.source src).session = 0 → Issue.udp (n.session + 1) src ∈
      (sendUdpData { n with strand } throws src buf).state.issued) :
    ∃ more, Queries (sendUdpData { n with strand } throws src buf).state packets (qs ++ more) := by
  obtain ⟨passed, ⟨later, waits, order⟩, owned⟩ := queries
  have before : n.waiting = (src, buf) :: waiting { n with strand } := by
    unfold waiting
    rw [queue]
    rfl
  rw [before] at waits
  obtain ⟨packet, later, rfl, same, after⟩ := List.map_eq_cons_iff.mp waits.symm
  cases same
  generalize ran : (sendUdpData { n with strand } throws packet.src packet.frame).state = m at *
  have waits' : m.waiting = later.map fun packet => (packet.src, packet.frame) := by
    unfold waiting at after ⊢
    rw [rest]
    exact after.symm
  have order' : (qs.map Query.packet ++ later).Sublist packets :=
    ((List.sublist_cons_self packet later).append_left _).trans order
  have old (query : Query) (there : query ∈ qs) := issued.subset (owned query there)
  rcases passedOn_sendUdpData (n := { n with strand }) throws packet.src isData wf.sources first
    issued ran.symm with dropped | ⟨k, s, isIssued, more⟩
  · refine ⟨[], dropped.trans ?_, ⟨later, waits', ?_⟩, ?_⟩
    · rw [List.append_nil]
      exact passed
    · rw [List.append_nil]
      exact order'
    · rw [List.append_nil]
      exact old
  · refine ⟨[⟨packet, s, k⟩], more.trans ?_, ⟨later, waits', ?_⟩, fun query there => ?_⟩
    · rw [List.map_append, ← passed]
      rfl
    · rw [List.map_append, List.append_assoc]
      exact order
    · rcases List.mem_append.mp there with before | new
      · exact old query before
      · rw [List.mem_singleton.mp new]
        exact isIssued

/-- **One step**: a packet is captured, or passed on, or dropped. -/
theorem queries_step (wf : WellFormed n) (localSide : n.type ≠ .remoteServer)
    (queries : Queries n packets qs) {a : NodeAction} (stepped : n.step a = some m) :
    ∃ more, Queries m (packets ++ a.captured) (qs ++ more) := by
  have issued : n.issued <+: m.issued := (counts_step stepped).issued ▸ List.prefix_append _ _
  have quiet (passed : m.passedOn = n.passedOn) (waiting : m.waiting = n.waiting)
      (none : a.captured = []) : ∃ more, Queries m (packets ++ a.captured) (qs ++ more) := by
    refine ⟨[], ?_⟩
    rw [none, List.append_nil, List.append_nil]
    exact queries.keep passed waiting issued
  cases stepIs_of_step stepped with
  | accept _ =>
    refine quiet rfl (waiting_append [.addLocalRawTcp n.next] rfl ?_) rfl
    intro src buf there
    cases List.mem_singleton.mp there
  | @udpPacket src dst received _ =>
    obtain ⟨passed, ⟨later, waits, order⟩, owned⟩ := queries
    refine ⟨[], ?_⟩
    rw [List.append_nil]
    refine ⟨passed, ⟨later ++ [⟨src, dst, received⟩], ?_, ?_⟩, owned⟩
    · show (n.strand ++ [ManagerTask.sendUdpData src (transparentUdpRecvOn dst received)]).filterMap
        _ = _
      rw [List.filterMap_append, List.map_append, ← waits]
      rfl
    · rw [← List.append_assoc]
      exact order.append_right _
  | release _ => exact quiet rfl rfl rfl
  | tick _ =>
    have passed : n.tick.passedOn = n.passedOn := by
      unfold passedOn
      rw [requests_tick localSide]
    refine quiet passed ?_ rfl
    unfold waiting
    rw [(work_tick n).strand]
  | @relay r ev relay outs known handled =>
    refine quiet rfl (waiting_append (outs.filterMap (asked r)) rfl ?_) rfl
    intro src buf there
    obtain ⟨out, _, is⟩ := List.mem_filterMap.mp there
    cases out <;> cases is
  | @manager throws task strand queue =>
    have rest : (Fallible.state (runTask { n with strand } throws task)).strand = strand :=
      strand_runTask { n with strand } throws task
    by_cases packet : ∃ src buf, task = .sendUdpData src buf
    · obtain ⟨src, buf, rfl⟩ := packet
      have packet := wf.packets (queue ▸ List.mem_cons_self)
      rw [show NodeAction.captured (.manager throws) = [] from rfl, List.append_nil]
      refine queries_sendUdpData wf queries queue packet.1 rest issued fun new => ?_
      have drawn := (counts_step stepped).issued
      rw [show (sendUdpData { n with strand } throws src buf).state.issued = _ from drawn]
      apply List.mem_append_right
      apply Option.mem_toList.mpr
      unfold draws
      rw [queue]
      exact if_pos new
    · have other : ∀ src buf, task ≠ .sendUdpData src buf :=
        fun src buf is => packet ⟨src, buf, is⟩
      have asks := asksOther_runTask (n := { n with strand }) localSide throws other
      refine quiet (AsksOther.passedOn asks) ?_ rfl
      unfold waiting
      rw [rest, queue]
      cases task with
      | sendUdpData src buf => exact absurd rfl (other src buf)
      | _ => rfl

end Node

end SslSocks
