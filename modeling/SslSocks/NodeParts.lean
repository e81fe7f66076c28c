import SslSocks.NodeSteps
import SslSocks.RelayLife

/-!
# The parts of the manager's handlers

`Node.Part` lists what a handler of the manager does in one place, with what it has
checked there, and `Node.UdpPart` does so for the places that touch the UDP tables
and `_udp_send`. Every step of a node is a run of such parts (`parts_step`), so an
invariant of nodes that holds between the parts is checked once on each of them.
`Node.WellFormed` is the first: who is in `_relays`, `_ssl` and `_udp_send`.
-/

namespace SslSocks

open Lib

namespace Node

/-- A `START_TCP` came whose address could not be read: its handler threw, with the old
relay of the session stopped and still in `_relays`. -/
def BadStart (n : Node) : Prop :=
  ∃ entry ∈ n.answered, entry.2.cmd = .startTcp ∧
    (parseAddress entry.2.payload entry.2.payload.length).isOk = false

/-- The relay was made, and is not an accepted one that waits for its session. -/
def Callable (n : Node) (r : RelayId) : Prop :=
  r < n.next ∧ .addLocalRawTcp r ∉ n.strand

/-- The relay is in `_relays`. -/
def Listed (n : Node) (r : RelayId) : Prop := ∃ s, n.relays.lookup s = some (some r)

/-- `add_request` up to its end, or to `stop_manager`. -/
inductive Requested (relay : Option RelayId) (buf : Frame) (n : Node) : Node → Prop
  | sent {k : RelayId} :
    n.ssl = some k → (n.objs k).state ≠ .stop →
    Requested relay buf n
      { n.call k (.sendData buf) with requests := n.requests ++ [⟨some k, relay, buf⟩] }
  | made :
    n.sslDown → n.type ≠ .remoteServer →
    Requested relay buf n
      { n.make (n.newSslRelay.sendData buf) with
        ssl := some n.next
        requests := n.requests ++ [⟨some n.next, relay, buf⟩] }
  | lost :
    n.sslDown → Requested relay buf n { n with requests := n.requests ++ [⟨none, relay, buf⟩] }

/-- The handler of a message from an ssl relay begins. -/
def respond (n : Node) (k : RelayId) (buf : Frame) (strand : List ManagerTask) : Node :=
  { n with strand, answered := n.answered ++ [(k, buf)] }

/-- The message that an ssl relay brought last. -/
def Answering (n : Node) (buf : Frame) : Prop := ∃ k, n.answered.getLast? = some (k, buf)

/-- The last message that `add_request` passed on is the `START_TCP` of the relay, to an
ssl relay that is up. -/
def Opening (n : Node) (r : RelayId) : Prop :=
  n.sslDown = false ∧
    ∃ k before buf, n.ssl = some k ∧ n.requests = before ++ [⟨some k, some r, buf⟩] ∧
      buf.cmd = .startTcp

/-- A part of a handler that leaves the UDP tables and `_udp_send` alone. -/
inductive Part (n : Node) : Node → Prop
  /-- `add_request` for a message of a relay, posted or in the strand, or for one of the
  manager's own. -/
  | requested {r : RelayId} {buf : Frame} {strand : List ManagerTask} {m : Node} :
    n.strand = .addRequest r buf :: strand → Requested (some r) buf { n with strand } m → Part n m
  | emit {r : RelayId} {buf : Frame} {m : Node} :
    n.Listed r → (n.objs r).Proper (.call (.emit buf)) →
    (∀ later, .addRequest r later ∉ n.strand) →
    Requested (some r) buf (n.call r (.emit buf)) m → Part n m
  | own {buf : Frame} {m : Node} :
    (buf.cmd = .stopTcp ∨ buf.cmd = .dataUdp ∧ ∃ src, Issue.udp buf.session src ∈ n.issued) →
    buf.payload.length ≤ readBufferSize → Requested none buf n m → Part n m
  /-- A message from an ssl relay; `DATA_TCP` of a session in `_relays` goes to its relay
  or, when that is stopped, removes it. -/
  | respond {k : RelayId} {buf : Frame} {strand : List ManagerTask} :
    n.strand = .addResponse k buf :: strand →
    (buf.cmd = .dataTcp → (n.relays.lookup buf.session).join = none) →
    Part n (n.respond k buf strand)
  | data {k r : RelayId} {buf : Frame} {strand : List ManagerTask} :
    n.strand = .addResponse k buf :: strand → buf.cmd = .dataTcp →
    n.relays.lookup buf.session = some (some r) → (n.objs r).state ≠ .stop →
    Part n ((n.respond k buf strand).call r (.sendData buf))
  | stopped {k r : RelayId} {buf : Frame} {strand : List ManagerTask} :
    n.strand = .addResponse k buf :: strand → buf.cmd = .dataTcp →
    n.relays.lookup buf.session = some (some r) → (n.objs r).state = .stop →
    Part n { n.respond k buf strand with relays := n.relays.erase buf.session }
  /-- `add_local_raw_tcp`, when the session is in `_relays` and when not. -/
  | repeated {r : RelayId} {strand : List ManagerTask} :
    n.strand = .addLocalRawTcp r :: strand → n.session ∈ n.relays →
    Part n { n with strand, session := n.session + 1, allocated := n.allocated + 1 }
  | begin {r : RelayId} {strand : List ManagerTask} :
    n.strand = .addLocalRawTcp r :: strand → n.session ∉ n.relays →
    Part n (call
      { n with
        strand
        session := n.session + 1
        allocated := n.allocated + 1
        relays := n.relays.insert n.session (some r)
        issued := n.issued ++ [Issue.tcp n.session r] } r (.begin n.session))
  | startRead {r : RelayId} :
    n.Callable r → (n.objs r).Proper (.call .startRead) → n.Opening r →
    Part n (n.call r .startRead)
  /-- A relay is stopped, or its time counted. On the remote side one that is stopped
  has left `_relays`. -/
  | halt {r : RelayId} {c : RelayCall} :
    n.Callable r → c = .stopRelay ∨ c = .timeoutDown →
    (n.type = .remoteServer → (∃ s, n.relays.lookup s = some (some r)) →
      ((n.objs r).call c).log.stopCalled = (n.objs r).log.stopCalled ∨ n.BadStart) →
    Part n (n.call r c)
  /-- Relays leave `_relays`, or a null pointer comes there. -/
  | drop {relays : Map UInt32 (Option RelayId)} {state : RelayState} {timer crashed : Bool} :
    (∀ {s r}, relays.lookup s = some (some r) → n.relays.lookup s = some (some r)) →
    Part n { n with relays, state, timer, crashed }
  | makeTcp {s : UInt32} {target : Host × String} {buf : Frame} :
    n.Answering buf → buf.cmd = .startTcp → buf.session = s →
    Part n { n.make ((n.newRawTcp (some target)).begin s) with
      relays := n.relays.insert s (some n.next) }
  /-- `add_remote_raw_udp`, when `start_relay` throws and when not, and a message for it. -/
  | orphanUdp {s : UInt32} {buf : Frame} :
    n.Answering buf → buf.cmd = .dataUdp → buf.session = s → n.type = .remoteServer →
    Part n (n.make (n.newRawUdp s))
  | makeUdp {s : UInt32} {buf : Frame} :
    n.Answering buf → buf.cmd = .dataUdp → buf.session = s → n.type = .remoteServer →
    Part n { n.make (n.newRawUdp s).startUdp with relays := n.relays.insert s (some n.next) }
  | datagram {s : UInt32} {r : RelayId} {buf : Frame} :
    n.type = .remoteServer → n.relays.lookup s = some (some r) → buf.cmd = .dataUdp →
    n.Answering buf → buf.session = s → Part n (n.call r (.sendData buf))
  /-- A reply for `_udp_send`, and a packet from a source. -/
  | reply {u : RelayId} {buf : Frame} :
    n.type = .localTransparent → n.udpSend = some u → buf.cmd = .dataUdp → n.Answering buf →
    Part n (n.call u (.sendData buf))
  | packet {src : Endpoint} {buf : Frame} {strand : List ManagerTask} :
    n.strand = .sendUdpData src buf :: strand → Part n { n with strand }

/-- A part of a handler that changes the UDP tables, `_udp_send` or its peers. -/
inductive UdpPart (n : Node) : Node → Prop
  | assign {src : Endpoint} {old : UdpTimeout} : UdpPart n (n.assignSession src old)
  | sources {srcs : Map Endpoint UdpTimeout} {udpSrcs : Map UInt32 Endpoint} :
    (∀ {src entry}, srcs.lookup src = some entry → entry.session ≠ 0 →
      Issue.udp entry.session src ∈ n.issued) →
    UdpPart n { n with srcs, udpSrcs }
  | addPeer {u : RelayId} {s : UInt32} {src : Endpoint} :
    n.udpSend = some u → Issue.udp s src ∈ n.issued → UdpPart n (n.call u (.addPeer s src))
  | delPeer {u : RelayId} {s : UInt32} : n.udpSend = some u → UdpPart n (n.call u (.delPeer s))
  /-- `start_local_udp`; `started` when `start_relay` does not throw. -/
  | localUdp (started : Bool) :
    n.udpSend ≠ none →
    UdpPart n { n.make (if started then (n.newRawUdp 0).startUdp else n.newRawUdp 0) with
      udpSend := some n.next }

/-- Who the manager knows. -/
structure WellFormed (n : Node) : Prop where
  type : ∀ {r}, r < n.next → (n.objs r).type = n.type
  ssl : ∀ {k}, n.ssl = some k → k < n.next ∧ (n.objs k).kind = .ssl
  udpSend : ∀ {u}, n.udpSend = some u → u < n.next ∧ (n.objs u).kind = .rawUdp
  relays : ∀ {s r}, n.relays.lookup s = some (some r) →
    n.Callable r ∧ (n.objs r).kind ≠ .ssl ∧ (n.objs r).session = s
  /-- On the remote side a relay in `_relays` was not stopped by the manager. -/
  running : ∀ {s r}, n.relays.lookup s = some (some r) → n.type = .remoteServer →
    (n.objs r).log.stopCalled = false ∨ n.BadStart
  /-- An accepted connection waits once for its session, as it was made. -/
  pending : ∀ {r}, .addLocalRawTcp r ∈ n.strand → r < n.next ∧ ∃ dst, n.objs r = n.newAccepted dst
  once : ∀ r, n.strand.count (.addLocalRawTcp r) ≤ 1
  sources : ∀ {src entry}, n.srcs.lookup src = some entry → entry.session ≠ 0 →
    Issue.udp entry.session src ∈ n.issued
  packets : ∀ {src buf}, .sendUdpData src buf ∈ n.strand →
    buf.cmd = .dataUdp ∧ buf.payload.length ≤ readBufferSize
  askers : ∀ {r buf}, .addRequest r buf ∈ n.strand → n.Callable r

variable {n m : Node}

/-! ## The relays after a call, or after one was made -/

theorem objs_call (n : Node) (r a : RelayId) (c : RelayCall) :
    (n.call r c).objs a = if a = r then (n.objs r).call c else n.objs a := by
  unfold call
  exact Function.update_apply _ _ _ _

theorem objs_call_of_ne {r a : RelayId} (c : RelayCall) (other : a ≠ r) :
    (n.call r c).objs a = n.objs a := by rw [objs_call, if_neg other]

theorem objs_make (n : Node) (relay : Relay) (a : RelayId) :
    (n.make relay).objs a = if a = n.next then relay else n.objs a := by
  unfold make
  exact Function.update_apply _ _ _ _

theorem objs_make_of_lt {a : RelayId} (relay : Relay) (old : a < n.next) :
    (n.make relay).objs a = n.objs a := by rw [objs_make, if_neg (Nat.ne_of_lt old)]

theorem make_call (n : Node) (relay : Relay) (c : RelayCall) :
    (n.make relay).call n.next c = n.make (relay.call c) := by
  unfold call make
  simp only [Function.update_self, Function.update_idem]

theorem call_make (n : Node) (relay : Relay) {r : RelayId} (c : RelayCall) (old : r < n.next) :
    (n.call r c).make relay = (n.make relay).call r c := by
  have other : r ≠ n.next := Nat.ne_of_lt old
  unfold call make
  simp only [Function.update_of_ne other, Function.update_comm other]

theorem objs_call_kind (n : Node) (r a : RelayId) (c : RelayCall) :
    ((n.call r c).objs a).kind = (n.objs a).kind := by
  rw [objs_call]
  split
  · rename_i same
    rw [Relay.call_kind, same]
  · rfl

theorem objs_call_type (n : Node) (r a : RelayId) (c : RelayCall) :
    ((n.call r c).objs a).type = (n.objs a).type := by
  rw [objs_call]
  split
  · rename_i same
    rw [Relay.call_type, same]
  · rfl

theorem objs_call_state (n : Node) (r a : RelayId) (c : RelayCall) :
    ((n.call r c).objs a).state = (n.objs a).state := by
  rw [objs_call]
  split
  · rename_i same
    rw [Relay.call_state, same]
  · rfl

theorem sslDown_call (n : Node) (r : RelayId) (c : RelayCall) :
    (n.call r c).sslDown = n.sslDown := by
  have ssl : (n.call r c).ssl = n.ssl := rfl
  unfold sslDown
  rw [ssl]
  cases n.ssl with
  | none => rfl
  | some k =>
    simp only
    rw [objs_call_state]

theorem objs_call_session {c : RelayCall} (n : Node) (r a : RelayId) (other : ∀ s, c ≠ .begin s) :
    ((n.call r c).objs a).session = (n.objs a).session := by
  rw [objs_call]
  split
  · rename_i same
    rw [Relay.call_session _ other, same]
  · rfl

/-! ## The invariant -/

namespace WellFormed

theorem callable_ssl (wf : WellFormed n) {k : RelayId} (current : n.ssl = some k) :
    n.Callable k := by
  obtain ⟨known, kind⟩ := wf.ssl current
  refine ⟨known, fun waits => ?_⟩
  obtain ⟨_, dst, same⟩ := wf.pending waits
  rw [same] at kind
  cases kind

theorem callable (wf : WellFormed n) {r : RelayId} (listed : n.Listed r) : n.Callable r := by
  obtain ⟨s, there⟩ := listed
  exact (wf.relays there).1

theorem callable_udpSend (wf : WellFormed n) {u : RelayId} (current : n.udpSend = some u) :
    n.Callable u := by
  obtain ⟨known, kind⟩ := wf.udpSend current
  refine ⟨known, fun waits => ?_⟩
  obtain ⟨_, dst, same⟩ := wf.pending waits
  rw [same] at kind
  cases kind

/-- A call of a relay that does not wait for its session. -/
theorem call (wf : WellFormed n) {r : RelayId} {c : RelayCall} (callable : n.Callable r)
    (other : ∀ s, c ≠ .begin s)
    (running : n.type = .remoteServer → (∃ s, n.relays.lookup s = some (some r)) →
      ((n.objs r).call c).log.stopCalled = (n.objs r).log.stopCalled ∨ n.BadStart) :
    WellFormed (n.call r c) where
  type known := (objs_call_type n r _ c).trans (wf.type known)
  ssl current := ⟨(wf.ssl current).1, (objs_call_kind n r _ c).trans (wf.ssl current).2⟩
  udpSend current :=
    ⟨(wf.udpSend current).1, (objs_call_kind n r _ c).trans (wf.udpSend current).2⟩
  relays {s a} there := by
    obtain ⟨known, kind, session⟩ := wf.relays there
    exact ⟨known, (objs_call_kind n r a c).symm ▸ kind,
      (objs_call_session n r a other).trans session⟩
  running {s a} there remote := by
    rw [objs_call]
    split
    · rename_i same
      subst same
      rcases running remote ⟨s, there⟩ with kept | bad
      · rw [kept]
        exact wf.running there remote
      · exact .inr bad
    · exact wf.running there remote
  pending {a} waits := by
    obtain ⟨known, dst, same⟩ := wf.pending waits
    have different : a ≠ r := fun eq => callable.2 (eq ▸ waits)
    exact ⟨known, dst, (objs_call_of_ne c different).trans same⟩
  once := wf.once
  sources := wf.sources
  packets := wf.packets
  askers := wf.askers

/-- A new relay. -/
theorem make (wf : WellFormed n) {relay : Relay} (type : relay.type = n.type) :
    WellFormed (n.make relay) where
  type {r} known := by
    rw [objs_make]
    split
    · exact type
    · rename_i other
      exact wf.type (Nat.lt_of_le_of_ne (Nat.le_of_lt_succ known) other)
  ssl current := by
    obtain ⟨known, kind⟩ := wf.ssl current
    exact ⟨Nat.lt_succ_of_lt known, (objs_make_of_lt relay known).symm ▸ kind⟩
  udpSend current := by
    obtain ⟨known, kind⟩ := wf.udpSend current
    exact ⟨Nat.lt_succ_of_lt known, (objs_make_of_lt relay known).symm ▸ kind⟩
  relays {s r} there := by
    obtain ⟨⟨known, waits⟩, kind, session⟩ := wf.relays there
    have same := objs_make_of_lt relay known
    exact ⟨⟨Nat.lt_succ_of_lt known, waits⟩, same.symm ▸ kind, same.symm ▸ session⟩
  running there remote := by
    rw [objs_make_of_lt relay (wf.relays there).1.1]
    exact wf.running there remote
  pending waits := by
    obtain ⟨known, dst, same⟩ := wf.pending waits
    exact ⟨Nat.lt_succ_of_lt known, dst, (objs_make_of_lt relay known).trans same⟩
  once := wf.once
  sources := wf.sources
  packets := wf.packets
  askers waits := ⟨Nat.lt_succ_of_lt (wf.askers waits).1, (wf.askers waits).2⟩

/-- Handlers leave the strand, relays leave `_relays`, messages are noted. -/
theorem shrink (wf : WellFormed n) (manager : m.ssl = n.ssl ∧ m.udpSend = n.udpSend)
    (objs : m.type = n.type ∧ m.objs = n.objs ∧ m.next = n.next)
    (relays : ∀ {s r}, m.relays.lookup s = some (some r) → n.relays.lookup s = some (some r))
    (strand : m.strand.Sublist n.strand) (answered : n.answered ⊆ m.answered)
    (sources : ∀ {src entry}, m.srcs.lookup src = some entry → entry.session ≠ 0 →
      Issue.udp entry.session src ∈ m.issued) : WellFormed m := by
  obtain ⟨ssl, udpSend⟩ := manager
  obtain ⟨type, objs, next⟩ := objs
  refine ⟨?_, ?_, ?_, fun there => ?_, fun there remote => ?_, fun {r} waits => ?_, fun r => ?_,
    sources, fun waits => wf.packets (strand.subset waits), fun waits => ?_⟩
  · rw [type, objs, next]
    exact wf.type
  · rw [ssl, objs, next]
    exact wf.ssl
  · rw [udpSend, objs, next]
    exact wf.udpSend
  · obtain ⟨⟨known, waits⟩, rest⟩ := wf.relays (relays there)
    rw [objs]
    exact ⟨⟨next ▸ known, fun still => waits (strand.subset still)⟩, rest⟩
  · rw [objs]
    refine (wf.running (relays there) (type ▸ remote)).imp id ?_
    rintro ⟨entry, member, bad⟩
    exact ⟨entry, answered member, bad⟩
  · obtain ⟨known, dst, same⟩ := wf.pending (strand.subset waits)
    rw [objs, next]
    refine ⟨known, dst, same.trans ?_⟩
    unfold newAccepted newRawTcp
    rw [type]
  · exact Nat.le_trans (strand.count_le _) (wf.once r)
  · obtain ⟨known, absent⟩ := wf.askers (strand.subset waits)
    exact ⟨next ▸ known, fun still => absent (strand.subset still)⟩

/-- A new relay with a session, in `_relays`. -/
theorem makeIn (wf : WellFormed n) {relay : Relay} (type : relay.type = n.type)
    (raw : relay.kind ≠ .ssl) (new : relay.log.stopCalled = false) :
    WellFormed { n.make relay with
      relays := n.relays.insert relay.session (some n.next) } := by
  have made := wf.make type
  have fresh : .addLocalRawTcp n.next ∉ n.strand := fun waits =>
    absurd (wf.pending waits).1 (Nat.lt_irrefl _)
  have at_next : (n.make relay).objs n.next = relay := by rw [objs_make, if_pos rfl]
  refine ⟨made.type, made.ssl, made.udpSend, fun {s r} there => ?_, fun {s r} there remote => ?_,
    made.pending, made.once, made.sources, made.packets, made.askers⟩
  all_goals
    replace there : (n.relays.insert relay.session (some n.next)).lookup s = some (some r) := there
    rw [Map.lookup_insert] at there
    split at there
  · rename_i same
    cases there
    show (n.make relay).Callable n.next ∧ ((n.make relay).objs n.next).kind ≠ .ssl ∧
      ((n.make relay).objs n.next).session = s
    rw [at_next]
    exact ⟨⟨Nat.lt_succ_self _, fresh⟩, raw, same.symm⟩
  · exact made.relays there
  · cases there
    show ((n.make relay).objs n.next).log.stopCalled = false ∨ _
    rw [at_next]
    exact .inl new
  · exact made.running there remote

theorem requested (wf : WellFormed n) {relay : Option RelayId} {buf : Frame}
    (requested : Requested relay buf n m) : WellFormed m := by
  cases requested with
  | @sent k current going =>
    have called := wf.call (c := .sendData buf) (wf.callable_ssl current) nofun fun _ _ => .inl rfl
    exact called.shrink ⟨rfl, rfl⟩ ⟨rfl, rfl, rfl⟩ id (List.Sublist.refl _) (List.Subset.refl _)
      called.sources
  | made down localSide =>
    have made : WellFormed (n.make (n.newSslRelay.sendData buf)) := wf.make rfl
    refine ⟨made.type, fun {k} current => ?_, made.udpSend, made.relays, made.running,
      made.pending, made.once, made.sources, made.packets, made.askers⟩
    cases current
    refine ⟨Nat.lt_succ_self _, ?_⟩
    show ((n.make (n.newSslRelay.sendData buf)).objs n.next).kind = .ssl
    rw [objs_make, if_pos rfl]
    rfl
  | lost down =>
    exact wf.shrink ⟨rfl, rfl⟩ ⟨rfl, rfl, rfl⟩ id (List.Sublist.refl _) (List.Subset.refl _)
      wf.sources

/-- The first handler leaves the strand. -/
theorem pop (wf : WellFormed n) {task : ManagerTask} {strand : List ManagerTask}
    (queue : n.strand = task :: strand) : WellFormed { n with strand } :=
  wf.shrink ⟨rfl, rfl⟩ ⟨rfl, rfl, rfl⟩ id (queue ▸ List.sublist_cons_self _ _)
    (List.Subset.refl _) wf.sources

/-- An accepted connection gets its session. -/
theorem begin (wf : WellFormed n) {r : RelayId} {strand : List ManagerTask}
    (queue : n.strand = .addLocalRawTcp r :: strand) :
    WellFormed (Node.call
      { n with
        strand
        session := n.session + 1
        allocated := n.allocated + 1
        relays := n.relays.insert n.session (some r)
        issued := n.issued ++ [Issue.tcp n.session r] } r (.begin n.session)) := by
  obtain ⟨known, dst, accepted⟩ := wf.pending (queue ▸ List.mem_cons_self)
  have gone : .addLocalRawTcp r ∉ strand := by
    have once := wf.once r
    rw [queue, List.count_cons_self] at once
    exact List.count_eq_zero.mp (by omega)
  have sub : strand.Sublist n.strand := queue ▸ List.sublist_cons_self _ _
  -- the relay was in no table
  have unknown {s : UInt32} : n.relays.lookup s ≠ some (some r) := fun there =>
    (wf.relays there).1.2 (queue ▸ List.mem_cons_self)
  refine ⟨fun known => ?_, fun current => ?_, fun current => ?_, fun {s a} there => ?_,
    fun {s a} there remote => ?_, fun {a} waits => ?_, fun a => ?_, fun found nonzero => ?_,
    fun waits => wf.packets (sub.subset waits), fun waits => ?_⟩
  · exact (objs_call_type _ _ _ _).trans (wf.type known)
  · exact ⟨(wf.ssl current).1, (objs_call_kind _ _ _ _).trans (wf.ssl current).2⟩
  · exact ⟨(wf.udpSend current).1, (objs_call_kind _ _ _ _).trans (wf.udpSend current).2⟩
  · replace there : (n.relays.insert n.session (some r)).lookup s = some (some a) := there
    rw [Map.lookup_insert] at there
    split at there
    · rename_i same
      cases there
      refine ⟨⟨known, gone⟩, ?_, ?_⟩
      · rw [objs_call_kind]
        show (n.objs r).kind ≠ .ssl
        rw [accepted]
        intro ssl
        cases ssl
      · rw [objs_call, if_pos rfl, same]
        rfl
    · obtain ⟨⟨knownA, waits⟩, kind, session⟩ := wf.relays there
      have other : a ≠ r := fun eq => unknown (eq ▸ there)
      rw [objs_call_of_ne (.begin n.session) other]
      exact ⟨⟨knownA, fun still => waits (sub.subset still)⟩, kind, session⟩
  · replace there : (n.relays.insert n.session (some r)).lookup s = some (some a) := there
    rw [Map.lookup_insert] at there
    split at there
    · cases there
      left
      rw [objs_call, if_pos rfl]
      show (n.objs r).log.stopCalled = false
      rw [accepted]
      rfl
    · have other : a ≠ r := fun eq => unknown (eq ▸ there)
      rw [objs_call_of_ne (.begin n.session) other]
      exact wf.running there remote
  · have other : a ≠ r := fun eq => gone (eq ▸ waits)
    rw [objs_call_of_ne (.begin n.session) other]
    exact wf.pending (sub.subset waits)
  · exact Nat.le_trans (sub.count_le _) (wf.once a)
  · exact List.mem_append_left _ (wf.sources found nonzero)
  · obtain ⟨known, absent⟩ := wf.askers (sub.subset waits)
    exact ⟨known, fun still => absent (sub.subset still)⟩

end WellFormed

/-- **Every part of a handler** keeps the node well formed. -/
theorem wellFormed_part (wf : WellFormed n) (part : Part n m) : WellFormed m := by
  cases part with
  | requested queue requested => exact (wf.pop queue).requested requested
  | @emit r buf m listed _ _ requested =>
    exact (wf.call (c := .emit buf) (wf.callable listed) nofun fun _ _ => .inl rfl).requested
      requested
  | own _ _ requested => exact wf.requested requested
  | respond queue _ =>
    exact wf.shrink ⟨rfl, rfl⟩ ⟨rfl, rfl, rfl⟩ id (queue ▸ List.sublist_cons_self _ _)
      (List.subset_append_left _ _) wf.sources
  | @data k r buf strand queue _ there _ =>
    have noted : WellFormed (n.respond k buf strand) :=
      wf.shrink ⟨rfl, rfl⟩ ⟨rfl, rfl, rfl⟩ id (queue ▸ List.sublist_cons_self _ _)
        (List.subset_append_left _ _) wf.sources
    exact noted.call (noted.relays there).1 nofun fun _ _ => .inl rfl
  | @stopped k r buf strand queue _ there _ =>
    exact wf.shrink ⟨rfl, rfl⟩ ⟨rfl, rfl, rfl⟩ (fun found => (Map.of_lookup_erase found).2)
      (queue ▸ List.sublist_cons_self _ _) (List.subset_append_left _ _) wf.sources
  | repeated queue _ =>
    exact wf.shrink ⟨rfl, rfl⟩ ⟨rfl, rfl, rfl⟩ id (queue ▸ List.sublist_cons_self _ _)
      (List.Subset.refl _) wf.sources
  | begin queue _ => exact wf.begin queue
  | startRead callable _ _ => exact wf.call callable nofun fun _ _ => .inl rfl
  | halt callable halts running =>
    refine wf.call callable ?_ running
    rintro s rfl
    rcases halts with same | same <;> cases same
  | drop fewer =>
    exact wf.shrink ⟨rfl, rfl⟩ ⟨rfl, rfl, rfl⟩ fewer (List.Sublist.refl _) (List.Subset.refl _)
      wf.sources
  | @makeTcp s target _ _ _ _ => exact @WellFormed.makeIn n wf ((n.newRawTcp (some target)).begin s) rfl nofun rfl
  | orphanUdp => exact wf.make rfl
  | @makeUdp s buf _ _ _ =>
    have type : (n.newRawUdp s).startUdp.type = n.type := Relay.call_type _ .startUdp
    have kind : (n.newRawUdp s).startUdp.kind = .rawUdp := Relay.call_kind _ .startUdp
    have session : (n.newRawUdp s).startUdp.session = s := Relay.call_session _ (c := .startUdp) nofun
    have made := wf.makeIn type (kind ▸ nofun) (by unfold Relay.startUdp; split <;> rfl)
    rw [session] at made
    exact made
  | datagram _ there _ _ _ => exact wf.call (wf.relays there).1 nofun fun _ _ => .inl rfl
  | reply _ current _ _ => exact wf.call (wf.callable_udpSend current) nofun fun _ _ => .inl rfl
  | packet queue => exact wf.pop queue

theorem wellFormed_udpPart (wf : WellFormed n) (part : UdpPart n m) : WellFormed m := by
  cases part with
  | @assign src old =>
    refine wf.shrink ⟨rfl, rfl⟩ ⟨rfl, rfl, rfl⟩ id (List.Sublist.refl _) (List.Subset.refl _) ?_
    intro e entry found nonzero
    replace found : (n.srcs.insert src { old with session := n.session + 1 }).lookup e =
      some entry := found
    rw [Map.lookup_insert] at found
    split at found
    · rename_i same
      cases found
      rw [same]
      exact List.mem_append_right _ List.mem_cons_self
    · exact List.mem_append_left _ (wf.sources found nonzero)
  | sources issued =>
    exact wf.shrink ⟨rfl, rfl⟩ ⟨rfl, rfl, rfl⟩ id (List.Sublist.refl _) (List.Subset.refl _) issued
  | addPeer current _ | delPeer current =>
    refine wf.call (wf.callable_udpSend current) (fun _ same => ?_) fun _ _ => .inl rfl
    cases same
  | localUdp started =>
    have type : (if started then (n.newRawUdp 0).startUdp else n.newRawUdp 0).type = n.type := by
      split
      · exact Relay.call_type _ .startUdp
      · rfl
    have kind : (if started then (n.newRawUdp 0).startUdp else n.newRawUdp 0).kind = .rawUdp := by
      split
      · exact Relay.call_kind _ .startUdp
      · rfl
    have made := wf.make type
    refine ⟨made.type, made.ssl, fun current => ?_, made.relays, made.running, made.pending,
      made.once, made.sources, made.packets, made.askers⟩
    cases current
    refine ⟨Nat.lt_succ_self _, ?_⟩
    show ((n.make _).objs n.next).kind = .rawUdp
    rw [objs_make, if_pos rfl]
    exact kind

/-- A relay that still has time is not stopped. -/
theorem timeoutDown_stopCalled {r : Relay} (running : r.timeoutDown.2 ≠ 0) :
    (r.call .timeoutDown).log.stopCalled = r.log.stopCalled := by
  unfold Relay.call
  simp only
  unfold Relay.timeoutDown at running ⊢
  split
  · rfl
  · split
    · rename_i none last
      rw [if_neg none, if_pos last] at running
      exact absurd rfl running
    · rfl

/-! ## Handlers are runs of parts -/

/-- A run of parts that leave the UDP tables alone. -/
abbrev Parts : Node → Node → Prop := Relation.ReflTransGen Part

/-- A run of parts. -/
abbrev AllParts : Node → Node → Prop := Relation.ReflTransGen fun n m => Part n m ∨ UdpPart n m

theorem Parts.all (parts : Parts n m) : AllParts n m :=
  Relation.ReflTransGen.mono (fun _ _ => Or.inl) _ _ parts

theorem wellFormed_allParts (wf : WellFormed n) (parts : AllParts n m) : WellFormed m := by
  induction parts with
  | refl => exact wf
  | tail _ part ih =>
    rcases part with part | part
    · exact wellFormed_part ih part
    · exact wellFormed_udpPart ih part

theorem wellFormed_parts (wf : WellFormed n) (parts : Parts n m) : WellFormed m :=
  wellFormed_allParts wf parts.all

theorem AllParts.andThen {x : Fallible Node} {f : Node → Fallible Node} (wf : WellFormed n)
    (first : x.Both (AllParts n))
    (second : ∀ m, AllParts n m → WellFormed m → (f m).Both (AllParts m)) :
    (x.andThen f).Both (AllParts n) :=
  Fallible.Both.andThen first fun m parts =>
    (second m parts (wellFormed_allParts wf parts)).mono fun _ => parts.trans

/-- A relay is in `_relays` under its own session only. -/
theorem WellFormed.relays_inj (wf : WellFormed n) {s s' : UInt32} {r : RelayId}
    (there : n.relays.lookup s = some (some r)) (there' : n.relays.lookup s' = some (some r)) :
    s = s' := (wf.relays there).2.2.symm.trans (wf.relays there').2.2

/-- An erased session leaves its relay in no other place. -/
theorem WellFormed.erased (wf : WellFormed n) {s s' : UInt32} {r : RelayId}
    (there : n.relays.lookup s = some (some r)) :
    (n.relays.erase s).lookup s' ≠ some (some r) := fun still => by
  obtain ⟨other, before⟩ := Map.of_lookup_erase still
  exact other (wf.relays_inj before there)

theorem part_erase (n : Node) (s : UInt32) : Part n { n with relays := n.relays.erase s } :=
  .drop fun found => (Map.of_lookup_erase found).2

theorem part_crash (n : Node) : Part n { n with crashed := true } := .drop id

theorem parts_stopManager (wf : WellFormed n) : Parts n n.stopManager := by
  have none {s : UInt32} {r : RelayId} :
      (∅ : Map UInt32 (Option RelayId)).lookup s ≠ some (some r) := by
    rw [Map.lookup_empty]
    exact nofun
  have cleared : Parts n { n with relays := ∅, state := .stop } :=
    .single (.drop fun found => absurd found none)
  have stops : Parts { n with relays := ∅, state := .stop } n.stopManager ∧
      n.stopManager.next = n.next ∧ n.stopManager.strand = n.strand := by
    refine Map.sweep_invariant (m := n.relays) (s := n)
      (P := fun m => Parts { n with relays := ∅, state := .stop }
        { m with relays := ∅, state := .stop } ∧ m.next = n.next ∧ m.strand = n.strand)
      ⟨.refl, rfl, rfl⟩ fun {m s relay} holds found => ?_
    cases relay with
    | none => exact holds
    | some r =>
      obtain ⟨parts, next, strand⟩ := holds
      obtain ⟨known, waits⟩ := (wf.relays found).1
      refine ⟨parts.tail (.halt ⟨?_, ?_⟩ (.inl rfl) fun _ there => ?_), next, strand⟩
      · exact next.symm ▸ known
      · exact strand.symm ▸ waits
      · obtain ⟨_, there⟩ := there
        exact absurd there none
  exact cleared.trans stops.1

/-- `add_request`. -/
theorem requested_addRequest (n : Node) (throws : Bool) (relay : Option RelayId) (buf : Frame) :
    (n.addRequest throws relay buf).Both fun k => ∃ m, Requested relay buf n m ∧
      (k = m ∨ n.type = .remoteServer ∧ k = m.stopManager) := by
  unfold addRequest
  split
  · rename_i down
    simp only
    split
    · rename_i remote
      exact ⟨_, .lost down, .inr ⟨remote, rfl⟩⟩
    · rename_i localSide
      split
      · exact ⟨_, .lost down, .inl rfl⟩
      · refine ⟨_, .made down localSide, .inl ?_⟩
        have called := make_call n n.newSslRelay (.sendData buf)
        exact congrArg (fun k : Node => { k with
          ssl := some n.next
          requests := n.requests ++ [Request.mk (some n.next) relay buf] }) called
  · rename_i up
    unfold sslDown at up
    cases current : n.ssl with
    | none => simp only [current, not_true_eq_false] at up
    | some k =>
      simp only [current, decide_eq_true_eq] at up
      refine ⟨_, .sent current up, .inl ?_⟩
      show n.sendSsl relay buf = _
      unfold sendSsl
      simp only [current]

theorem parts_addRequest (wf : WellFormed n) {throws : Bool} {relay : Option RelayId}
    {buf : Frame} {k : Node} (part : ∀ {m}, Requested relay buf n m → Part k m) :
    (n.addRequest throws relay buf).Both (Parts k) := by
  refine (requested_addRequest n throws relay buf).mono fun last ended => ?_
  obtain ⟨m, requested, rfl | ⟨_, rfl⟩⟩ := ended
  · exact .single (part requested)
  · exact .head (part requested) (parts_stopManager (wf.requested requested))

/-- A request leaves the raw relays alone. -/
theorem Requested.objs_eq {relay : Option RelayId} {buf : Frame} {r : RelayId}
    (requested : Requested relay buf n m) (wf : WellFormed n) (known : r < n.next)
    (raw : (n.objs r).kind ≠ .ssl) : m.objs r = n.objs r := by
  cases requested with
  | sent current _ =>
    refine objs_call_of_ne _ fun same => raw ?_
    rw [same]
    exact (wf.ssl current).2
  | made _ _ => exact objs_make_of_lt _ known
  | lost _ => rfl

theorem Requested.callable {relay : Option RelayId} {buf : Frame} {r : RelayId}
    (requested : Requested relay buf n m) (callable : n.Callable r) : m.Callable r := by
  obtain ⟨known, waits⟩ := callable
  cases requested with
  | sent _ _ | lost _ => exact ⟨known, waits⟩
  | made _ _ => exact ⟨Nat.lt_succ_of_lt known, waits⟩

theorem Requested.listed {relay : Option RelayId} {buf : Frame} {r : RelayId}
    (requested : Requested relay buf n m) (listed : n.Listed r) : m.Listed r := by
  cases requested <;> exact listed

theorem Requested.strand {relay : Option RelayId} {buf : Frame}
    (requested : Requested relay buf n m) : m.strand = n.strand := by
  cases requested <;> rfl

theorem Requested.type {relay : Option RelayId} {buf : Frame}
    (requested : Requested relay buf n m) : m.type = n.type := by
  cases requested <;> rfl

theorem Requested.requests {relay : Option RelayId} {buf : Frame}
    (requested : Requested relay buf n m) :
    ∃ ssl, m.requests = n.requests ++ [⟨ssl, relay, buf⟩] := by
  cases requested with
  | sent | made | lost => exact ⟨_, rfl⟩

theorem Requested.relays {relay : Option RelayId} {buf : Frame}
    (requested : Requested relay buf n m) : m.relays = n.relays := by
  cases requested <;> rfl

theorem proper_stopTcp {r : Relay} (kind : r.kind = .rawTcp) (type : r.type = .localTransparent) :
    r.Proper (.call (.emit ⟨r.session, .stopTcp, []⟩)) := ⟨kind, type, rfl, .inl ⟨rfl, rfl⟩⟩

/-- On the local side `add_request` returns when it has passed the message on. -/
theorem passed_addRequest {throws : Bool} {relay : Option RelayId} {buf : Frame}
    (localSide : n.type ≠ .remoteServer) (ended : n.addRequest throws relay buf = .ok m) :
    m.sslDown = false ∧
      ∃ k, m.ssl = some k ∧ m.requests = n.requests ++ [⟨some k, relay, buf⟩] := by
  unfold addRequest at ended
  by_cases down : n.sslDown
  · simp only [down, localSide, ↓reduceIte] at ended
    split at ended
    · cases ended
    · cases ended
      refine ⟨?_, n.next, rfl, rfl⟩
      refine (sslDown_call { n.make n.newSslRelay with ssl := some n.next } _ _).trans ?_
      refine decide_eq_false ?_
      show ((n.make n.newSslRelay).objs n.next).state ≠ .stop
      rw [objs_make, if_pos rfl]
      intro stopped
      cases stopped
  · rw [if_neg down] at ended
    cases ended
    have up : n.sslDown = false := Bool.eq_false_iff.mpr down
    unfold sendSsl
    cases current : n.ssl with
    | none =>
      unfold sslDown at up
      simp only [current, Bool.true_eq_false] at up
    | some k => exact ⟨(sslDown_call n k _).trans up, k, current, rfl⟩

/-- A new relay that asks for its connection is opened. -/
theorem opened_call {r : Relay} (born : r.Born) (payload : List UInt8) :
    (r.call (.emit ⟨r.session, .startTcp, payload⟩)).Opened := by
  have log := born.log
  refine ⟨?_, payload, ?_⟩
  · have same : { r.call (.emit ⟨r.session, .startTcp, payload⟩) with log := {} } = r := by
      show { r with log := {} } = r
      rw [← log]
    rw [same]
    exact born
  · have noted : (r.call (.emit ⟨r.session, .startTcp, payload⟩)).log =
        { r.log with emitted := r.log.emitted ++ [⟨r.session, .startTcp, payload⟩] } := rfl
    rw [noted, log]
    rfl

/-- The catch block of `impl_start_transparent`. -/
theorem parts_giveUp (wf : WellFormed n) {r : RelayId} {throws : Bool} (listed : n.Listed r)
    (kind : (n.objs r).kind = .rawTcp) (transparent : n.type = .localTransparent)
    (silent : ∀ later, .addRequest r later ∉ n.strand) :
    ((n.relayRequest throws r ⟨(n.objs r).session, .stopTcp, []⟩).andThen fun n =>
      .ok (n.call r .stopRelay)).Both (Parts n) := by
  have localSide : n.type ≠ .remoteServer := transparent ▸ nofun
  have callable := wf.callable listed
  have proper := proper_stopTcp kind ((wf.type callable.1).trans transparent)
  have wfCall := wf.call (c := .emit ⟨(n.objs r).session, .stopTcp, []⟩) callable nofun
    fun _ _ => .inl rfl
  refine (requested_addRequest _ throws (some r) _).andThen_of (fun k ended => ?_) fun k ended => ?_
  all_goals
    obtain ⟨m, requested, rfl | ⟨remote, _⟩⟩ := ended
    rotate_left
    · exact absurd remote localSide
  · exact .single (.emit listed proper silent requested)
  · refine .tail (.single (.emit listed proper silent requested)) ?_
    refine .halt (requested.callable callable) (.inl rfl) fun remote => ?_
    exact absurd (requested.type.symm.trans remote) localSide

/-- The try block of `impl_start_transparent`. -/
theorem parts_tryStartTransparent (wf : WellFormed n) {throws : Throws} {r : RelayId}
    (listed : n.Listed r) (kind : (n.objs r).kind = .rawTcp) (born : (n.objs r).Born)
    (transparent : n.type = .localTransparent)
    (silent : ∀ later, .addRequest r later ∉ n.strand) :
    match n.tryStartTransparent throws r with
    | .ok k => Parts n k
    | .error k => Parts n k ∧ k.Listed r ∧ (k.objs r).kind = .rawTcp ∧ k.type = n.type ∧
        k.strand = n.strand := by
  have localSide : n.type ≠ .remoteServer := transparent ▸ nofun
  have callable := wf.callable listed
  let start : Frame := ⟨(n.objs r).session, .startTcp, parseAddr (n.objs r).tcp.localEndpoint⟩
  have connects : Relay.Connects start := by
    refine ⟨rfl, ?_, isOk_parseAddress_parseAddr _⟩
    show (parseAddr (n.objs r).tcp.localEndpoint).length ≤ readBufferSize
    rcases length_parseAddr (n.objs r).tcp.localEndpoint with short | long
    · exact short ▸ by decide
    · exact long ▸ by decide
  have type : (n.objs r).type = .localTransparent := (wf.type callable.1).trans transparent
  have proper : (n.objs r).Proper (.call (.emit start)) :=
    ⟨kind, type, rfl, .inr ⟨born, connects⟩⟩
  have wfCall := wf.call (c := .emit start) callable nofun fun _ _ => .inl rfl
  have asks {m : Node} (requested : Requested (some r) start (n.call r (.emit start)) m) :
      Parts n m ∧ m.Listed r ∧ m.objs r = (n.objs r).call (.emit start) ∧ m.type = n.type ∧
        m.strand = n.strand := by
    have raw : ((n.call r (.emit start)).objs r).kind ≠ .ssl := by
      rw [objs_call_kind, kind]
      exact nofun
    refine ⟨.single (.emit listed proper silent requested), requested.listed listed, ?_,
      requested.type, requested.strand⟩
    rw [requested.objs_eq wfCall callable.1 raw, objs_call, if_pos rfl]
  have asked := requested_addRequest (n.call r (.emit start)) throws.newSsl (some r) start
  by_cases endpoint : throws.localEndpoint ∨ (n.objs r).sock = false
  · have failed : n.tryStartTransparent throws r = .error n := if_pos endpoint
    rw [failed]
    exact ⟨.refl, listed, kind, rfl, rfl⟩
  · have tried : n.tryStartTransparent throws r =
        (n.relayRequest throws.newSsl r start).andThen fun m => .ok (m.call r .startRead) :=
      if_neg endpoint
    rw [tried]
    unfold relayRequest
    cases ended : (n.call r (.emit start)).addRequest throws.newSsl (some r) start with
    | ok k =>
      rw [ended] at asked
      obtain ⟨m, requested, rfl | ⟨remote, _⟩⟩ := asked
      · obtain ⟨parts, still, same, _⟩ := asks requested
        obtain ⟨up, k, current, passed⟩ := passed_addRequest
          (n := n.call r (.emit start)) localSide ended
        have still := (wellFormed_parts wf parts).callable still
        refine parts.tail (.startRead still ?_ ⟨up, k, n.requests, start, current, passed, rfl⟩)
        rw [same]
        exact ⟨(Relay.call_kind _ _).trans kind,
          (Relay.call_type _ _).trans ((wf.type callable.1).trans transparent),
          opened_call born _⟩
      · exact absurd remote localSide
    | error k =>
      rw [ended] at asked
      obtain ⟨m, requested, rfl | ⟨remote, _⟩⟩ := asked
      · obtain ⟨parts, still, same, others⟩ := asks requested
        refine ⟨parts, still, ?_, others⟩
        exact (congrArg Relay.kind same).trans ((Relay.call_kind _ _).trans kind)
      · exact absurd remote localSide

theorem parts_implStartTransparent (wf : WellFormed n) {throws : Throws} {r : RelayId}
    (listed : n.Listed r) (kind : (n.objs r).kind = .rawTcp) (born : (n.objs r).Born)
    (transparent : n.type = .localTransparent)
    (silent : ∀ later, .addRequest r later ∉ n.strand) :
    (n.implStartTransparent throws r).Both (Parts n) := by
  have tried := @parts_tryStartTransparent n wf throws r listed kind born transparent silent
  unfold implStartTransparent
  cases ended : n.tryStartTransparent throws r with
  | ok k =>
    rw [ended] at tried
    exact tried
  | error k =>
    rw [ended] at tried
    obtain ⟨parts, listed, kind, type, strand⟩ := tried
    exact (parts_giveUp (wellFormed_parts wf parts) listed kind (type.trans transparent)
      (strand ▸ silent)).mono fun _ => parts.trans

theorem begin_born {r : Relay} (born : r.Born) (kind : r.kind = .rawTcp)
    (transparent : r.type = .localTransparent) (s : UInt32) : (r.begin s).Born := by
  have same : r.begin s = { r with session := s } := by
    unfold Relay.begin
    rw [transparent]
  rw [same]
  obtain ⟨⟨state, bufs, inbox, activations, sending, toClient, toRemote, reading, arrived, ssl,
    log⟩, startup⟩ := born
  refine ⟨⟨state, bufs, inbox, activations, sending, toClient, toRemote, reading, arrived, ssl,
    log⟩, ?_⟩
  rw [startup]
  simp only [Relay.firstStartup, kind]

theorem newRawTcp_born (n : Node) (target : Option (Host × String)) : (n.newRawTcp target).Born :=
  ⟨⟨rfl, rfl, rfl, rfl, rfl, rfl, rfl, rfl, rfl, rfl, rfl⟩, rfl⟩

theorem newAccepted_born (n : Node) (dst : Endpoint) : (n.newAccepted dst).Born :=
  ⟨⟨rfl, rfl, rfl, rfl, rfl, rfl, rfl, rfl, rfl, rfl, rfl⟩, rfl⟩

theorem parts_addLocalRawTcp (wf : WellFormed n) {throws : Throws} {r : RelayId}
    {strand : List ManagerTask} (queue : n.strand = .addLocalRawTcp r :: strand) :
    (addLocalRawTcp { n with strand } throws r).Both (Parts n) := by
  unfold addLocalRawTcp
  simp only
  split
  · rename_i used
    exact .single (.repeated queue used)
  · rename_i free
    have begun : Part n _ := .begin queue free
    have wf' := wf.begin queue
    unfold startRawTcp
    simp only
    split
    · rename_i transparent
      obtain ⟨_, dst, accepted⟩ := wf.pending (queue ▸ List.mem_cons_self)
      have born : ((n.objs r).begin n.session).Born := by
        rw [accepted]
        exact begin_born (newAccepted_born n dst) rfl transparent _
      have kind : ((n.objs r).begin n.session).kind = .rawTcp := by
        rw [accepted]
        rfl
      have silent (later : Frame) : ManagerTask.addRequest r later ∉ strand := fun waits =>
        (wf.askers (queue ▸ List.mem_cons_of_mem _ waits)).2 (queue ▸ List.mem_cons_self)
      refine (parts_implStartTransparent wf' ⟨n.session, Map.lookup_insert_self⟩ ?_ ?_ transparent
        silent).mono fun _ parts => .head begun parts
      · rw [objs_call, if_pos rfl]
        exact kind
      · rw [objs_call, if_pos rfl]
        exact born
    · exact .single begun

theorem parts_addRemoteRawTcp (wf : WellFormed n) (throws : Throws) {buf : Frame}
    (answering : n.Answering buf) (start : buf.cmd = .startTcp) (target : Host × String) :
    (n.addRemoteRawTcp throws buf.session target).Both (Parts n) := by
  let s := buf.session
  have made : Part n _ := @Part.makeTcp n s target buf answering start rfl
  have wf' := wellFormed_part wf made
  have same : Node.call { n.make (n.newRawTcp (some target)) with
        relays := n.relays.insert s (some n.next) } n.next (.begin s) =
      { n.make ((n.newRawTcp (some target)).begin s) with
        relays := n.relays.insert s (some n.next) } :=
    congrArg (fun k : Node => { k with relays := n.relays.insert s (some n.next) })
      (make_call n (n.newRawTcp (some target)) (.begin s))
  unfold addRemoteRawTcp startRawTcp
  simp only
  rw [same]
  split
  · rename_i transparent
    have new : (n.make ((n.newRawTcp (some target)).begin s)).objs n.next =
        (n.newRawTcp (some target)).begin s := by rw [objs_make, if_pos rfl]
    have silent (later : Frame) : ManagerTask.addRequest n.next later ∉ n.strand := fun waits =>
      absurd (wf.askers waits).1 (Nat.lt_irrefl _)
    refine (parts_implStartTransparent wf' ⟨s, Map.lookup_insert_self⟩ ?_ ?_ transparent
      silent).mono fun _ parts => .head made parts
    · exact congrArg Relay.kind new
    · have born := begin_born (newRawTcp_born n (some target)) rfl transparent s
      exact (congrArg Relay.Born new).mpr born
  · exact .single made

theorem parts_responseDataTcp (wf : WellFormed n) {throws : Throws} {k : RelayId} {buf : Frame}
    {strand : List ManagerTask} (queue : n.strand = .addResponse k buf :: strand)
    (data : buf.cmd = .dataTcp) :
    ((n.respond k buf strand).responseDataTcp throws buf).Both (Parts n) := by
  unfold responseDataTcp
  split
  · rename_i unknown
    exact .single (.respond queue fun _ => (congrArg Option.join unknown).trans rfl)
  · rename_i null
    refine .head (.respond queue fun _ => (congrArg Option.join null).trans rfl) ?_
    exact .single (part_crash _)
  · rename_i r there
    split
    · rename_i stopped
      have part : Part n _ := .stopped queue data there stopped
      refine (parts_addRequest (wellFormed_part wf part)
        (.own (.inl rfl) (Nat.zero_le _))).mono
        fun _ parts => .head part parts
    · rename_i going
      exact .single (.data queue data there going)

theorem parts_responseStopTcp (wf : WellFormed n) (buf : Frame) :
    Parts n (n.responseStopTcp buf) := by
  unfold responseStopTcp
  split
  · exact .refl
  · exact .single (part_crash n)
  · rename_i r there
    refine .head (part_erase n buf.session) (.single (.halt (wf.relays there).1 (.inl rfl) ?_))
    rintro _ ⟨s, still⟩
    exact absurd still (wf.erased there)

theorem parts_relaySlot (n : Node) (session : UInt32) : Parts n (n.relaySlot session) := by
  unfold relaySlot
  split
  · exact .refl
  · refine .single (.drop fun {s r} found => ?_)
    rw [Map.lookup_insert] at found
    split at found
    · cases found
    · exact found

/-- The relay of a session is replaced by a new raw_tcp. -/
theorem parts_remoteServerStartTcp (wf : WellFormed n) {throws : Throws} {buf : Frame}
    (answering : n.Answering buf) (start : buf.cmd = .startTcp) :
    (n.remoteServerStartTcp throws buf).Both (Parts n) := by
  have slotPart := parts_relaySlot n buf.session
  have wfSlot := wellFormed_parts wf slotPart
  have answered : (n.relaySlot buf.session).answered = n.answered :=
    (sameTables_relaySlot n buf.session).answered
  unfold remoteServerStartTcp
  simp only
  generalize slotIs : n.relaySlot buf.session = slot at *
  have still : slot.Answering buf := by
    unfold Answering
    rw [answered]
    exact answering
  cases old : (slot.relays.lookup buf.session).join with
  | none =>
    simp only [Option.elim_none]
    split
    · exact slotPart
    · exact (parts_addRemoteRawTcp wfSlot throws still start _).mono fun _ => slotPart.trans
  | some r =>
    have there : slot.relays.lookup buf.session = some (some r) := Option.join_eq_some_iff.mp old
    obtain ⟨callable, kind, session⟩ := wfSlot.relays there
    simp only [Option.elim_some]
    split
    · rename_i bad
      refine slotPart.tail (.halt callable (.inl rfl) fun _ _ => .inr ?_)
      obtain ⟨k, last⟩ := still
      refine ⟨(k, buf), List.mem_of_getLast? last, start, ?_⟩
      show (parseAddress buf.payload buf.payload.length).isOk = false
      rw [bad]
      rfl
    · rename_i target parsed
      by_cases remote : slot.type = .remoteServer
      · -- the new relay takes the place of the old one before that is stopped
        have made : Part slot _ := @Part.makeTcp slot buf.session target buf still start rfl
        have replaced := wellFormed_part wfSlot made
        refine (slotPart.tail made).tail ?_
        have same : ((slot.call r .stopRelay).addRemoteRawTcp throws buf.session target).state =
            Node.call { slot.make ((slot.newRawTcp (some target)).begin buf.session) with
              relays := slot.relays.insert buf.session (some slot.next) } r .stopRelay := by
          unfold addRemoteRawTcp startRawTcp
          simp only
          rw [if_neg (remote ▸ fun same => by cases same)]
          have made := make_call (slot.call r .stopRelay) (slot.newRawTcp (some target))
            (.begin buf.session)
          have moved := call_make slot ((slot.newRawTcp (some target)).begin buf.session)
            .stopRelay callable.1
          exact congrArg (fun k : Node => { k with
            relays := slot.relays.insert buf.session (some slot.next) }) (made.trans moved)
        rw [same]
        refine .halt ⟨Nat.lt_succ_of_lt callable.1, callable.2⟩ (.inl rfl) ?_
        rintro _ ⟨s, still⟩
        replace still : (slot.relays.insert buf.session (some slot.next)).lookup s =
          some (some r) := still
        rw [Map.lookup_insert] at still
        split at still
        · cases still
          exact absurd callable.1 (Nat.lt_irrefl _)
        · rename_i other
          exact absurd (wfSlot.relays_inj still there) other
      · have halted : Part slot (slot.call r .stopRelay) :=
          .halt callable (.inl rfl) fun isRemote => absurd isRemote remote
        refine (parts_addRemoteRawTcp (wellFormed_part wfSlot halted) throws still start _).mono
          fun _ parts => (slotPart.tail halted).trans parts

theorem parts_visitRelay (wf : WellFormed n) {s : UInt32} {relay : Option RelayId}
    (there : n.relays.lookup s = some relay) : Parts n (n.visitRelay s relay) := by
  unfold visitRelay
  split
  · exact .single (part_erase n s)
  · rename_i r
    obtain ⟨callable, _⟩ := wf.relays there
    split
    · refine .head (part_erase n s) (.single (.halt callable (.inr rfl) ?_))
      rintro _ ⟨s', still⟩
      exact absurd still (wf.erased there)
    · rename_i running
      refine .single (.halt callable (.inr rfl) fun _ _ => .inl ?_)
      exact timeoutDown_stopCalled running

theorem parts_sslTimeout (wf : WellFormed n) : Parts n n.sslTimeout := by
  unfold sslTimeout
  split
  · exact .refl
  · rename_i k current
    refine .single (.halt (wf.callable_ssl current) (.inr rfl) ?_)
    rintro _ ⟨s, there⟩
    exact absurd (wf.ssl current).2 (wf.relays there).2.1

/-- A message for the raw_udp of its session, which is made when there is none. -/
theorem parts_remoteServerSendUdp {throws : Throws} {buf : Frame}
    (remote : n.type = .remoteServer) (data : buf.cmd = .dataUdp) (answering : n.Answering buf) :
    (n.remoteServerSendUdp throws buf).Both (Parts n) := by
  have slotPart := parts_relaySlot n buf.session
  have still : (n.relaySlot buf.session).Answering buf := by
    unfold Answering
    rw [(sameTables_relaySlot n buf.session).answered]
    exact answering
  have slotRemote : (n.relaySlot buf.session).type = .remoteServer :=
    (sameTables_relaySlot n buf.session).type.trans remote
  have made {m : Node} (remote : m.type = .remoteServer) (answering : m.Answering buf) :
      ((m.addRemoteRawUdp throws buf.session).andThen fun k =>
        .ok (k.call m.next (.sendData buf))).Both (Parts m) := by
    unfold addRemoteRawUdp startRawUdp
    simp only
    split
    · exact .refl
    · simp only [id_eq]
      split
      · exact .single (.orphanUdp answering data rfl remote)
      · have new : Part m { m.make (m.newRawUdp buf.session).startUdp with
            relays := m.relays.insert buf.session (some m.next) } :=
          .makeUdp answering data rfl remote
        have same : { (m.make (m.newRawUdp buf.session)).call m.next .startUdp with
              relays := m.relays.insert buf.session (some m.next) } =
            { m.make (m.newRawUdp buf.session).startUdp with
              relays := m.relays.insert buf.session (some m.next) } :=
          congrArg (fun k : Node => { k with
            relays := m.relays.insert buf.session (some m.next) })
            (make_call m (m.newRawUdp buf.session) .startUdp)
        have sent := (Relation.ReflTransGen.single new).tail
          (.datagram (r := m.next) remote Map.lookup_insert_self data answering rfl)
        rw [← same] at sent
        exact sent
  unfold remoteServerSendUdp
  simp only
  generalize n.relaySlot buf.session = slot at *
  split
  · rename_i r old
    split
    · exact (made slotRemote still).mono fun _ => slotPart.trans
    · exact slotPart.tail
        (.datagram slotRemote (Option.join_eq_some_iff.mp old) data still rfl)
  · exact (made slotRemote still).mono fun _ => slotPart.trans

/-! ### The UDP side of a local manager -/

theorem udpPart_single (part : UdpPart n m) : AllParts n m := .single (.inr part)

theorem allParts_startLocalUdp (n : Node) (throws : Throws) (current : n.udpSend ≠ none) :
    (n.startLocalUdp throws).Both (AllParts n) := by
  unfold startLocalUdp startRawUdp
  simp only
  split
  · exact .refl
  · split
    · exact udpPart_single (.localUdp false current)
    · have same := congrArg (fun k : Node => { k with udpSend := some n.next })
        (make_call n (n.newRawUdp 0) .startUdp)
      exact (congrArg (AllParts n) same).mpr (udpPart_single (.localUdp true current))

theorem allParts_restartUdp (n : Node) (throws : Throws) :
    (n.restartUdp throws).Both (AllParts n) := by
  unfold restartUdp
  split
  · rename_i stopped
    refine allParts_startLocalUdp n throws fun none => ?_
    simp only [udpSendStopped, none, Bool.false_eq_true] at stopped
  · exact .refl

/-- A call on `_udp_send`, when its part is one. -/
theorem allParts_callUdpSend {c : RelayCall}
    (part : ∀ {u}, n.udpSend = some u → AllParts n (n.call u c)) :
    AllParts n (n.callUdpSend c) := by
  unfold callUdpSend
  split
  · exact Parts.all (.single (part_crash n))
  · rename_i u current
    exact part current

theorem allParts_localTransparentSendUdp (n : Node) {throws : Throws} {buf : Frame}
    (transparent : n.type = .localTransparent) (data : buf.cmd = .dataUdp)
    (answering : n.Answering buf) : (n.localTransparentSendUdp throws buf).Both (AllParts n) := by
  have quiet := quiet_restartUdp n throws
  have restarted : (n.restartUdp throws).Both fun m =>
      AllParts n m ∧ m.answered = n.answered ∧ m.type = n.type :=
    ⟨allParts_restartUdp n throws, quiet.answered, quiet.type⟩
  refine restarted.andThen_of (fun _ both => both.1) fun m ⟨parts, answered, type⟩ => ?_
  refine parts.trans (allParts_callUdpSend fun current =>
    Parts.all (.single (.reply (type.trans transparent) current data ?_)))
  unfold Answering
  rw [answered]
  exact answering

/-- `_srcs` and `_udp_srcs` change where no session is new. -/
theorem udpPart_setTimeout (wf : WellFormed n) (src : Endpoint) (timeout : Nat)
    (udpSrcs : Map UInt32 Endpoint) :
    UdpPart n { n with srcs := n.srcs.insert src { n.source src with timeout }, udpSrcs } := by
  refine .sources fun {e entry} found nonzero => ?_
  rcases eq_or_ne e src with rfl | other
  · rw [Map.lookup_insert_self] at found
    cases found
    cases before : n.srcs.lookup e with
    | none =>
      rw [source, before] at nonzero
      exact absurd rfl nonzero
    | some old =>
      have same : n.source e = old := by
        rw [source, before]
        rfl
      rw [same] at nonzero ⊢
      have issued := wf.sources before nonzero
      exact issued
  · rw [Map.lookup_insert, if_neg other] at found
    exact wf.sources found nonzero

theorem allParts_addResponse (wf : WellFormed n) {throws : Throws} {k : RelayId} {buf : Frame}
    {strand : List ManagerTask} (queue : n.strand = .addResponse k buf :: strand) :
    (addResponse { n with strand } throws k buf).Both (AllParts n) := by
  have respond (other : buf.cmd ≠ .dataTcp) : Part n (n.respond k buf strand) :=
    .respond queue fun data => absurd data other
  have answering : (n.respond k buf strand).Answering buf := ⟨k, List.getLast?_concat⟩
  unfold addResponse
  simp only
  split
  · rename_i data
    exact (parts_responseDataTcp wf queue data).mono fun _ => Parts.all
  · rename_i data
    have part := respond (data ▸ nofun)
    have wf' := wellFormed_part wf part
    split
    · rename_i transparent
      refine AllParts.andThen wf ((allParts_localTransparentSendUdp (n.respond k buf strand)
        transparent data answering).mono fun _ parts => .head (.inl part) parts) fun m _ wf' => ?_
      exact udpPart_single (udpPart_setTimeout wf' _ _ _)
    · rename_i isRemote
      have remote : (n.respond k buf strand).type = .remoteServer := isRemote
      exact (parts_remoteServerSendUdp remote data answering).mono fun _ parts =>
        Parts.all (.head part parts)
    · exact .single (.inl part)
  · rename_i start
    have part := respond (start ▸ nofun)
    exact (parts_remoteServerStartTcp (wellFormed_part wf part) answering start).mono
      fun _ parts => Parts.all (.head part parts)
  · rename_i stop
    have part := respond (stop ▸ nofun)
    exact Parts.all (.head part (parts_responseStopTcp (wellFormed_part wf part) buf))
  · rename_i data _ _ _
    exact .single (.inl (respond data))

theorem allParts_newSource (n : Node) (throws : Throws) (src : Endpoint) (old : UdpTimeout)
    (wf : WellFormed n) : (n.newSource throws src old).Both (AllParts n) := by
  have assigned : AllParts n (n.assignSession src old) := udpPart_single .assign
  have restarted := allParts_restartUdp (n.assignSession src old) throws
  have quiet := quiet_restartUdp (n.assignSession src old) throws
  unfold newSource
  cases ended : (n.assignSession src old).restartUdp throws with
  | error m =>
    rw [ended] at restarted
    exact assigned.trans restarted
  | ok m =>
    rw [ended] at restarted quiet
    have before : AllParts n m := assigned.trans restarted
    have issued : Issue.udp (n.session + 1) src ∈ m.issued := by
      have same : m.issued = (n.assignSession src old).issued := quiet.issued
      rw [same]
      exact List.mem_append_right _ List.mem_cons_self
    have called : AllParts m (m.callUdpSend (.addPeer (n.session + 1) src)) :=
      allParts_callUdpSend fun current => udpPart_single (.addPeer current issued)
    have wf' := wellFormed_allParts (wellFormed_allParts wf before) called
    exact before.trans (called.tail (.inr (.sources wf'.sources)))

/-- After the part for a new source its session is one that was handed out. -/
theorem issued_newSource (n : Node) (throws : Throws) (src : Endpoint) (old : UdpTimeout) {m : Node}
    (made : n.newSource throws src old = .ok m) :
    Issue.udp (m.source src).session src ∈ m.issued := by
  have restarted := quiet_restartUdp (n.assignSession src old) throws
  unfold newSource at made
  cases ended : (n.assignSession src old).restartUdp throws with
  | error k =>
    rw [ended] at made
    cases made
  | ok k =>
    rw [ended] at made restarted
    cases made
    have called := Quiet.trans restarted (quiet_callUdpSend k (.addPeer (n.session + 1) src))
    have found : (k.addSource (n.session + 1) src).source src =
        { old with session := n.session + 1 } := by
      refine source_of_lookup ?_
      show (k.callUdpSend _).srcs.lookup src = _
      rw [called.srcs]
      exact Map.lookup_insert_self
    rw [found]
    show _ ∈ (k.callUdpSend _).issued
    rw [called.issued]
    exact List.mem_append_right _ List.mem_cons_self

theorem allParts_forwardUdp (wf : WellFormed n) {throws : Throws} {src : Endpoint} {buf : Frame}
    (issued : Issue.udp (n.source src).session src ∈ n.issued) (data : buf.cmd = .dataUdp)
    (fits : buf.payload.length ≤ readBufferSize) :
    (n.forwardUdp throws src buf).Both (AllParts n) := by
  have touched : UdpPart n { n with
      srcs := n.srcs.insert src { n.source src with timeout := timeoutTicks } } :=
    udpPart_setTimeout wf src timeoutTicks n.udpSrcs
  have wf' := wellFormed_udpPart wf touched
  have asked := @parts_addRequest _ wf' throws.newSsl none
    { buf with session := (n.source src).session } _ (.own (.inr ⟨data, src, issued⟩) fits)
  exact asked.mono fun _ parts => .head (.inr touched) parts.all

theorem allParts_sendUdpData (wf : WellFormed n) {throws : Throws} {src : Endpoint} {buf : Frame}
    (data : buf.cmd = .dataUdp) (fits : buf.payload.length ≤ readBufferSize) :
    (n.sendUdpData throws src buf).Both (AllParts n) := by
  unfold sendUdpData
  split
  · have made := allParts_newSource n throws src (n.source src) wf
    cases ended : n.newSource throws src (n.source src) with
    | error k =>
      rw [ended] at made
      exact made
    | ok k =>
      have issued := issued_newSource n throws src (n.source src) ended
      rw [ended] at made
      exact (allParts_forwardUdp (wellFormed_allParts wf made) issued data fits).mono
        fun _ => made.trans
  · rename_i known
    refine allParts_forwardUdp wf ?_ data fits
    cases found : n.srcs.lookup src with
    | none =>
      unfold source at known
      rw [found] at known
      exact absurd rfl known
    | some entry =>
      rw [source_of_lookup found] at known ⊢
      exact wf.sources found known

/-! ### The timer and the steps -/

theorem allParts_clearSources (n : Node) : AllParts n n.clearSources := by
  have cleared : AllParts n { n with udpSrcs := ∅, srcs := ∅ } :=
    udpPart_single (.sources fun {src entry} found _ => by
      rw [Map.lookup_empty] at found
      cases found)
  exact cleared.trans (allParts_callUdpSend fun current => udpPart_single (.delPeer current))

theorem allParts_visitSource (wf : WellFormed n) {src : Endpoint} {entry : UdpTimeout}
    (found : n.srcs.lookup src = some entry) : AllParts n (n.visitSource src entry) := by
  unfold visitSource
  split
  · have erased : AllParts n
        { n with udpSrcs := n.udpSrcs.erase entry.session, srcs := n.srcs.erase src } :=
      udpPart_single (.sources fun found => wf.sources (Map.of_lookup_erase found).2)
    exact erased.trans (allParts_callUdpSend fun current => udpPart_single (.delPeer current))
  · have counted := udpPart_setTimeout wf src (entry.timeout - 1) n.udpSrcs
    rw [source_of_lookup found] at counted
    exact udpPart_single counted

theorem allParts_tick (wf : WellFormed n) : AllParts n n.tick := by
  have later {m k : Node} (before : AllParts n m) (next : WellFormed m → AllParts m k) :
      AllParts n k := before.trans (next (wellFormed_allParts wf before))
  refine tick_rule (parts_sslTimeout wf).all (fun before _ _ => ?_) (fun {m} before => ?_)
    (fun before found => ?_) (fun before found => ?_) fun before _ => ?_
  · refine later before fun wf' => ?_
    exact (parts_stopManager wf').all.tail (.inl (.drop id))
  · exact before.trans (allParts_clearSources m)
  · exact later before fun wf' => allParts_visitSource wf' found
  · exact later before fun wf' => (parts_visitRelay wf' found).all
  · exact before.tail (.inl (.drop id))

theorem fits_transparentUdpRecvOn (dst : Option Endpoint) (received : Option (List UInt8)) :
    (transparentUdpRecvOn dst received).payload.length ≤ readBufferSize := by
  have head := length_udpHead dst
  have sizes : udpOffset ≤ readBufferSize := by decide
  unfold transparentUdpRecvOn
  cases received with
  | none =>
    show ((udpHead dst).take (udpOffset - 1)).length ≤ readBufferSize
    rw [List.length_take]
    omega
  | some data =>
    show (udpHead dst ++ data.take (readBufferSize - udpOffset)).length ≤ readBufferSize
    rw [List.length_append, List.length_take]
    omega

/-- **The handlers of the manager** are runs of parts. -/
theorem allParts_runTask (wf : WellFormed n) {throws : Throws} {task : ManagerTask}
    {strand : List ManagerTask} (queue : n.strand = task :: strand) :
    (runTask { n with strand } throws task).Both (AllParts n) := by
  cases task with
  | addRequest relay buf =>
    have asked := @parts_addRequest _ (wf.pop queue) throws.newSsl (some relay) buf n
      (.requested queue)
    exact asked.mono fun _ => Parts.all
  | addResponse relay buf => exact allParts_addResponse wf queue
  | addLocalRawTcp relay => exact (parts_addLocalRawTcp wf queue).mono fun _ => Parts.all
  | sendUdpData src buf =>
    obtain ⟨data, fits⟩ := @WellFormed.packets n wf src buf (queue ▸ List.mem_cons_self)
    exact (allParts_sendUdpData (wf.pop queue) data fits).mono fun _ parts =>
      .head (.inl (.packet queue)) parts

/-- A step that is no run of parts: the acceptors, and the handlers of the relays. -/
inductive Outside (n : Node) : NodeAction → Node → Prop
  | accept {dst : Endpoint} :
    n.type ≠ .remoteServer →
    Outside n (.accept dst)
      { n.make (n.newAccepted dst) with strand := n.strand ++ [.addLocalRawTcp n.next] }
  | udpPacket {src : Endpoint} {dst : Option Endpoint} {received : Option (List UInt8)} :
    n.type ≠ .remoteServer →
    Outside n (.udpPacket src dst received)
      { n with strand := n.strand ++ [.sendUdpData src (transparentUdpRecvOn dst received)] }
  | release : Outside n .release { n with held := false }
  | relay {r : RelayId} {ev : RelayEvent} {relay : Relay} {outs : List RelayOut} :
    n.Callable r → (n.objs r).step n.alive ev = some (relay, outs) →
    Outside n (.relay r ev)
      { n with
        objs := Function.update n.objs r relay
        strand := n.strand ++ outs.filterMap (asked r)
        crashed := outs.contains .crash }

/-- An accepted connection has no handlers before it gets its session. -/
theorem WellFormed.callable_of_step (wf : WellFormed n) {r : RelayId} {ev : RelayEvent}
    {relay : Relay} {outs : List RelayOut} (known : r < n.next)
    (handled : (n.objs r).step n.alive ev = some (relay, outs)) : n.Callable r := by
  refine ⟨known, fun waits => ?_⟩
  obtain ⟨_, dst, same⟩ := wf.pending waits
  obtain ⟨h, none, _⟩ := Relay.step_eq_some.mp handled
  rw [same, (newAccepted_born n dst).handle_eq_none nofun] at none
  cases none

/-- **A step** is a run of parts or comes from outside. -/
theorem parts_step {a : NodeAction} (wf : WellFormed n) (stepped : n.step a = some m) :
    AllParts n m ∨ Outside n a m := by
  cases stepIs_of_step stepped with
  | accept localSide => exact .inr (.accept localSide)
  | udpPacket localSide => exact .inr (.udpPacket localSide)
  | manager queue => exact .inl (allParts_runTask wf queue)
  | tick _ => exact .inl (allParts_tick wf)
  | release _ => exact .inr .release
  | @relay r ev relay outs known handled =>
    exact .inr (.relay (wf.callable_of_step known handled) handled)

theorem wellFormed_outside {a : NodeAction} (wf : WellFormed n) (outside : Outside n a m) :
    WellFormed m := by
  cases outside with
  | @accept dst localSide =>
    have made : WellFormed (n.make (n.newAccepted dst)) := wf.make rfl
    have new : .addLocalRawTcp n.next ∉ n.strand := fun waits =>
      absurd (wf.pending waits).1 (Nat.lt_irrefl _)
    refine ⟨made.type, made.ssl, made.udpSend, fun {s r} there => ?_, made.running,
      fun {r} waits => ?_, fun r => ?_, made.sources, fun {src buf} waits => ?_,
      fun {r buf} waits => ?_⟩
    · obtain ⟨⟨known, waits⟩, rest⟩ := made.relays there
      refine ⟨⟨known, fun still => ?_⟩, rest⟩
      rcases List.mem_append.mp still with before | new
      · exact waits before
      · cases List.mem_singleton.mp new
        exact absurd (wf.relays there).1.1 (Nat.lt_irrefl _)
    · rcases List.mem_append.mp waits with before | new
      · exact made.pending before
      · cases List.mem_singleton.mp new
        refine ⟨Nat.lt_succ_self _, dst, ?_⟩
        show (n.make (n.newAccepted dst)).objs n.next = _
        rw [objs_make, if_pos rfl]
        rfl
    · show (n.strand ++ [ManagerTask.addLocalRawTcp n.next]).count
        (ManagerTask.addLocalRawTcp r) ≤ 1
      rw [List.count_append, List.count_singleton]
      split
      · rename_i same
        cases eq_of_beq same
        rw [List.count_eq_zero.mpr new]
      · exact wf.once r
    · rcases List.mem_append.mp waits with before | new
      · exact wf.packets before
      · cases List.mem_singleton.mp new
    · rcases List.mem_append.mp waits with before | new
      · obtain ⟨known, absent⟩ := wf.askers before
        refine ⟨Nat.lt_succ_of_lt known, fun still => ?_⟩
        rcases List.mem_append.mp still with before | new
        · exact absent before
        · cases List.mem_singleton.mp new
          exact absurd known (Nat.lt_irrefl _)
      · cases List.mem_singleton.mp new
  | @udpPacket src dst received localSide =>
    have other {r : RelayId} : ManagerTask.addLocalRawTcp r ∈ n.strand ++
        [.sendUdpData src (transparentUdpRecvOn dst received)] ↔
        .addLocalRawTcp r ∈ n.strand := by
      simp only [List.mem_append, List.mem_singleton, reduceCtorEq, or_false]
    refine ⟨wf.type, wf.ssl, wf.udpSend, fun {s r} there => ?_, wf.running, fun {r} waits => ?_,
      fun r => ?_, wf.sources, fun {e buf} waits => ?_, fun {r buf} waits => ?_⟩
    · obtain ⟨⟨known, waits⟩, rest⟩ := wf.relays there
      exact ⟨⟨known, fun still => waits (other.mp still)⟩, rest⟩
    · exact wf.pending (other.mp waits)
    · show (n.strand ++ [_]).count (ManagerTask.addLocalRawTcp r) ≤ 1
      rw [List.count_append, List.count_singleton, if_neg (by simp)]
      exact wf.once r
    · rcases List.mem_append.mp waits with before | new
      · exact wf.packets before
      · cases List.mem_singleton.mp new
        refine ⟨?_, fits_transparentUdpRecvOn dst received⟩
        unfold transparentUdpRecvOn
        split <;> rfl
    · rcases List.mem_append.mp waits with before | new
      · obtain ⟨known, absent⟩ := wf.askers before
        exact ⟨known, fun still => absent (other.mp still)⟩
      · cases List.mem_singleton.mp new
  | release =>
    exact wf.shrink ⟨rfl, rfl⟩ ⟨rfl, rfl, rfl⟩ id (List.Sublist.refl _) (List.Subset.refl _)
      wf.sources
  | @relay r ev relay outs callable handled =>
    have same := Relay.sameCalls_step handled
    have at_r {a : RelayId} : (Function.update n.objs r relay a).kind = (n.objs a).kind ∧
        (Function.update n.objs r relay a).type = (n.objs a).type ∧
        (Function.update n.objs r relay a).session = (n.objs a).session ∧
        (Function.update n.objs r relay a).log.stopCalled = (n.objs a).log.stopCalled := by
      rw [Function.update_apply]
      split
      · rename_i eq
        rw [eq]
        exact ⟨same.kind, same.type, same.session, same.stopCalled⟩
      · exact ⟨rfl, rfl, rfl, rfl⟩
    have posts {task : ManagerTask} (posted : task ∈ outs.filterMap (asked r)) :
        (∃ buf, task = .addRequest r buf) ∨ ∃ buf, task = .addResponse r buf := by
      obtain ⟨out, _, eq⟩ := List.mem_filterMap.mp posted
      cases out with
      | request buf => exact .inl ⟨buf, (Option.some.inj eq).symm⟩
      | response buf => exact .inr ⟨buf, (Option.some.inj eq).symm⟩
      | crash => cases eq
    have other {a : RelayId} : ManagerTask.addLocalRawTcp a ∉ outs.filterMap (asked r) := by
      intro posted
      rcases posts posted with ⟨_, eq⟩ | ⟨_, eq⟩ <;> cases eq
    have waits {a : RelayId} : ManagerTask.addLocalRawTcp a ∈ n.strand ++ outs.filterMap (asked r) ↔
        .addLocalRawTcp a ∈ n.strand := by
      rw [List.mem_append, or_iff_left other]
    refine ⟨fun known => at_r.2.1.trans (wf.type known),
      fun current => ⟨(wf.ssl current).1, at_r.1.trans (wf.ssl current).2⟩,
      fun current => ⟨(wf.udpSend current).1, at_r.1.trans (wf.udpSend current).2⟩,
      fun {s a} there => ?_, fun {s a} there remote => ?_, fun {a} still => ?_, fun a => ?_,
      wf.sources, fun {src buf} still => ?_, fun {a buf} still => ?_⟩
    · obtain ⟨⟨known, absent⟩, kind, session⟩ := wf.relays there
      exact ⟨⟨known, fun still => absent (waits.mp still)⟩, at_r.1.symm ▸ kind,
        at_r.2.2.1.trans session⟩
    · show (Function.update n.objs r relay a).log.stopCalled = false ∨ _
      rw [at_r.2.2.2]
      exact wf.running there remote
    · obtain ⟨known, dst, same⟩ := wf.pending (waits.mp still)
      have different : a ≠ r := fun eq => callable.2 (eq ▸ waits.mp still)
      exact ⟨known, dst, (Function.update_of_ne different _ _).trans same⟩
    · show (n.strand ++ outs.filterMap (asked r)).count (.addLocalRawTcp a) ≤ 1
      rw [List.count_append, List.count_eq_zero.mpr other]
      exact wf.once a
    · rcases List.mem_append.mp still with before | posted
      · exact wf.packets before
      · rcases posts posted with ⟨_, eq⟩ | ⟨_, eq⟩ <;> cases eq
    · refine ⟨?_, fun there => ?_⟩ <;> rcases List.mem_append.mp still with before | posted
      · exact (wf.askers before).1
      · rcases posts posted with ⟨_, eq⟩ | ⟨_, eq⟩ <;> cases eq
        exact callable.1
      · exact (wf.askers before).2 (waits.mp there)
      · rcases posts posted with ⟨_, eq⟩ | ⟨_, eq⟩ <;> cases eq
        exact callable.2 (waits.mp there)

theorem wellFormed_step {a : NodeAction} (wf : WellFormed n) (stepped : n.step a = some m) :
    WellFormed m := by
  rcases parts_step wf stepped with parts | outside
  · exact wellFormed_allParts wf parts
  · exact wellFormed_outside wf outside

theorem wellFormed_initLocal (type : ServerType) : WellFormed (initLocal type) where
  type _ := rfl
  ssl := nofun
  udpSend current := by
    cases current
    exact ⟨Nat.zero_lt_one, rfl⟩
  relays there := by simp only [initLocal, Map.lookup_empty, reduceCtorEq] at there
  running there := by simp only [initLocal, Map.lookup_empty, reduceCtorEq] at there
  pending := nofun
  once _ := Nat.zero_le _
  sources found := by simp only [initLocal, Map.lookup_empty, reduceCtorEq] at found
  packets := nofun
  askers := nofun

theorem wellFormed_initRemote : WellFormed initRemote where
  type _ := rfl
  ssl current := by
    cases current
    exact ⟨Nat.zero_lt_one, rfl⟩
  udpSend := nofun
  relays there := by simp only [initRemote, Map.lookup_empty, reduceCtorEq] at there
  running there := by simp only [initRemote, Map.lookup_empty, reduceCtorEq] at there
  pending := nofun
  once _ := Nat.zero_le _
  sources found := by simp only [initRemote, Map.lookup_empty, reduceCtorEq] at found
  packets := nofun
  askers := nofun

theorem wellFormed_reach {C : Node → NodeAction → Prop} {n₀ : Node} (wf : WellFormed n₀)
    (run : Reach step C n₀ n) : WellFormed n :=
  run.invariant wf fun _ wf _ stepped => wellFormed_step wf stepped

/-- **The induction over the parts of a run.** -/
theorem parts_rule {C : Node → NodeAction → Prop} {P : Node → Prop} {n₀ : Node}
    (wf : WellFormed n₀) (run : Reach step C n₀ n) (start : P n₀)
    (part : ∀ {k m}, WellFormed k → P k → Part k m → P m)
    (udpPart : ∀ {k m}, WellFormed k → P k → UdpPart k m → P m)
    (outside : ∀ {k a m}, WellFormed k → P k → C k a → Outside k a m → P m) : P n := by
  refine run.invariant start fun {k a m} before holds meets stepped => ?_
  have wf' := wellFormed_reach wf before
  rcases parts_step wf' stepped with parts | out
  · suffices both : WellFormed m ∧ P m from both.2
    clear stepped
    induction parts with
    | refl => exact ⟨wf', holds⟩
    | tail _ next ih =>
      obtain ⟨wf'', there⟩ := ih
      rcases next with next | next
      · exact ⟨wellFormed_part wf'' next, part wf'' there next⟩
      · exact ⟨wellFormed_udpPart wf'' next, udpPart wf'' there next⟩
  · exact outside wf' holds meets out

end Node

end SslSocks
