import SslSocks.NodeLedger
import SslSocks.RelayAsks
import SslSocks.SendOnce
import SslSocks.SendOrder
import SslSocks.Lib.Heralded

/-!
# `START_TCP` comes before `DATA_TCP`

A raw_tcp of the local side asks for its connection once, and `add_request` chooses the
ssl relay for each message. `StartsFirst` says of the messages of one ssl relay that every
`DATA_TCP` comes after a `START_TCP` of its session. It holds in every run in which a new
ssl relay is made only when no raw_tcp that was connected through an old one may still
send (`StartMeets`): `startFirst`. `startFirst_reconnect` is a run in which one may.
-/

namespace SslSocks

open Lib

/-- Every `DATA_TCP` comes after a `START_TCP` of its session. -/
def StartsFirst (frames : List Frame) : Prop :=
  Heralded (fun buf => buf.cmd = .dataTcp)
    (fun start buf => start.cmd = .startTcp ∧ start.session = buf.session) frames

namespace Relay

variable {r r' : Relay} {alive : Bool} {ev : RelayEvent} {outs : List RelayOut}

theorem farewell_stopTcp {buf : Frame} (told : .request buf ∈ r.farewell alive) :
    buf.cmd = .stopTcp := by
  unfold farewell at told
  split at told
  · cases List.mem_singleton.mp told
    rfl
  · cases told

/-- A raw_tcp of the local side that reads or asks with data did read before, or asks for
its connection. -/
theorem Handles.reads_before (handled : Handles alive r ev r' outs) (ok : KindOk r)
    (raw : r.kind = .rawTcp) (localSide : r.type ≠ .remoteServer)
    (opens : r'.reading ∨ ∃ buf, .request buf ∈ outs ∧ buf.cmd = .dataTcp) :
    r.reading ∨ r.Unopened := by
  have kept (same : r'.reading = r.reading)
      (silent : ∀ buf, .request buf ∈ outs → buf.cmd ≠ .dataTcp) : r.reading ∨ r.Unopened := by
    rcases opens with reading | ⟨buf, there, data⟩
    · exact .inl (same ▸ reading)
    · exact absurd data (silent buf there)
  have farewell : ∀ buf, .request buf ∈ r.farewell alive → buf.cmd ≠ .dataTcp := by
    intro buf there data
    rw [farewell_stopTcp there] at data
    cases data
  have none : ∀ buf, RelayOut.request buf ∈ [] → buf.cmd ≠ .dataTcp := by simp
  by_cases send : RelayEvent.IsSend ev
  · obtain ⟨same, rfl⟩ := handled.sameReads send
    exact kept same.reading none
  · cases handled with
    | readRaw _ reading | readRawDead _ reading | readMore _ reading | readMessage _ reading
    | readMessageDead _ reading | readThrew _ reading | readOverrun _ reading
    | readDatagram _ reading | readDatagramDead _ reading | readError reading =>
      exact .inl reading
    | arrive | greeting | greetingReply | directResolve | directConnect | okReply | resolve
    | connectSsl | requestDirect | direct => exact kept rfl none
    | requestDead => exact kept rfl (by simp)
    | startupThrew | requestBad | directFailed =>
      exact kept (sameReads_stopHere _).reading farewell
    | connectRaw startup =>
      rcases ok.connects (.inr startup) with ⟨ssl, _⟩ | ⟨_, remote⟩
      · cases ssl.symm.trans raw
      · exact absurd remote localSide
    | handshake startup => cases (ok.handshakes startup).symm.trans raw
    | requestBlocked startup =>
      right
      unfold Unopened
      rw [startup]
      decide
    | _ => exact absurd trivial send

end Relay

namespace Node

/-! ## The condition -/

/-- `add_request` has handled the `START_TCP` of the relay. -/
def Connected (n : Node) (r : RelayId) : Prop :=
  ∃ q ∈ n.requests, q.relay = some r ∧ q.buf.cmd = .startTcp

/-- A raw_tcp that reads, or whose data waits for `add_request`. -/
def MaySend (n : Node) (r : RelayId) : Prop :=
  (n.objs r).kind = .rawTcp ∧ ((n.objs r).reading ∨ ∃ buf ∈ n.queuedBy r, buf.cmd = .dataTcp)

/-- The handler calls `add_request`. -/
def AsksSsl (n : Node) : ManagerTask → Prop
  | .addRequest _ _ | .sendUdpData _ _ => True
  | .addLocalRawTcp _ => n.type = .localTransparent ∧ n.session ∉ n.relays
  | .addResponse _ buf =>
    buf.cmd = .dataTcp ∧ (∃ r ∈ (n.relays.lookup buf.session).join, (n.objs r).state = .stop) ∨
      buf.cmd = .startTcp ∧ n.type = .localTransparent ∧
        (parseAddress buf.payload buf.payload.length).isOk

/-- The message of a relay that opens its connection. -/
def IsStart : ManagerTask → Prop
  | .addRequest _ buf => buf.cmd = .startTcp
  | _ => False

/-- A new ssl relay is made when no connected raw_tcp may send, and the message for which
it is made is not lost when that is a `START_TCP`; a stopped ssl relay is not revived. -/
def StartMeets (n : Node) : NodeAction → Prop
  | .manager throws => ∀ task ∈ n.strand.head?, n.sslDown → n.AsksSsl task →
    (∀ r < n.next, n.Connected r → ¬ n.MaySend r) ∧ ¬ (throws.newSsl ∧ IsStart task)
  | .relay k ev => (n.objs k).kind = .ssl → (n.objs k).state = .stop →
    ¬ (n.objs k).Revives (.event n.alive ev)
  | _ => True

instance (n : Node) : DecidablePred n.Connected := fun _ =>
  inferInstanceAs (Decidable (∃ _ ∈ _, _))

instance (n : Node) : DecidablePred n.MaySend := fun _ => inferInstanceAs (Decidable (_ ∧ _))

instance (n : Node) : DecidablePred n.AsksSsl
  | .addRequest _ _ | .sendUdpData _ _ => isTrue trivial
  | .addLocalRawTcp _ => inferInstanceAs (Decidable (_ ∧ _))
  | .addResponse _ _ => inferInstanceAs (Decidable (_ ∧ _ ∨ _))

instance : DecidablePred IsStart
  | .addRequest _ _ => inferInstanceAs (Decidable (_ = _))
  | .addResponse _ _ | .addLocalRawTcp _ | .sendUdpData _ _ => isFalse id

instance (n : Node) : DecidablePred n.StartMeets
  | .manager _ => inferInstanceAs (Decidable (∀ _ ∈ _, _ → _ → _))
  | .relay _ _ => inferInstanceAs (Decidable (_ → _ → _))
  | .accept _ | .udpPacket _ _ _ | .tick | .release => isTrue trivial

/-! ## The connections of the open relays -/

/-- A raw_tcp that may send was connected through the present ssl relay, and on every ssl
relay the connections come first. -/
structure Links (n : Node) : Prop where
  linked : ∀ {r q}, n.MaySend r → q ∈ n.requests → q.relay = some r → q.buf.cmd = .startTcp →
    q.ssl = n.ssl ∧ q.ssl ≠ none
  first : ∀ k, StartsFirst (n.requestsTo k)

/-- A new ssl relay would take no connection away. -/
def Ready (n : Node) : Prop := n.sslDown → ∀ {r}, n.Connected r → ¬ n.MaySend r

/-- The requests, the ssl relay and the relays that may send are as before. -/
structure SameLinks (n m : Node) : Prop where
  requests : m.requests = n.requests
  ssl : m.ssl = n.ssl
  down : m.sslDown = n.sslDown
  may : ∀ {r}, n.Connected r → m.MaySend r → n.MaySend r

variable {n m : Node}

theorem Ledger.connected (ledger : n.Ledger) {r : RelayId} (connected : n.Connected r) :
    ∃ buf ∈ (n.objs r).log.emitted, buf.cmd = .startTcp := by
  obtain ⟨q, there, relay, start⟩ := connected
  exact ⟨q.buf, (emitted_of_request ledger there relay).1, start⟩

theorem Ledger.connected_lt (ledger : n.Ledger) {r : RelayId} (connected : n.Connected r) :
    r < n.next := by
  obtain ⟨q, there, relay, _⟩ := connected
  exact (emitted_of_request ledger there relay).2

theorem Links.keep (links : Links n) (requests : m.requests = n.requests) (ssl : m.ssl = n.ssl)
    (may : ∀ {r}, n.Connected r → m.MaySend r → n.MaySend r) : Links m where
  linked {r q} open_ there relay start := by
    rw [requests] at there
    rw [ssl]
    exact links.linked (may ⟨q, there, relay, start⟩ open_) there relay start
  first k := by
    unfold requestsTo
    rw [requests]
    exact links.first k

theorem SameLinks.links (same : SameLinks n m) (links : Links n) : Links m :=
  links.keep same.requests same.ssl same.may

theorem SameLinks.connected (same : SameLinks n m) {r : RelayId} :
    m.Connected r ↔ n.Connected r := by
  unfold Connected
  rw [same.requests]

theorem SameLinks.ready (same : SameLinks n m) (ready : Ready n) : Ready m :=
  fun down _ connected open_ =>
    have before := same.connected.mp connected
    ready (same.down ▸ down) before (same.may before open_)

theorem SameLinks.trans {k : Node} (first : SameLinks n m) (second : SameLinks m k) :
    SameLinks n k where
  requests := second.requests.trans first.requests
  ssl := second.ssl.trans first.ssl
  down := second.down.trans first.down
  may connected open_ := first.may connected (second.may (first.connected.mpr connected) open_)

/-- Handlers leave the strand; the relays and `_ssl` stay. -/
theorem sameLinks_of_objs (requests : m.requests = n.requests) (ssl : m.ssl = n.ssl)
    (objs : m.objs = n.objs) (strand : m.strand.Sublist n.strand) : SameLinks n m where
  requests := requests
  ssl := ssl
  down := by
    unfold sslDown
    rw [ssl, objs]
  may {r} _ open_ := by
    unfold MaySend at open_ ⊢
    rw [objs] at open_
    refine ⟨open_.1, open_.2.imp id ?_⟩
    rintro ⟨buf, there, data⟩
    exact ⟨buf, (strand.filterMap _).subset there, data⟩

/-- A call other than those that start to read. -/
theorem sameLinks_call (n : Node) (r : RelayId) {c : RelayCall} (quiet : c ≠ .startRead)
    (udp : c ≠ .startUdp) : SameLinks n (n.call r c) where
  requests := rfl
  ssl := rfl
  down := sslDown_call n r c
  may {a} _ open_ := by
    obtain ⟨kind, sends⟩ := open_
    refine ⟨(objs_call_kind n r a c).symm.trans kind, sends.imp (fun reading => ?_) id⟩
    rw [objs_call] at reading
    split at reading
    · rename_i same
      rw [same]
      have called := Relay.calls_call (n.objs r) c
      generalize (n.objs r).call c = r' at called reading
      cases called with
      | startRead => exact absurd rfl quiet
      | startUdpRemote | startUdpLocal => exact absurd rfl udp
      | _ => exact reading
    · exact reading

/-- A new relay. -/
theorem sameLinks_make (wf : WellFormed n) (ledger : n.Ledger) (relay : Relay) :
    SameLinks n (n.make relay) where
  requests := rfl
  ssl := rfl
  down := by
    have ssl : (n.make relay).ssl = n.ssl := rfl
    unfold sslDown
    rw [ssl]
    cases current : n.ssl with
    | none => rfl
    | some k =>
      simp only
      rw [objs_make_of_lt relay (wf.ssl current).1]
  may {r} connected open_ := by
    have old := ledger.connected_lt connected
    unfold MaySend at open_ ⊢
    rw [objs_make_of_lt relay old] at open_
    exact open_

/-! ## A request -/

theorem requestsTo_concat {q : Request} (requests : m.requests = n.requests ++ [q]) (k : RelayId) :
    m.requestsTo k = n.requestsTo k ++ (q.sentTo k).toList := by
  unfold requestsTo
  rw [requests, List.filterMap_append, List.filterMap_cons]
  cases q.sentTo k <;> rfl

/-- `add_request`, for a message whose `START_TCP` went to the present ssl relay when it
needs one, and which is itself passed on when it is one of a relay that may send. -/
theorem Links.requested (links : Links n) (ready : Ready n) {relay : Option RelayId}
    {buf : Frame} (requested : Requested relay buf n m)
    (data : buf.cmd = .dataTcp → n.sslDown = false ∧ ∃ q ∈ n.requests, q.ssl = n.ssl ∧
      q.buf.cmd = .startTcp ∧ q.buf.session = buf.session)
    (start : ∀ {r}, relay = some r → buf.cmd = .startTcp → n.MaySend r →
      m.requests ≠ n.requests ++ [⟨none, relay, buf⟩]) : Links m ∧ Ready m := by
  cases requested with
  | @sent k current running =>
    have same : SameLinks n (n.call k (.sendData buf)) := sameLinks_call n k nofun nofun
    have down : sslDown { n.call k (.sendData buf) with
        requests := n.requests ++ [⟨some k, relay, buf⟩] } = false := by
      refine (sslDown_call n k (.sendData buf)).trans ?_
      unfold sslDown
      rw [current]
      exact decide_eq_false running
    refine ⟨⟨fun {r q} open_ there is isStart => ?_, fun a => ?_⟩, fun isDown => ?_⟩
    · rcases List.mem_append.mp there with old | new
      · exact links.linked (same.may ⟨q, old, is, isStart⟩ open_) old is isStart
      · rw [List.mem_singleton.mp new]
        exact ⟨current.symm, by intro h; cases h⟩
    · rw [requestsTo_concat (n := n) (q := ⟨some k, relay, buf⟩) rfl]
      by_cases same : k = a
      · simp only [Request.sentTo, same, ↓reduceIte, Option.toList_some]
        refine heralded_concat.mpr ⟨links.first a, fun isData => ?_⟩
        obtain ⟨_, q, there, ssl, isStart, session⟩ := data isData
        refine ⟨q.buf, List.mem_filterMap.mpr ⟨q, there, if_pos ?_⟩, isStart, session⟩
        rw [ssl, current, same]
      · simp only [Request.sentTo, Option.some.injEq, same, ↓reduceIte, Option.toList_none,
          List.append_nil]
        exact links.first a
    · rw [down] at isDown
      cases isDown
  | made down localSide =>
    have other {r : RelayId} (open_ : (n.make (n.newSslRelay.sendData buf)).MaySend r) :
        n.MaySend r := by
      unfold MaySend at open_ ⊢
      rw [objs_make] at open_
      split at open_
      · cases open_.1
      · exact open_
    refine ⟨⟨fun {r q} open_ there is isStart => ?_, fun a => ?_⟩, fun isDown => ?_⟩
    · rcases List.mem_append.mp there with old | new
      · exact absurd (other open_) (ready down ⟨q, old, is, isStart⟩)
      · rw [List.mem_singleton.mp new]
        exact ⟨rfl, by intro h; cases h⟩
    · rw [requestsTo_concat (n := n) (q := ⟨some n.next, relay, buf⟩) rfl]
      refine (links.first a).append fun b there isData => ?_
      have same : b = buf := by
        unfold Request.sentTo at there
        split at there
        · exact List.mem_singleton.mp there
        · cases there
      rw [(data (same ▸ isData)).1] at down
      cases down
    · replace isDown : sslDown { n.make (n.newSslRelay.sendData buf) with
        ssl := some n.next } = true := isDown
      have stopped : ((n.make (n.newSslRelay.sendData buf)).objs n.next).state = .stop :=
        of_decide_eq_true isDown
      rw [objs_make, if_pos rfl] at stopped
      cases stopped
  | lost down =>
    refine ⟨⟨fun {r q} open_ there is isStart => ?_, fun a => ?_⟩, fun _ r connected open_ => ?_⟩
    · rcases List.mem_append.mp there with old | new
      · exact links.linked open_ old is isStart
      · rw [List.mem_singleton.mp new] at is isStart
        exact absurd rfl (start is isStart open_)
    · rw [requestsTo_concat (n := n) (q := ⟨none, relay, buf⟩) rfl]
      simp only [Request.sentTo, reduceCtorEq, ↓reduceIte, Option.toList_none, List.append_nil]
      exact links.first a
    · obtain ⟨q, there, is, isStart⟩ := connected
      rcases List.mem_append.mp there with old | new
      · exact ready down ⟨q, old, is, isStart⟩ open_
      · rw [List.mem_singleton.mp new] at is isStart
        exact start is isStart open_ rfl

/-! ## The parts of a handler -/

/-- Data that waits first in the strand is that of a raw_tcp that was connected. -/
theorem connected_of_data (wf : WellFormed n) (ledger : n.Ledger) (live : RelaysLive n)
    (localSide : n.type ≠ .remoteServer) {r : RelayId} {buf : Frame} {strand : List ManagerTask}
    (queue : n.strand = .addRequest r buf :: strand) (data : buf.cmd = .dataTcp) :
    n.MaySend r ∧ ∃ q ∈ n.requests, q.relay = some r ∧ q.buf.cmd = .startTcp ∧
      q.buf.session = buf.session := by
  obtain ⟨known, _⟩ := @WellFormed.askers n wf r buf (queue ▸ List.mem_cons_self)
  have asks := (live r known).asks
  have type : (n.objs r).type ≠ .remoteServer := wf.type known ▸ localSide
  have queued : n.queuedBy r = buf :: strand.filterMap (ManagerTask.requestOf r) := by
    rw [queuedBy_cons queue, ManagerTask.requestOf, if_pos rfl]
    rfl
  have account := ledger.asked r
  rw [List.append_nil, queued] at account
  have asked : buf ∈ (n.objs r).log.emitted := by
    rw [← account]
    exact List.mem_append_right _ List.mem_cons_self
  have kind : (n.objs r).kind = .rawTcp := by
    cases kind : (n.objs r).kind with
    | rawTcp => rfl
    | rawUdp =>
      obtain ⟨remote, _⟩ := asks.udp kind buf asked
      exact absurd remote type
    | ssl =>
      rw [asks.ssl kind] at asked
      cases asked
  obtain ⟨first, rest, emitted, start⟩ := asks.opens type kind (.inr ⟨buf, asked, data⟩)
  have opened : first ∈ (n.objs r).log.emitted := by
    rw [emitted]
    exact List.mem_cons_self
  refine ⟨⟨kind, .inr ⟨buf, queued ▸ List.mem_cons_self, data⟩⟩, ?_⟩
  rw [emitted] at account
  cases done : n.requestsBy r with
  | nil =>
    rw [done] at account
    cases account
    rw [data] at start
    cases start
  | cons head more =>
    rw [done] at account
    cases account
    obtain ⟨q, there, relay, same⟩ := mem_requestsBy.mp (done ▸ List.mem_cons_self)
    refine ⟨q, there, relay, same ▸ start, ?_⟩
    rw [same]
    exact ((asks.own _ opened).1).trans (asks.own _ asked).1.symm

/-- A raw_tcp starts to read when `add_request` has passed its `START_TCP` on. -/
theorem links_startRead (ledger : n.Ledger) {r : RelayId}
    (opened : (n.objs r).Opened) (opening : n.Opening r) (links : Links n) :
    Links (n.call r .startRead) ∧ Ready (n.call r .startRead) := by
  obtain ⟨up, k, before, buf, current, requests, _⟩ := opening
  obtain ⟨_, payload, log⟩ := opened
  -- the relay has asked once, so the last request is its only one
  have only {q : Request} (there : q ∈ n.requests) (is : q.relay = some r) :
      q = ⟨some k, some r, buf⟩ := by
    have account := ledger.asked r
    rw [log, requestsBy, requests, List.filterMap_append, List.append_nil] at account
    have size := congrArg List.length account
    simp only [List.length_append, List.filterMap_cons, List.filterMap_nil, Request.askedBy,
      ↓reduceIte, List.length_cons, List.length_nil] at size
    have none : before.filterMap (Request.askedBy r) = [] := List.eq_nil_of_length_eq_zero (by omega)
    rw [requests] at there
    rcases List.mem_append.mp there with old | new
    · have nothing := List.filterMap_eq_nil_iff.mp none q old
      rw [Request.askedBy, if_pos is] at nothing
      cases nothing
    · exact List.mem_singleton.mp new
  refine ⟨⟨fun {a q} open_ there is isStart => ?_, links.first⟩, fun down => ?_⟩
  · by_cases same : a = r
    · rw [only there (same ▸ is)]
      exact ⟨current.symm, by intro h; cases h⟩
    · unfold MaySend at open_
      rw [objs_call_of_ne .startRead same] at open_
      exact links.linked open_ there is isStart
  · rw [sslDown_call, up] at down
    cases down

/-- **One part of a handler.** -/
theorem links_part (wf : WellFormed n) (ledger : n.Ledger) (live : RelaysLive n)
    (localSide : n.type ≠ .remoteServer) (links : Links n) (part : Part n m)
    (asks : Ready n ∨ m.requests = n.requests)
    (start : ∀ {r buf strand}, n.strand = .addRequest r buf :: strand → m.strand = strand →
      buf.cmd = .startTcp → m.requests ≠ n.requests ++ [⟨none, some r, buf⟩]) :
    Links m ∧ (Ready n → Ready m) := by
  have same (same : SameLinks n m) : Links m ∧ (Ready n → Ready m) :=
    ⟨same.links links, same.ready⟩
  have ready {relay : Option RelayId} {buf : Frame} {k : Node} (requested : Requested relay buf k m)
      (requests : k.requests = n.requests) : Ready n := by
    refine asks.resolve_right fun eq => ?_
    obtain ⟨ssl, more⟩ := requested.requests
    have size := congrArg List.length (more.symm.trans (eq.trans requests.symm))
    rw [List.length_append] at size
    simp at size
  cases part with
  | @requested r buf strand _ queue requested =>
    have isReady := ready requested rfl
    have popped : SameLinks n { n with strand } :=
      sameLinks_of_objs rfl rfl rfl (queue ▸ List.sublist_cons_self _ _)
    have done := Links.requested (popped.links links) (popped.ready isReady) requested
      (fun data => ?_) fun is isStart _ => ?_
    · exact ⟨done.1, fun _ => done.2⟩
    · obtain ⟨open_, q, there, relay, isStart, session⟩ :=
        connected_of_data wf ledger live localSide queue data
      refine ⟨?_, q, there, (links.linked open_ there relay isStart).1, isStart, session⟩
      refine Bool.eq_false_iff.mpr fun down => ?_
      exact isReady down ⟨q, there, relay, isStart⟩ open_
    · cases is
      exact start queue requested.strand isStart
  | @emit r buf _ _ proper silent requested =>
    have called : SameLinks n (n.call r (.emit buf)) := sameLinks_call n r nofun nofun
    obtain ⟨_, _, _, what⟩ := proper
    have done := Links.requested (called.links links) (called.ready (ready requested rfl)) requested
      (fun data => ?_) fun is isStart open_ => ?_
    · exact ⟨done.1, fun _ => done.2⟩
    · rcases what with ⟨stop, _⟩ | ⟨_, isStart, _⟩
      · cases stop.symm.trans data
      · cases isStart.symm.trans data
    · -- a relay that asks for its connection in the strand does not read yet
      cases is
      rcases what with ⟨stop, _⟩ | ⟨born, _⟩
      · cases stop.symm.trans isStart
      · exfalso
        rcases open_.2 with reading | ⟨later, there, _⟩
        · rw [objs_call, if_pos rfl] at reading
          exact absurd reading (Bool.eq_false_iff.mp born.reading)
        · replace there : later ∈ n.queuedBy r := there
          rw [queuedBy_eq_nil silent] at there
          cases there
  | @own buf _ cmd _ requested =>
    have done := links.requested (ready requested rfl) requested (fun data => ?_) nofun
    · exact ⟨done.1, fun _ => done.2⟩
    · rcases cmd with stop | ⟨udp, _⟩
      · cases stop.symm.trans data
      · cases udp.symm.trans data
  | @respond k buf strand queue _ =>
    exact same (sameLinks_of_objs rfl rfl rfl (queue ▸ List.sublist_cons_self _ _))
  | @data k r buf strand queue _ _ _ =>
    have popped : SameLinks n (n.respond k buf strand) :=
      sameLinks_of_objs rfl rfl rfl (queue ▸ List.sublist_cons_self _ _)
    exact same (popped.trans (sameLinks_call _ r nofun nofun))
  | stopped queue | repeated queue | packet queue =>
    exact same (sameLinks_of_objs rfl rfl rfl (queue ▸ List.sublist_cons_self _ _))
  | @begin r strand queue _ =>
    have popped : SameLinks n
        { n with
          strand
          session := n.session + 1
          allocated := n.allocated + 1
          relays := n.relays.insert n.session (some r)
          issued := n.issued ++ [Issue.tcp n.session r] } :=
      sameLinks_of_objs rfl rfl rfl (queue ▸ List.sublist_cons_self _ _)
    exact same (popped.trans (sameLinks_call _ r nofun nofun))
  | startRead _ proper opening =>
    have done := links_startRead ledger proper.2.2 opening links
    exact ⟨done.1, fun _ => done.2⟩
  | @halt r c _ halts _ =>
    rcases halts with rfl | rfl
    · exact same (sameLinks_call n r nofun nofun)
    · exact same (sameLinks_call n r nofun nofun)
  | drop _ => exact same (sameLinks_of_objs rfl rfl rfl (List.Sublist.refl _))
  | @makeTcp s target =>
    have made := sameLinks_make wf ledger ((n.newRawTcp (some target)).begin s)
    exact same (made.trans (sameLinks_of_objs rfl rfl rfl (List.Sublist.refl _)))
  | @orphanUdp s => exact same (sameLinks_make wf ledger (n.newRawUdp s))
  | @makeUdp s =>
    have made := sameLinks_make wf ledger (n.newRawUdp s).startUdp
    exact same (made.trans (sameLinks_of_objs rfl rfl rfl (List.Sublist.refl _)))
  | @datagram s r | @reply r => exact same (sameLinks_call n r nofun nofun)

theorem links_udpPart (wf : WellFormed n) (ledger : n.Ledger) (part : UdpPart n m) :
    SameLinks n m := by
  cases part with
  | assign | sources => exact sameLinks_of_objs rfl rfl rfl (List.Sublist.refl _)
  | @addPeer u | @delPeer u => exact sameLinks_call n u nofun nofun
  | localUdp begun =>
    have made := sameLinks_make wf ledger
      (if begun then (n.newRawUdp 0).startUdp else n.newRawUdp 0)
    exact made.trans (sameLinks_of_objs rfl rfl rfl (List.Sublist.refl _))

/-! ## Handlers -/

/-- **A handler that is not one of `add_request`**, or a round of the timer. -/
theorem links_allParts (wf : WellFormed n) (ledger : n.Ledger) (live : RelaysLive n)
    (localSide : n.type ≠ .remoteServer) (links : Links n) (parts : AllParts n m)
    (asks : Ready n ∨ m.requests = n.requests) (long : n.strand.length ≤ m.strand.length + 1)
    (other : ∀ {r buf strand}, n.strand = .addRequest r buf :: strand →
      n.strand.length ≤ m.strand.length) : Links m := by
  suffices all : ∀ {k : Node}, AllParts n k →
      WellFormed k ∧ k.Ledger ∧ RelaysLive k ∧ Grows n k ∧ k.strand <:+ n.strand ∧
        (m.strand.length ≤ k.strand.length → Ready n ∨ k.requests = n.requests →
          Links k ∧ (Ready n → Ready k)) from
    ((all parts).2.2.2.2.2 (Nat.le_refl _) asks).1
  clear asks parts
  intro k parts
  induction parts with
  | refl =>
    exact ⟨wf, ledger, live, Grows.refl n, List.suffix_rfl, fun _ _ => ⟨links, id⟩⟩
  | @tail k k' _ next ih =>
    obtain ⟨wfK, ledgerK, liveK, grows, rest, before⟩ := ih
    have earlier (more : Grows k k') (popped : k'.strand <:+ k.strand) (enough : m.strand.length ≤ k'.strand.length)
        (asks : Ready n ∨ k'.requests = n.requests) : Links k ∧ (Ready n → Ready k) := by
      refine before (enough.trans popped.length_le) (asks.imp id fun same => ?_)
      exact (List.IsPrefix.eq_of_length_le grows.requests
        (same ▸ more.requests.length_le)).symm
    rcases next with part | part
    · have more := grows_part part
      have popped := strand_part part
      refine ⟨wellFormed_part wfK part, ledger_part wfK ledgerK part,
        relays_part kept_lives wfK liveK part, grows.trans more, popped.trans rest, fun enough asks => ?_⟩
      obtain ⟨linksK, readyK⟩ := earlier more popped enough asks
      have done := links_part wfK ledgerK liveK (grows.type ▸ localSide) linksK part
        (asks.imp readyK fun same => ?_) fun {r buf strand} queue taken _ _ => ?_
      · exact ⟨done.1, fun ready => done.2 (readyK ready)⟩
      · exact List.IsPrefix.eq_of_length_le more.requests (same ▸ grows.requests.length_le) |>.symm
      · -- the handler itself was taken from the strand, and no other one after it
        have size : k.strand.length = k'.strand.length + 1 := by rw [queue, taken]; rfl
        have whole : k.strand = n.strand := rest.eq_of_length (by
          have := rest.length_le
          omega)
        have := other (whole ▸ queue)
        rw [← whole] at this
        omega
    · have more := grows_udpPart part
      have popped := strand_udpPart part
      refine ⟨wellFormed_udpPart wfK part, ledger_udpPart wfK ledgerK part,
        relays_udpPart kept_lives liveK part, grows.trans more, popped.trans rest, fun enough asks => ?_⟩
      obtain ⟨linksK, readyK⟩ := earlier more popped enough asks
      have same := links_udpPart wfK ledgerK part
      exact ⟨same.links linksK, fun ready => same.ready (readyK ready)⟩

/-! ## Handlers that ask for nothing -/

theorem requests_tick (localSide : n.type ≠ .remoteServer) : n.tick.requests = n.requests := by
  refine (tick_rule (P := fun m => m.type = n.type ∧ m.requests = n.requests) ?_
    (fun before remote _ => absurd (before.1.symm.trans remote) localSide) (fun before => ?_)
    (fun before _ => ?_) (fun before _ => ?_) fun before _ => before).2
  · unfold sslTimeout
    split <;> exact ⟨rfl, rfl⟩
  · exact ⟨(quiet_callUdpSend _ _).type.trans before.1, (requests_callUdpSend _ _).trans before.2⟩
  · unfold visitSource
    split
    · exact ⟨(quiet_callUdpSend _ _).type.trans before.1,
        (requests_callUdpSend _ _).trans before.2⟩
    · exact before
  · unfold visitRelay
    split
    · exact before
    · split <;> exact before

theorem requests_localTransparentSendUdp (n : Node) (throws : Throws) (buf : Frame) :
    (n.localTransparentSendUdp throws buf).Both fun m => m.requests = n.requests :=
  (requests_restartUdp n throws).andThen fun m same => (requests_callUdpSend m _).trans same

theorem requests_remoteServerStartTcp {buf : Frame}
    (silent : ¬ (n.type = .localTransparent ∧
      (parseAddress buf.payload buf.payload.length).isOk)) (throws : Throws) :
    (n.remoteServerStartTcp throws buf).Both fun m => m.requests = n.requests := by
  have slot : (n.relaySlot buf.session).requests = n.requests ∧
      (n.relaySlot buf.session).type = n.type := by
    unfold relaySlot
    split <;> exact ⟨rfl, rfl⟩
  have old : ∀ relay : Option RelayId,
      (relay.elim (n.relaySlot buf.session) fun r =>
          (n.relaySlot buf.session).call r .stopRelay).requests = n.requests ∧
        (relay.elim (n.relaySlot buf.session) fun r =>
          (n.relaySlot buf.session).call r .stopRelay).type = n.type := by
    intro relay
    cases relay <;> exact slot
  unfold remoteServerStartTcp
  dsimp only
  split
  · exact (old _).1
  · rename_i target parsed
    unfold addRemoteRawTcp startRawTcp
    dsimp only
    split
    · rename_i transparent
      refine absurd ⟨(old _).2.symm.trans transparent, ?_⟩ silent
      rw [parsed]
      rfl
    · exact (old _).1

/-- A handler that does not call `add_request`. -/
theorem requests_runTask (localSide : n.type ≠ .remoteServer) {task : ManagerTask}
    (silent : ¬ n.AsksSsl task) (throws : Throws) :
    (n.runTask throws task).Both fun m => m.requests = n.requests := by
  cases task with
  | addRequest | sendUdpData => exact absurd trivial silent
  | addLocalRawTcp r =>
    show (n.addLocalRawTcp throws r).Both _
    unfold addLocalRawTcp
    dsimp only
    split
    · exact rfl
    · rename_i unknown
      unfold startRawTcp
      dsimp only
      split
      · rename_i transparent
        exact absurd ⟨transparent, unknown⟩ silent
      · exact rfl
  | addResponse k buf =>
    show (n.addResponse throws k buf).Both _
    unfold addResponse
    dsimp only
    split
    · rename_i data
      unfold responseDataTcp
      split
      · exact rfl
      · exact rfl
      · rename_i r there
        split
        · rename_i stopped
          refine absurd (.inl ⟨data, r, ?_, stopped⟩) silent
          exact Option.mem_def.mpr (Option.join_eq_some_iff.mpr there)
        · exact rfl
    · split
      · refine (requests_localTransparentSendUdp _ throws buf).andThen fun m same => ?_
        exact same
      · rename_i remote
        exact absurd remote localSide
      · exact rfl
    · rename_i start
      refine requests_remoteServerStartTcp (n := { n with answered := n.answered ++ [(k, buf)] })
        (fun both => ?_) throws
      exact silent (.inr ⟨start, both⟩)
    · unfold responseStopTcp
      split <;> exact rfl
    · exact rfl

/-! ## Steps and runs -/

/-- A handler of a relay: a raw_tcp that was connected comes to read or to ask with data
only when it did read before. -/
theorem maySend_relay (ledger : n.Ledger) (live : RelaysLive n)
    (localSide : n.type ≠ .remoteServer) (wf : WellFormed n) {r : RelayId} {ev : RelayEvent}
    {relay : Relay} {outs : List RelayOut} (known : r < n.next)
    (stepped : (n.objs r).step n.alive ev = some (relay, outs)) {a : RelayId}
    (connected : n.Connected a)
    (open_ : MaySend { n with
      objs := Function.update n.objs r relay
      strand := n.strand ++ outs.filterMap (asked r)
      crashed := outs.contains .crash } a) : n.MaySend a := by
  obtain ⟨kind, sends⟩ := open_
  have same := Relay.sameCalls_step stepped
  replace sends : (Function.update n.objs r relay a).reading = true ∨
      ∃ buf ∈ (n.strand ++ outs.filterMap (asked r)).filterMap (ManagerTask.requestOf a),
        buf.cmd = .dataTcp := sends
  replace kind : (Function.update n.objs r relay a).kind = .rawTcp := kind
  rw [Function.update_apply] at sends kind
  -- what is asked now is asked by `r`
  have asks {buf : Frame}
      (there : buf ∈ (n.strand ++ outs.filterMap (asked r)).filterMap (ManagerTask.requestOf a)) :
      buf ∈ n.queuedBy a ∨ a = r ∧ .request buf ∈ outs := by
    rw [List.filterMap_append] at there
    refine (List.mem_append.mp there).imp id fun posted => ?_
    obtain ⟨task, waits, is⟩ := List.mem_filterMap.mp posted
    obtain ⟨out, told, isTask⟩ := List.mem_filterMap.mp waits
    cases out with
    | request b =>
      cases isTask
      simp only [ManagerTask.requestOf, Option.ite_none_right_eq_some, Option.some.injEq] at is
      exact ⟨is.1.symm, is.2 ▸ told⟩
    | response b =>
      cases isTask
      cases is
    | crash => cases isTask
  by_cases isR : a = r
  · subst isR
    rw [if_pos rfl] at sends kind
    have raw : (n.objs a).kind = .rawTcp := same.kind.symm.trans kind
    have lives := live a known
    have before : (n.objs a).reading ∨ (n.objs a).Unopened ∨
        ∃ buf ∈ n.queuedBy a, buf.cmd = .dataTcp := by
      obtain ⟨h, handled, rfl⟩ := Relay.step_eq_some.mp stepped
      have opens := Relay.Handles.reads_before (Relay.handles_of_handle handled) lives.kindOk raw
        (wf.type known ▸ localSide)
      rcases sends with reading | ⟨buf, there, data⟩
      · exact (opens (.inl reading)).imp id .inl
      · rcases asks there with old | ⟨_, told⟩
        · exact .inr (.inr ⟨buf, old, data⟩)
        · exact (opens (.inr ⟨buf, told, data⟩)).imp id .inl
    refine ⟨raw, ?_⟩
    rcases before with reading | unopened | queued
    · exact .inl reading
    · obtain ⟨buf, emitted, _⟩ := ledger.connected connected
      rw [lives.asks.unopened unopened] at emitted
      cases emitted
    · exact .inr queued
  · rw [if_neg isR] at sends kind
    refine ⟨kind, sends.imp id ?_⟩
    rintro ⟨buf, there, data⟩
    refine ⟨buf, (asks there).resolve_right fun both => isR both.1, data⟩

theorem links_outside (wf : WellFormed n) (ledger : n.Ledger) (live : RelaysLive n)
    (localSide : n.type ≠ .remoteServer) {a : NodeAction} (outside : Outside n a m)
    (links : Links n) : Links m := by
  have posted {k : Node} (task : ManagerTask) (other : ∀ r, task.requestOf r = none)
      (same : SameLinks n k) : Links { k with strand := k.strand ++ [task] } := by
    refine (same.links links).keep rfl rfl fun {r} _ open_ => ?_
    refine ⟨open_.1, open_.2.imp id ?_⟩
    rintro ⟨buf, there, data⟩
    replace there : buf ∈ (k.strand ++ [task]).filterMap (ManagerTask.requestOf r) := there
    obtain ⟨waiting, waits, is⟩ := List.mem_filterMap.mp there
    rcases List.mem_append.mp waits with old | new
    · exact ⟨buf, List.mem_filterMap.mpr ⟨waiting, old, is⟩, data⟩
    · rw [List.mem_singleton.mp new, other] at is
      cases is
  cases outside with
  | @accept dst _ =>
    exact posted (.addLocalRawTcp n.next) (fun _ => rfl)
      (sameLinks_make wf ledger (n.newAccepted dst))
  | @udpPacket src dst received _ =>
    exact posted (.sendUdpData src (transparentUdpRecvOn dst received)) (fun _ => rfl)
      (sameLinks_of_objs rfl rfl rfl (List.Sublist.refl _))
  | release =>
    have same : SameLinks n { n with held := false } :=
      sameLinks_of_objs rfl rfl rfl (List.Sublist.refl _)
    exact same.links links
  | relay callable stepped =>
    exact links.keep rfl rfl fun connected open_ =>
      maySend_relay ledger live localSide wf callable.1 stepped connected open_

/-- The manager asks for a message of a relay. -/
theorem links_addRequest (wf : WellFormed n) (ledger : n.Ledger) (live : RelaysLive n)
    (localSide : n.type ≠ .remoteServer) (links : Links n) {r : RelayId} {buf : Frame}
    {strand : List ManagerTask} (queue : n.strand = .addRequest r buf :: strand)
    {throws : Throws} (ready : Ready n)
    (found : n.sslDown → ¬ (throws.newSsl ∧ buf.cmd = .startTcp)) :
    Links (runTask { n with strand } throws (.addRequest r buf)).state := by
  have asked := requested_addRequest { n with strand } throws.newSsl (some r) buf
  show Links (addRequest { n with strand } throws.newSsl (some r) buf).state
  cases ended : addRequest { n with strand } throws.newSsl (some r) buf with
  | ok k =>
    rw [ended] at asked
    obtain ⟨m, requested, rfl | ⟨remote, _⟩⟩ := asked
    · refine (links_part wf ledger live localSide links (.requested queue requested) (.inl ready)
        fun _ _ _ lost => ?_).1
      obtain ⟨_, k', _, passed⟩ := @passed_addRequest { n with strand } _ _ _ _ localSide ended
      have same := List.append_cancel_left (passed.symm.trans lost)
      cases same
    · exact absurd remote localSide
  | error k =>
    rw [ended] at asked
    obtain ⟨m, requested, rfl | ⟨remote, _⟩⟩ := asked
    · refine (links_part wf ledger live localSide links (.requested queue requested) (.inl ready)
        fun queue' _ isStart => ?_).1
      rw [queue] at queue'
      cases queue'
      exfalso
      unfold addRequest at ended
      split at ended
      · rename_i down
        dsimp only at ended
        split at ended
        · rename_i threw
          exact found down ⟨threw, isStart⟩
        · cases ended
      · cases ended
    · exact absurd remote localSide

/-- **One step** under the condition. -/
theorem links_step (wf : WellFormed n) (ledger : n.Ledger) (live : RelaysLive n)
    (localSide : n.type ≠ .remoteServer) (links : Links n) {a : NodeAction}
    (meets : n.StartMeets a) (stepped : n.step a = some m) : Links m := by
  rcases parts_step wf stepped with _ | outside
  rotate_left
  · exact links_outside wf ledger live localSide outside links
  cases stepIs_of_step stepped with
  | accept there => exact links_outside wf ledger live localSide (.accept there) links
  | udpPacket there => exact links_outside wf ledger live localSide (.udpPacket there) links
  | release remote => exact absurd remote localSide
  | relay known handled =>
    exact links_outside wf ledger live localSide
      (.relay (wf.callable_of_step known handled) handled) links
  | tick =>
    have strand := (work_tick n).strand
    refine links_allParts wf ledger live localSide links (allParts_tick wf)
      (.inr (requests_tick localSide)) ?_ fun _ => ?_
    · rw [strand]
      exact Nat.le_succ _
    · rw [strand]
  | @manager throws task strand queue =>
    have isHead : task ∈ n.strand.head? := by rw [queue]; rfl
    have ready (asks : n.AsksSsl task) : Ready n := by
      intro down r connected
      exact (meets task isHead down asks).1 r (ledger.connected_lt connected) connected
    by_cases request : ∃ r buf, task = .addRequest r buf
    · obtain ⟨r, buf, rfl⟩ := request
      exact links_addRequest wf ledger live localSide links queue (ready trivial)
        fun down => (meets _ isHead down trivial).2
    · have parts : AllParts n (runTask { n with strand } throws task).state :=
        allParts_runTask wf queue
      have popped : (runTask { n with strand } throws task).state.strand = strand :=
        strand_runTask { n with strand } throws task
      refine links_allParts wf ledger live localSide links parts ?_ ?_ fun isRequest => ?_
      · by_cases asks : n.AsksSsl task
        · exact .inl (ready asks)
        · right
          have silent : ¬ AsksSsl { n with strand } task := by
            cases task <;> exact asks
          exact requests_runTask (n := { n with strand }) localSide silent throws
      · rw [popped, queue]
        exact Nat.le_refl _
      · rw [queue] at isRequest
        cases isRequest
        exact absurd ⟨_, _, rfl⟩ request

theorem links_initLocal (type : ServerType) : Links (initLocal type) where
  linked _ there := by cases there
  first _ := heralded_nil

/-- A local manager keeps its type. -/
theorem localSide_reach {type : ServerType} (localSide : type ≠ .remoteServer)
    {C : Node → NodeAction → Prop} (run : Reach step C (initLocal type) n) :
    n.type ≠ .remoteServer := by
  refine run.invariant (P := fun n => n.type ≠ .remoteServer) localSide
    fun {t a t'} _ before _ stepped remote => before ?_
  cases stepIs_of_step stepped with
  | accept | udpPacket | release | relay => exact remote
  | tick => exact (work_tick t).type.symm.trans remote
  | @manager throws task strand =>
    have same : (runTask { t with strand } throws task).state.type = t.type := by
      cases task with
      | addRequest r buf => exact (quiet_addRequest { t with strand } _ _ buf).type
      | addResponse r buf => exact (work_addResponse { t with strand } throws r buf).type
      | addLocalRawTcp r => exact (work_addLocalRawTcp { t with strand } throws r).type
      | sendUdpData src buf => exact (work_sendUdpData { t with strand } throws src buf).type
    exact same.symm.trans remote

theorem links_reach {type : ServerType} (localSide : type ≠ .remoteServer)
    (run : Reach step StartMeets (initLocal type) n) : Links n := by
  have starts : Starts (initLocal type) := .localSide localSide
  refine run.invariant (links_initLocal type) fun before links meets stepped => ?_
  obtain ⟨wf, ledger, live⟩ := starts.sound before
  exact links_step wf ledger live (localSide_reach localSide before) links meets stepped

/-- An ssl relay that is not revived pushes what it is given, in order. -/
theorem kept_pushes : Relay.Kept fun r => r.kind = .ssl → r.PushesInOrder where
  born born _ := born.pushesInOrder
  call {r c} _ pushes ssl :=
    (Relay.calls_call r c).pushesInOrder (pushes ((Relay.call_kind r c).symm.trans ssl))

theorem pushes_reach {type : ServerType} (localSide : type ≠ .remoteServer)
    (run : Reach step StartMeets (initLocal type) n) :
    RelaysAll (fun r => r.kind = .ssl → r.PushesInOrder) n := by
  have starts : Starts (initLocal type) := .localSide localSide
  refine relays_reach kept_pushes starts.wellFormed (relays_initLocal kept_pushes localSide) run
    fun {k r ev relay outs} meets _ pushes stepped ssl => ?_
  have isSsl : (k.objs r).kind = .ssl := (Relay.sameCalls_step stepped).kind.symm.trans ssl
  obtain ⟨h, handled, rfl⟩ := Relay.step_eq_some.mp stepped
  have after := (Relay.handles_of_handle handled).pushesInOrder (pushes isSsl) fun stopped => by
    have acted := Relay.act_event.mpr ⟨h, outs, handled, rfl⟩
    exact Relay.StaysStopped.note.mp ((Relay.act_staysStopped stopped acted).mpr
      (meets isSsl stopped))
  exact after

/-- **`START_TCP` comes before `DATA_TCP`** among the messages given to an ssl relay of a
local manager, those that it pushed and those that it passed to `internal_send_data`, in
every state reached under the condition. -/
theorem startFirst {type : ServerType} (localSide : type ≠ .remoteServer)
    (run : Reach step StartMeets (initLocal type) n) {k : RelayId} (ssl : (n.objs k).kind = .ssl) :
    StartsFirst (n.objs k).log.given ∧ StartsFirst (n.objs k).log.accepted ∧
      StartsFirst (n.objs k).log.passed := by
  obtain ⟨_, ledger, live⟩ := (Starts.localSide localSide).sound run
  have given : StartsFirst (n.objs k).log.given := by
    rw [ledger.given k (.inr ssl)]
    exact (links_reach localSide run).first k
  rcases Nat.lt_or_ge k n.next with known | new
  · have accepted := given.of_prefix ((pushes_reach localSide run k known ssl).begins)
    exact ⟨given, accepted, accepted.of_prefix (live k known).placed.begins⟩
  · rw [ledger.fresh k new]
    exact ⟨heralded_nil, heralded_nil, heralded_nil⟩

/-- A connection is accepted and gets data from its client, and the first ssl relay
starts. -/
def oneConnection : List NodeAction :=
  [.accept (.ipv4 8 8 8 8 53), .manager {}, .relay 1 (.arrive (.stream [7])), .relay 1 .read]

/-- The connection and the data on one ssl relay. -/
theorem startFirst_one :
    ∃ n, Reachable step (initLocal .localTransparent) n ∧
      (n.objs 2).log.accepted.map (·.cmd) = [.startTcp, .dataTcp] ∧
      StartsFirst (n.objs 2).log.accepted := by
  have run := @Reach.of_isSome _ _ step StartMeets (initLocal .localTransparent) _
    (oneConnection ++ [.manager {}, .relay 2 .task, .relay 2 .task]) (by decide +kernel)
  exact ⟨_, run.reachable, by decide +kernel,
    (@startFirst _ .localTransparent (by decide) run 2 (by decide +kernel)).2.1⟩

/-- **Data without a connection**: the first ssl relay fails while the data waits, so a
second one is made for it, and the data is the first message there. -/
theorem startFirst_reconnect :
    ∃ n, Reachable step (initLocal .localTransparent) n ∧ (n.objs 3).kind = .ssl ∧
      (n.objs 3).log.accepted = [⟨1, .dataTcp, [7]⟩] ∧
      ¬ StartsFirst (n.objs 3).log.accepted := by
  obtain ⟨n, run, ssl, alone⟩ : ∃ n, Reachable step (initLocal .localTransparent) n ∧
      (n.objs 3).kind = .ssl ∧ (n.objs 3).log.accepted = [⟨1, .dataTcp, [7]⟩] :=
    ⟨_, .of_isSome (oneConnection ++ [.relay 2 (.startup false), .relay 2 .stop, .manager {},
      .relay 3 .task]) (by decide +kernel), by decide +kernel, by decide +kernel⟩
  refine ⟨n, run, ssl, alone, fun first => ?_⟩
  rw [alone] at first
  obtain ⟨start, before, _⟩ := first [] ⟨1, .dataTcp, [7]⟩ [] rfl rfl
  cases before

end Node

end SslSocks
