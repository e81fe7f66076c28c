import SslSocks.AddressRecords
import SslSocks.Lib.Trace
import SslSocks.SessionStreams
import SslSocks.Tunnel

/-!
# Where a connection goes

The address that a client means lies in `_sock.local_endpoint()` of a transparent raw_tcp, or in
the connect request that the client of a local server sends. It goes into `START_TCP`, through
the tunnel, and out again into `_dst_host` and `_dst_service` of a raw_tcp of the remote side.

`Aimed` is the invariant of the remote side, `Meant` the one of the local side, and
`destinations_meant` joins them: no raw_tcp of the remote side connects to an address that no
client asked for.
-/

namespace SslSocks

open Lib

/-- The read that the event completes. -/
def RelayEvent.streams : RelayEvent → List (List UInt8)
  | .arrive (.stream bytes) => [bytes]
  | _ => []

/-- The read that the step completes. -/
def NodeAction.arrives : NodeAction → List (RelayId × List UInt8)
  | .relay r (.arrive (.stream bytes)) => [(r, bytes)]
  | _ => []

/-- What the relay read, in order. -/
def readsBy (heard : List (RelayId × List UInt8)) (r : RelayId) : List (List UInt8) :=
  heard.filterMap fun read => if read.1 = r then some read.2 else none

theorem readsBy_relay (a r : RelayId) (ev : RelayEvent) :
    readsBy (NodeAction.relay a ev).arrives r = if a = r then ev.streams else [] := by
  have none {xs : List (List UInt8)} (empty : xs = []) : [] = if a = r then xs else [] := by
    rw [empty, ite_self]
  unfold readsBy
  cases ev with
  | arrive arrival =>
    cases arrival with
    | stream bytes =>
      by_cases same : a = r <;> simp [NodeAction.arrives, RelayEvent.streams, same]
    | datagram => exact none rfl
  | _ => exact none rfl

namespace Relay

variable {r r' : Relay} {alive : Bool} {ev : RelayEvent} {outs : List RelayOut}
variable {reads : List (List UInt8)}

/-- The relay keeps its addresses. -/
structure SamePlan (r r' : Relay) : Prop where
  target : r'.tcp.target = r.tcp.target
  localEndpoint : r'.tcp.localEndpoint = r.tcp.localEndpoint

theorem samePlan_call (r : Relay) (c : RelayCall) : SamePlan r (r.call c) := by
  have called := calls_call r c
  generalize r.call c = r' at called
  cases called <;> exact ⟨rfl, rfl⟩

theorem Handles.samePlan (handled : Handles alive r ev r' outs) : SamePlan r r' := by
  have stops (a : Relay) (same : SamePlan r a) : SamePlan r a.stopHere := by
    have tcp := (sameReads_stopHere a).tcp
    exact ⟨(congrArg TcpImpl.target tcp).trans same.target,
      (congrArg TcpImpl.localEndpoint tcp).trans same.localEndpoint⟩
  by_cases send : RelayEvent.IsSend ev
  · have tcp := (handled.sameReads send).1.tcp
    exact ⟨congrArg TcpImpl.target tcp, congrArg TcpImpl.localEndpoint tcp⟩
  cases handled with
  | readThrew | readError | startupThrew | requestBad | directFailed => exact stops _ ⟨rfl, rfl⟩
  | arrive | readRaw | readRawDead | readMore | readMessage | readMessageDead | readOverrun
  | readDatagram | readDatagramDead | greeting | greetingReply | directResolve | directConnect
  | okReply | resolve | connectSsl | connectRaw | handshake | requestBlocked | requestDead
  | requestDirect | direct => exact ⟨rfl, rfl⟩
  | _ => exact absurd trivial send

/-! ## The greeting and the request -/

/-- The read whose handler has not run. -/
def unhandled (r : Relay) : List (List UInt8) :=
  match r.arrived with
  | some (.stream bytes) => [bytes]
  | _ => []

/-- `impl_start_local` reads the greeting first and the connect request second. -/
structure Greets (reads : List (List UInt8)) (r : Relay) : Prop where
  greeting : r.startup = .greeting → reads = r.unhandled
  reply : r.startup = .greetingReply → r.unhandled = [] ∧ ∃ greeting, reads = [greeting]
  request : r.startup = .request → ∃ greeting, reads = greeting :: r.unhandled

theorem unhandled_of_same (same : r'.arrived = r.arrived) : r'.unhandled = r.unhandled := by
  unfold unhandled
  rw [same]

theorem Greets.of_same (greets : Greets reads r) (startup : r'.startup = r.startup)
    (arrived : r'.arrived = r.arrived) : Greets reads r' := by
  have unread := unhandled_of_same arrived
  constructor <;> rw [startup, unread]
  · exact greets.greeting
  · exact greets.reply
  · exact greets.request

theorem Greets.over (other : r.startup ∉ [.greeting, .greetingReply, .request]) :
    Greets reads r := by
  constructor <;> intro here <;> rw [here] at other <;> exact absurd other (by decide)

/-- Nothing was read yet. -/
theorem Greets.first (none : r.unhandled = []) (early : r.startup ∉ [.greetingReply, .request]) :
    Greets [] r := by
  refine ⟨fun _ => none.symm, fun here => ?_, fun here => ?_⟩ <;> rw [here] at early <;>
    exact absurd early (by decide)

/-- The call does not start a relay. -/
theorem startup_call {c : RelayCall} (other : ∀ s, c ≠ .begin s) :
    (r.call c).startup = r.startup := by
  have called := calls_call r c
  generalize r.call c = r' at called
  cases called with
  | @begin s => exact absurd rfl (other s)
  | _ => rfl

theorem arrived_call (r : Relay) (c : RelayCall) : (r.call c).arrived = r.arrived := by
  have called := calls_call r c
  generalize r.call c = r' at called
  cases called <;> rfl

theorem Handles.greets (handled : Handles alive r ev r' outs) (lives : r.Lives)
    (greets : Greets reads r) (goes : .crash ∉ outs) :
    Greets (reads ++ RelayEvent.streams ev) r' := by
  have same {a : Relay} (startup : a.startup = r.startup) (arrived : a.arrived = r.arrived) :
      Greets (reads ++ []) a := by
    rw [List.append_nil]
    exact greets.of_same startup arrived
  -- the read loop and the direct relay run when the greeting is over
  have late (a : Relay) {more : List (List UInt8)} (on : r.Reads)
      (startup : a.startup = r.startup) : Greets (reads ++ more) a := by
    refine .over fun there => ?_
    rw [startup] at there
    rcases lives.startsOnce.later on with here | here <;> rw [here] at there <;> cases there <;>
      contradiction
  have stopped (a : Relay) {more : List (List UInt8)} (on : r.Reads)
      (startup : a.startup = r.startup) : Greets (reads ++ more) a.stopHere :=
    late _ on ((sameReads_stopHere a).startup.trans startup)
  by_cases send : RelayEvent.IsSend ev
  · have reads := (handled.sameReads send).1
    have none : RelayEvent.streams ev = [] := by
      cases ev <;> first | rfl | exact absurd send id
    rw [none]
    exact same reads.startup reads.arrived
  cases handled with
  | @arrive arrival awaits _ none _ =>
    have before : r.unhandled = [] := by
      unfold unhandled
      rw [none]
    have now : ({ r with arrived := some arrival } : Relay).unhandled =
        RelayEvent.streams (.arrive arrival) := by
      cases arrival <;> rfl
    by_cases reading : r.reading
    · exact late _ (.inl reading) rfl
    · refine ⟨fun here => ?_, fun here => ?_, fun here => ?_⟩
      · rw [now, greets.greeting here, before, List.nil_append]
      · -- the answer to the greeting is being sent
        have waits : r.startup = .greetingReply := here
        unfold awaitsRead at awaits
        rw [waits] at awaits
        simp [reading] at awaits
      · obtain ⟨greeting, reads⟩ := greets.request here
        exact ⟨greeting, by rw [now, reads, before, List.singleton_append]⟩
  | greeting startup arrived =>
    have isTcp := (lives.kindOk.localServer (by rw [startup]; decide)).1
    obtain ⟨arrival, found⟩ := Option.ne_none_iff_exists'.mp arrived
    cases arrival with
    | stream bytes =>
      have reads := greets.greeting startup
      unfold unhandled at reads
      rw [found] at reads
      refine ⟨nofun, fun _ => ⟨rfl, bytes, ?_⟩, nofun⟩
      rw [reads]
      rfl
    | datagram peer bytes => exact absurd (isTcp.symm.trans (lives.kindOk.datagram found).1) nofun
  | greetingReply startup =>
    obtain ⟨unread, greeting, reads⟩ := greets.reply startup
    refine ⟨nofun, nofun, fun _ => ⟨greeting, ?_⟩⟩
    rw [reads]
    exact congrArg (greeting :: ·) unread.symm
  | requestDead => exact absurd List.mem_cons_self goes
  | readRaw _ reading | readRawDead _ reading | readMore _ reading | readMessage _ reading
  | readMessageDead _ reading | readOverrun _ reading | readDatagram _ reading
  | readDatagramDead _ reading => exact late _ (.inl reading) rfl
  | readThrew _ reading | readError reading => exact stopped _ (.inl reading) rfl
  | direct _ _ on => exact late _ (.inr on) rfl
  | directFailed _ _ on => exact stopped _ (.inr on) rfl
  | startupThrew | requestBad =>
    refine .over ?_
    rw [(sameReads_stopHere _).startup]
    simp
  | directResolve | directConnect | okReply | resolve | connectSsl | connectRaw | handshake
  | requestBlocked | requestDirect => exact .over (by simp)
  | _ => exact absurd trivial send

/-- A handler that asks for a connection has read the request of the client. -/
theorem Handles.opens (handled : Handles alive r ev r' outs) {buf : Frame}
    (told : .request buf ∈ outs) (start : buf.cmd = .startTcp) :
    r.startup = .request ∧ ∃ bytes, r.arrived = some (.stream bytes) ∧ AcceptsRequest bytes ∧
      buf.payload = bytes.drop 3 := by
  have parting (told : .request buf ∈ r.farewell alive) : False := by
    unfold farewell at told
    split at told
    · cases List.mem_singleton.mp told
      cases start
    · cases told
  cases handled with
  | readRaw | readDatagram =>
    cases List.mem_singleton.mp told
    cases start
  | readError | startupThrew | requestBad | directFailed => exact (parting told).elim
  | requestBlocked startup arrived accepts =>
    cases List.mem_singleton.mp told
    exact ⟨startup, _, arrived, accepts, rfl⟩
  | readRawDead | readMessage | readOverrun | readDatagramDead | requestDead =>
    cases List.mem_singleton.mp told
  | _ => cases told

end Relay

namespace Node

variable {n m : Node}

theorem leftByCalls_plan : LeftByCalls Relay.SamePlan where
  refl _ := ⟨rfl, rfl⟩
  trans first second :=
    ⟨second.target.trans first.target, second.localEndpoint.trans first.localEndpoint⟩
  call r c _ := Relay.samePlan_call r c

theorem plan_step {a : NodeAction} (wf : WellFormed n) (stepped : n.step a = some m) {r : RelayId}
    (known : r < n.next) : (n.objs r).SamePlan (m.objs r) := by
  have run : Reach step anyStep n m := Reach.refl.tail trivial stepped
  refine leftByCalls_plan.run wf run known (fun a s => Relay.samePlan_call a (.begin s))
    fun {k ev relay outs} _ stepped => ?_
  obtain ⟨h, handled, rfl⟩ := Relay.step_eq_some.mp stepped
  have plan := (Relay.handles_of_handle handled).samePlan
  exact ⟨plan.target, plan.localEndpoint⟩

/-! ## The remote side -/

/-- The raw_tcp was made for the `START_TCP`, and connects to the address in it. -/
structure AimedAt (n : Node) (r : RelayId) (buf : Frame) : Prop where
  start : buf.cmd = .startTcp
  session : buf.session = (n.objs r).session
  target : ∃ target, parseAddress buf.payload buf.payload.length = .ok target ∧
    (n.objs r).tcp.target = some target

/-- Every raw_tcp was made for a `START_TCP` that came. -/
def Aimed (n : Node) : Prop :=
  ∀ r, r < n.next → (n.objs r).kind = .rawTcp → ∃ buf ∈ n.handled, n.AimedAt r buf

/-- No raw_tcp is made. -/
def NoTcp (n m : Node) : Prop :=
  ∀ r, n.next ≤ r → r < m.next → (m.objs r).kind ≠ .rawTcp

theorem NoTcp.of_next (next : m.next = n.next) : NoTcp n m :=
  fun _ new known => absurd (next ▸ known) (Nat.not_lt.mpr new)

theorem NoTcp.call (noTcp : NoTcp n m) (a : RelayId) (c : RelayCall) : NoTcp n (m.call a c) := by
  intro r new known
  rw [objs_call_kind]
  exact noTcp r new known

theorem NoTcp.make (next : m.next = n.next) {relay : Relay} (other : relay.kind ≠ .rawTcp) :
    NoTcp n (m.make relay) := by
  intro r new known
  have is : r = m.next := Nat.le_antisymm (Nat.le_of_lt_succ known) (next ▸ new)
  rw [objs_make, if_pos is]
  exact other

theorem noTcp_addRemoteRawUdp (throws : Throws) (session : UInt32) (next : m.next = n.next) :
    (m.addRemoteRawUdp throws session).Both (NoTcp n) := by
  have made : NoTcp n (m.make (m.newRawUdp session)) := .make next nofun
  unfold addRemoteRawUdp startRawUdp
  split
  · exact NoTcp.of_next next
  · simp only [id]
    split
    · exact made
    · exact made.call m.next .startUdp

theorem noTcp_remoteServerSendUdp (throws : Throws) (buf : Frame) :
    (n.remoteServerSendUdp throws buf).Both (NoTcp n) := by
  have slot : (n.relaySlot buf.session).next = n.next := by
    unfold relaySlot
    split <;> rfl
  have fresh : (((n.relaySlot buf.session).addRemoteRawUdp throws buf.session).andThen fun m =>
      .ok (m.call (n.relaySlot buf.session).next (.sendData buf))).Both (NoTcp n) :=
    (noTcp_addRemoteRawUdp throws buf.session slot).andThen fun m noTcp => noTcp.call _ _
  unfold remoteServerSendUdp
  simp only
  split
  · split
    · exact fresh
    · exact (NoTcp.of_next slot).call _ _
  · exact fresh

/-- **`remote_server_start_tcp`.** -/
theorem aimed_remoteServerStartTcp (remote : n.type = .remoteServer) (throws : Throws)
    {buf : Frame} (start : buf.cmd = .startTcp) :
    (n.remoteServerStartTcp throws buf).Both fun m =>
      ∀ r, n.next ≤ r → r < m.next → m.AimedAt r buf := by
  have slot : (n.relaySlot buf.session).next = n.next ∧
      (n.relaySlot buf.session).type = .remoteServer := by
    unfold relaySlot
    split <;> exact ⟨rfl, remote⟩
  unfold remoteServerStartTcp
  simp only
  generalize stoppedIs : Option.elim _ (n.relaySlot buf.session) _ = stopped
  obtain ⟨next, type⟩ : stopped.next = n.next ∧ stopped.type = .remoteServer := by
    rw [← stoppedIs]
    cases ((n.relaySlot buf.session).relays.lookup buf.session).join with
    | none => exact slot
    | some r => exact slot
  split
  · intro r new known
    exact absurd (next ▸ known) (Nat.not_lt.mpr new)
  · rename_i target read
    rw [addRemoteRawTcp_eq type]
    intro r new known
    have is : r = stopped.next := Nat.le_antisymm (Nat.le_of_lt_succ known) (next ▸ new)
    have made : (stopped.make ((stopped.newRawTcp (some target)).begin buf.session)).objs r =
        (stopped.newRawTcp (some target)).begin buf.session := by
      rw [objs_make, if_pos is]
    refine ⟨start, ?_, target, read, ?_⟩
    · exact (congrArg Relay.session made).symm
    · exact congrArg (fun relay => relay.tcp.target) made

theorem aimed_addResponse (remote : n.type = .remoteServer) (throws : Throws) (k : RelayId)
    (buf : Frame) : (n.addResponse throws k buf).Both fun m =>
      ∀ r, n.next ≤ r → r < m.next → (m.objs r).kind = .rawTcp → m.AimedAt r buf := by
  have none {x : Fallible Node} (noTcp : x.Both (NoTcp n)) : x.Both fun m =>
      ∀ r, n.next ≤ r → r < m.next → (m.objs r).kind = .rawTcp → m.AimedAt r buf :=
    noTcp.mono fun m noTcp r new known tcp => absurd tcp (noTcp r new known)
  unfold addResponse
  simp only
  split
  · have next := @next_responseDataTcp { n with answered := n.answered ++ [(k, buf)] } remote
      throws buf
    exact none (next.mono fun _ next => NoTcp.of_next next)
  · split
    · rename_i transparent
      exact absurd (remote.symm.trans transparent) nofun
    · have noTcp := @noTcp_remoteServerSendUdp { n with answered := n.answered ++ [(k, buf)] }
        throws buf
      exact none (noTcp.mono fun _ noTcp => noTcp)
    · exact none (NoTcp.of_next rfl)
  · rename_i start
    have aimed := @aimed_remoteServerStartTcp { n with answered := n.answered ++ [(k, buf)] }
      remote throws buf start
    exact aimed.mono fun m aimed r new known _ => aimed r new known
  · refine none (NoTcp.of_next ?_)
    show (responseStopTcp _ buf).next = n.next
    unfold responseStopTcp
    split <;> rfl
  · exact none (NoTcp.of_next rfl)

/-- A step makes a raw_tcp for the message that it handles. -/
theorem aimed_new {a : NodeAction} (tasks : RemoteTasks n) (stepped : n.step a = some m)
    {r : RelayId} (new : n.next ≤ r) (known : r < m.next) (tcp : (m.objs r).kind = .rawTcp) :
    ∃ buf ∈ m.handled, m.AimedAt r buf := by
  have none (next : m.next = n.next) : ∃ buf ∈ m.handled, m.AimedAt r buf :=
    absurd (next ▸ known) (Nat.not_lt.mpr new)
  cases stepIs_of_step stepped with
  | accept localSide | udpPacket localSide => exact absurd tasks.remote localSide
  | release _ | relay _ _ => exact none rfl
  | tick _ => exact none (next_tick n)
  | @manager throws task strand queue =>
    rcases tasks.tasks task (queue ▸ List.mem_cons_self) with ⟨a, buf, rfl⟩ | ⟨k, buf, rfl⟩
    · exact none (@next_addRequest { n with strand } tasks.remote throws.newSsl (some a) buf)
    · have noted := (work_addResponse { n with strand } throws k buf).answered
      have aimed := @aimed_addResponse { n with strand } tasks.remote throws k buf
      refine ⟨buf, List.mem_map.mpr ⟨(k, buf), ?_, rfl⟩, aimed r new known tcp⟩
      show (k, buf) ∈ ({ n with strand }.addResponse throws k buf).state.answered
      rw [noted]
      exact List.mem_append_right _ List.mem_cons_self

theorem aimed_step {a : NodeAction} (wf : WellFormed n) (tasks : RemoteTasks n) (aimed : Aimed n)
    (stepped : n.step a = some m) : Aimed m := by
  intro r known tcp
  rcases Nat.lt_or_ge r n.next with old | new
  · have run : Reach step anyStep n m := Reach.refl.tail trivial stepped
    have waits : .addLocalRawTcp r ∉ n.strand := by
      intro there
      rcases tasks.tasks _ there with ⟨_, _, is⟩ | ⟨_, _, is⟩ <;> cases is
    rw [kind_reach wf run old] at tcp
    obtain ⟨buf, handled, start, session, target, read, same⟩ := aimed r old tcp
    refine ⟨buf, (grows_reach wf run).handled.subset handled, start, ?_, target, read, ?_⟩
    · rw [session_step wf stepped old waits]
      exact session
    · exact (plan_step wf stepped old).target.trans same
  · exact aimed_new tasks stepped new known tcp

theorem aimed_reach {C : Node → NodeAction → Prop} (run : Reach step C initRemote n) :
    Aimed n := by
  have starts := Starts.remote
  suffices both : RemoteTasks n ∧ Aimed n from both.2
  refine run.invariant (P := fun n => RemoteTasks n ∧ Aimed n) ⟨remoteTasks_initRemote, nofun⟩
    fun {k a m} before both _ stepped => ?_
  have wf := wellFormed_reach starts.wellFormed before
  exact ⟨remoteTasks_step both.1 stepped, aimed_step wf both.1 both.2 stepped⟩

/-! ## The local side -/

/-- The client of the raw_tcp asked for the address: it connected to it, or what it sent second is
a connect request for it. -/
def Wants (n : Node) (heard : List (RelayId × List UInt8)) (r : RelayId)
    (payload : List UInt8) : Prop :=
  n.type = .localTransparent ∧ payload = parseAddr (n.objs r).tcp.localEndpoint ∨
    n.type = .localServer ∧ ∃ greeting bytes later, readsBy heard r = greeting :: bytes :: later ∧
      Relay.AcceptsRequest bytes ∧ payload = bytes.drop 3

/-- The reads of the relays, and of those that do not read yet. -/
structure Greeted (reads : RelayId → List (List UInt8)) (n : Node) : Prop where
  relays : ∀ r, r < n.next → (n.objs r).Greets (reads r)
  fresh : ∀ r, n.next ≤ r → reads r = []
  pending : ∀ r, .addLocalRawTcp r ∈ n.strand → reads r = [] ∧ (n.objs r).unhandled = []

variable {heard : List (RelayId × List UInt8)} {reads : RelayId → List (List UInt8)}

/-- Every `START_TCP` is for the address that its client asked for. -/
structure Meant (heard : List (RelayId × List UInt8)) (n : Node) : Prop where
  asked : ∀ q ∈ n.requests, q.buf.cmd = .startTcp →
    ∃ r, q.relay = some r ∧ r < n.next ∧ n.Wants heard r q.buf.payload
  queued : ∀ r buf, .addRequest r buf ∈ n.strand → buf.cmd = .startTcp →
    n.Wants heard r buf.payload
  greeted : n.crashed = false → Greeted (readsBy heard) n

theorem Greeted.keep (greeted : Greeted reads n) (objs : m.objs = n.objs) (next : m.next = n.next)
    (strand : m.strand ⊆ n.strand) : Greeted reads m := by
  refine ⟨fun r known => ?_, fun r new => greeted.fresh r (next ▸ new), fun r there => ?_⟩
  · rw [objs]
    exact greeted.relays r (next ▸ known)
  · rw [objs]
    exact greeted.pending r (strand there)

theorem Greeted.call (greeted : Greeted reads n) (a : RelayId) {c : RelayCall}
    (other : ∀ s, c ≠ .begin s) : Greeted reads (n.call a c) := by
  refine ⟨fun r known => ?_, greeted.fresh, fun r there => ?_⟩
  · have before := greeted.relays r known
    rw [objs_call]
    split
    · rename_i same
      subst same
      exact before.of_same (Relay.startup_call other) (Relay.arrived_call _ _)
    · exact before
  · obtain ⟨none, unread⟩ := greeted.pending r there
    refine ⟨none, ?_⟩
    rw [objs_call]
    split
    · rename_i same
      subst same
      exact (Relay.unhandled_of_same (Relay.arrived_call _ _)).trans unread
    · exact unread

/-- A new relay has read nothing. -/
theorem Greeted.make (greeted : Greeted reads n) {relay : Relay} (none : relay.unhandled = [])
    (early : relay.startup ∉ [.greetingReply, .request]) : Greeted reads (n.make relay) := by
  refine ⟨fun r known => ?_, fun r new => greeted.fresh r (Nat.le_of_succ_le new),
    fun r there => ?_⟩
  · rw [objs_make]
    split
    · rename_i same
      rw [greeted.fresh r same.ge]
      exact .first none early
    · rename_i other
      exact greeted.relays r (Nat.lt_of_le_of_ne (Nat.le_of_lt_succ known) other)
  · obtain ⟨empty, unread⟩ := greeted.pending r there
    refine ⟨empty, ?_⟩
    rw [objs_make]
    split
    · exact none
    · exact unread

theorem Greeted.make_udp (greeted : Greeted reads n) (s : UInt32) (started : Bool) :
    Greeted reads (n.make (if started then (n.newRawUdp s).startUdp else n.newRawUdp s)) := by
  have startup : (n.newRawUdp s).startUdp.startup = .idle :=
    Relay.startup_call (r := n.newRawUdp s) (c := .startUdp) nofun
  have unread : (n.newRawUdp s).startUdp.unhandled = [] :=
    Relay.unhandled_of_same (Relay.arrived_call (n.newRawUdp s) .startUdp)
  cases started with
  | true => exact greeted.make unread (by simp [startup])
  | false => exact greeted.make rfl (by simp [newRawUdp])

/-- An accepted connection starts. -/
theorem Greeted.begin (greeted : Greeted reads n) {a : RelayId}
    (waits : .addLocalRawTcp a ∈ n.strand) (s : UInt32) :
    Greeted reads (n.call a (.begin s)) := by
  have unread (r : RelayId) : ((n.call a (.begin s)).objs r).unhandled = (n.objs r).unhandled := by
    rw [objs_call]
    split
    · rename_i same
      subst same
      exact Relay.unhandled_of_same rfl
    · rfl
  refine ⟨fun r known => ?_, greeted.fresh, fun r there => ?_⟩
  · have before := greeted.relays r known
    by_cases same : r = a
    · subst same
      obtain ⟨empty, none⟩ := greeted.pending r waits
      rw [empty] at before ⊢
      rw [objs_call, if_pos rfl]
      show Relay.Greets [] ((n.objs r).begin s)
      cases type : (n.objs r).type with
      | localServer => exact .first none (by simp [Relay.begin, type])
      | remoteServer => exact .over (by simp [Relay.begin, type])
      | localTransparent => exact before.of_same (by simp [Relay.begin, type]) rfl
    · rw [objs_call_of_ne _ same]
      exact before
  · obtain ⟨empty, none⟩ := greeted.pending r there
    exact ⟨empty, (unread r).trans none⟩

theorem greeted_requested {relay : Option RelayId} {buf : Frame} (greeted : Greeted reads n)
    (requested : Requested relay buf n m) : Greeted reads m := by
  cases requested with
  | @sent k _ _ =>
    exact (greeted.call k (c := .sendData buf) nofun).keep rfl rfl (List.Subset.refl _)
  | made _ _ =>
    have made : Greeted reads (n.make (n.newSslRelay.sendData buf)) :=
      greeted.make rfl (by simp [newSslRelay, Relay.sendData])
    exact made.keep rfl rfl (List.Subset.refl _)
  | lost _ => exact greeted.keep rfl rfl (List.Subset.refl _)

theorem greeted_part (greeted : Greeted reads n) (part : Part n m) : Greeted reads m := by
  have popped {task : ManagerTask} {strand : List ManagerTask} (queue : n.strand = task :: strand) :
      strand ⊆ n.strand := queue ▸ List.subset_cons_self _ _
  cases part with
  | @requested r buf strand _ queue requested =>
    have rest : Greeted reads { n with strand } := greeted.keep rfl rfl (popped queue)
    exact greeted_requested rest requested
  | @emit a buf _ _ _ _ requested =>
    exact greeted_requested (greeted.call a (c := .emit buf) nofun) requested
  | own _ _ requested => exact greeted_requested greeted requested
  | respond queue | stopped queue | repeated queue | packet queue =>
    exact greeted.keep rfl rfl (popped queue)
  | @data k r buf strand queue =>
    have rest : Greeted reads (n.respond k buf strand) := greeted.keep rfl rfl (popped queue)
    exact rest.call r (c := .sendData buf) nofun
  | @begin a strand queue =>
    have begun : Greeted reads (n.call a (.begin n.session)) :=
      greeted.begin (queue ▸ List.mem_cons_self) _
    exact begun.keep rfl rfl (popped queue)
  | startRead => exact greeted.call _ (c := .startRead) nofun
  | halt _ halts =>
    rcases halts with rfl | rfl
    · exact greeted.call _ (c := .stopRelay) nofun
    · exact greeted.call _ (c := .timeoutDown) nofun
  | drop => exact greeted.keep rfl rfl (List.Subset.refl _)
  | @makeTcp s target =>
    have made : Greeted reads (n.make ((n.newRawTcp (some target)).begin s)) :=
      greeted.make rfl (by cases type : n.type <;> simp [Relay.begin, newRawTcp, type])
    exact made.keep rfl rfl (List.Subset.refl _)
  | @orphanUdp s => exact greeted.make_udp s false
  | @makeUdp s => exact (greeted.make_udp s true).keep rfl rfl (List.Subset.refl _)
  | datagram | reply => exact greeted.call _ (c := .sendData _) nofun

theorem greeted_udpPart (greeted : Greeted reads n) (part : UdpPart n m) : Greeted reads m := by
  cases part with
  | assign | sources => exact greeted.keep rfl rfl (List.Subset.refl _)
  | addPeer => exact greeted.call _ (c := .addPeer _ _) nofun
  | delPeer => exact greeted.call _ (c := .delPeer _) nofun
  | localUdp started => exact (greeted.make_udp 0 started).keep rfl rfl (List.Subset.refl _)

theorem greeted_parts (greeted : Greeted reads n) (parts : AllParts n m) : Greeted reads m := by
  induction parts with
  | refl => exact greeted
  | tail _ part ih =>
    rcases part with part | part
    · exact greeted_part ih part
    · exact greeted_udpPart ih part

theorem greeted_outside {a : NodeAction} (live : RelaysLive n)
    (greeted : Greeted (readsBy heard) n) (outside : Outside n a m) (goes : m.crashed = false) :
    Greeted (readsBy (heard ++ a.arrives)) m := by
  have silent {a : NodeAction} {k : Node} (none : a.arrives = []) (kept : Greeted (readsBy heard) k) :
      Greeted (readsBy (heard ++ a.arrives)) k := by
    rw [none, List.append_nil]
    exact kept
  cases outside with
  | @accept dst =>
    have made : Greeted (readsBy heard) (n.make (n.newAccepted dst)) :=
      greeted.make rfl (by simp [newAccepted, newRawTcp])
    refine silent rfl ⟨made.relays, made.fresh, fun r there => ?_⟩
    rcases List.mem_append.mp there with old | new
    · exact made.pending r old
    · cases List.mem_singleton.mp new
      refine ⟨greeted.fresh _ le_rfl, ?_⟩
      show ((n.make (n.newAccepted dst)).objs n.next).unhandled = []
      rw [objs_make, if_pos rfl]
      rfl
  | udpPacket =>
    refine silent rfl ⟨greeted.relays, greeted.fresh, fun r there => ?_⟩
    refine greeted.pending r ((List.mem_append.mp there).resolve_right fun new => ?_)
    cases List.mem_singleton.mp new
  | release => exact silent rfl (greeted.keep rfl rfl (List.Subset.refl _))
  | @relay b ev relay outs callable handled =>
    have reads (r : RelayId) : readsBy (heard ++ (NodeAction.relay b ev).arrives) r =
        readsBy heard r ++ if b = r then ev.streams else [] := by
      rw [← readsBy_relay]
      exact List.filterMap_append
    have others {r : RelayId} (other : b ≠ r) :
        readsBy (heard ++ (NodeAction.relay b ev).arrives) r = readsBy heard r := by
      rw [reads, if_neg other, List.append_nil]
    refine ⟨fun r known => ?_, fun r new => ?_, fun r there => ?_⟩
    · show Relay.Greets _ (Function.update n.objs b relay r)
      by_cases same : b = r
      · subst same
        obtain ⟨h, handle, rfl⟩ := Relay.step_eq_some.mp handled
        have noCrash : .crash ∉ outs := by
          intro crash
          rw [show outs.contains .crash = true from List.contains_iff_mem.mpr crash] at goes
          cases goes
        have greets := (Relay.handles_of_handle handle).greets (live b callable.1)
          (greeted.relays b callable.1) noCrash
        rw [reads, if_pos rfl, Function.update_self]
        exact greets.of_same rfl rfl
      · rw [others same, Function.update_of_ne (Ne.symm same)]
        exact greeted.relays r known
    · rw [others (Nat.ne_of_lt (callable.1.trans_le new))]
      exact greeted.fresh r new
    · have waits : .addLocalRawTcp r ∈ n.strand := by
        refine (List.mem_append.mp there).resolve_right fun new => ?_
        obtain ⟨out, _, is⟩ := List.mem_filterMap.mp new
        cases out <;> cases is
      have other : b ≠ r := fun same => callable.2 (same ▸ waits)
      show _ ∧ (Function.update n.objs b relay r).unhandled = []
      rw [others other, Function.update_of_ne (Ne.symm other)]
      exact greeted.pending r waits

theorem Wants.keep {r : RelayId} {payload : List UInt8} {more : List (RelayId × List UInt8)}
    (wants : n.Wants heard r payload) (type : m.type = n.type)
    (plan : (n.objs r).SamePlan (m.objs r)) : m.Wants (heard ++ more) r payload := by
  unfold Wants
  rw [type, plan.localEndpoint]
  refine wants.imp id fun ⟨isLocal, greeting, bytes, later, reads, accepts, same⟩ => ?_
  refine ⟨isLocal, greeting, bytes, later ++ readsBy more r, ?_, accepts, same⟩
  rw [show readsBy (heard ++ more) r = readsBy heard r ++ readsBy more r from List.filterMap_append,
    reads]
  rfl

/-- What a step asks for. -/
theorem meant_asked {a : NodeAction} (wf : WellFormed n) (localSide : n.type ≠ .remoteServer)
    (other : ∀ {k buf}, n.strand.head? = some (.addResponse k buf) → buf.cmd ≠ .startTcp)
    (meant : Meant heard n) (stepped : n.step a = some m) :
    Asked (fun q => q.buf.cmd = .startTcp →
      ∃ r, q.relay = some r ∧ r < n.next ∧ n.Wants heard r q.buf.payload) n m := by
  cases stepIs_of_step stepped with
  | accept _ | udpPacket _ | release _ | relay _ _ => exact .of_eq rfl
  | tick _ => exact .of_eq (requests_tick localSide)
  | @manager throws task strand queue =>
    have first : task ∈ n.strand := queue ▸ List.mem_cons_self
    cases task with
    | addRequest r buf =>
      exact asked_addRequest { n with strand } throws.newSsl fun k start =>
        ⟨r, rfl, (wf.askers first).1, meant.queued r buf first start⟩
    | addResponse relay buf =>
      have noStart : buf.cmd ≠ .startTcp := other (by rw [queue]; rfl)
      exact asked_addResponse (n := { n with strand }) localSide throws noStart
        fun k buf stop start => absurd (stop.symm.trans start) nofun
    | addLocalRawTcp r =>
      show (addLocalRawTcp { n with strand } throws r).Both (Asked _ n)
      unfold addLocalRawTcp
      simp only
      split
      · exact Asked.of_eq rfl
      · refine (asked_opening _ throws (fun transparent k _ => ?_) ?_).mono fun m asked => asked
        · exact ⟨r, rfl, (wf.pending first).1, .inl ⟨transparent, rfl⟩⟩
        · exact fun k buf stop start => absurd (stop.symm.trans start) nofun
    | sendUdpData src buf =>
      have isData := (wf.packets first).1
      apply asked_sendUdpData (n := { n with strand }) throws
      · exact fun _ k start => absurd (isData.symm.trans start) nofun
      · exact fun _ k start => absurd (isData.symm.trans start) nofun

theorem strand_parts (parts : AllParts n m) : m.strand <:+ n.strand := by
  induction parts with
  | refl => exact List.suffix_rfl
  | tail _ part ih =>
    rcases part with part | part
    · exact (strand_part part).trans ih
    · exact (strand_udpPart part).trans ih

theorem running_of_step {a : NodeAction} (stepped : n.step a = some m) : n.crashed = false := by
  simp only [step, Option.ite_none_left_eq_some, Bool.not_eq_true] at stepped
  exact stepped.1

/-- A step from outside may complete a read, a part of a handler does not. -/
theorem parts_or_outside {a : NodeAction} (wf : WellFormed n) (stepped : n.step a = some m) :
    AllParts n m ∧ a.arrives = [] ∨ Outside n a m := by
  cases a with
  | accept | udpPacket | release | manager | tick =>
    exact (parts_step wf stepped).imp (fun parts => ⟨parts, rfl⟩) id
  | relay r ev =>
    cases stepIs_of_step stepped with
    | relay known handled => exact .inr (.relay (wf.callable_of_step known handled) handled)

theorem meant_step {a : NodeAction} (wf : WellFormed n) (live : RelaysLive n)
    (localSide : n.type ≠ .remoteServer)
    (other : ∀ {k buf}, n.strand.head? = some (.addResponse k buf) → buf.cmd ≠ .startTcp)
    (meant : Meant heard n) (stepped : n.step a = some m) : Meant (heard ++ a.arrives) m := by
  have grows : Grows n m := by
    have run : Reach step anyStep n m := Reach.refl.tail trivial stepped
    exact grows_reach wf run
  have keep {r : RelayId} {payload : List UInt8} (known : r < n.next)
      (wants : n.Wants heard r payload) : m.Wants (heard ++ a.arrives) r payload :=
    wants.keep grows.type (plan_step wf stepped known)
  have asked : ∀ q ∈ m.requests, q.buf.cmd = .startTcp →
      ∃ r, q.relay = some r ∧ r < m.next ∧ m.Wants (heard ++ a.arrives) r q.buf.payload := by
    obtain ⟨new, requests, isMeant⟩ := meant_asked wf localSide other meant stepped
    intro q there start
    rw [requests] at there
    have before := (List.mem_append.mp there).elim (meant.asked q · start) (isMeant q · start)
    obtain ⟨r, relay, known, wants⟩ := before
    exact ⟨r, relay, known.trans_le grows.next, keep known wants⟩
  have queued {r : RelayId} {buf : Frame} (there : .addRequest r buf ∈ n.strand)
      (start : buf.cmd = .startTcp) : m.Wants (heard ++ a.arrives) r buf.payload :=
    keep (wf.askers there).1 (meant.queued r buf there start)
  have greeted := meant.greeted (running_of_step stepped)
  rcases parts_or_outside wf stepped with ⟨parts, silent⟩ | outside
  · refine ⟨asked, fun r buf there start => ?_, fun _ => ?_⟩
    · exact queued ((strand_parts parts).subset there) start
    · rw [silent, List.append_nil]
      exact greeted_parts greeted parts
  · refine ⟨asked, fun r buf there start => ?_, greeted_outside live greeted outside⟩
    clear stepped
    cases outside with
    | accept | udpPacket =>
      refine queued ((List.mem_append.mp there).resolve_right fun new => ?_) start
      cases List.mem_singleton.mp new
    | release => exact queued there start
    | @relay _ ev relay outs callable handled =>
      obtain ⟨h, handle, rfl⟩ := Relay.step_eq_some.mp handled
      rcases List.mem_append.mp there with before | new
      · exact queued before start
      · obtain ⟨out, told, is⟩ := List.mem_filterMap.mp new
        cases out with
        | request sent =>
          cases is
          -- the client's request is the read that the handler took
          obtain ⟨startup, bytes, arrived, accepts, payload⟩ :=
            (Relay.handles_of_handle handle).opens told start
          have isLocal := ((live r callable.1).kindOk.localServer (by rw [startup]; decide)).2
          obtain ⟨greeting, reads⟩ := (greeted.relays r callable.1).request startup
          unfold Relay.unhandled at reads
          rw [arrived] at reads
          refine keep callable.1 (.inr ⟨?_, greeting, bytes, [], reads, accepts, payload⟩)
          exact (wf.type callable.1).symm.trans isLocal
        | response | crash => cases is

theorem meant_initLocal (type : ServerType) : Meant [] (initLocal type) where
  asked := nofun
  queued := nofun
  greeted := fun _ => ⟨fun _ _ => .first rfl (by simp [initLocal]), fun _ _ => rfl, nofun⟩

/-- The client of the raw_tcp asked for this address: it connected to it, or what it sent second
is a connect request, of command 1, with its record. -/
def AsksFor (n : Node) (heard : List (RelayId × List UInt8)) (a : RelayId)
    (target : Host × String) : Prop :=
  n.type = .localTransparent ∧
      target = ((n.objs a).tcp.localEndpoint.addr.host,
        serviceText (n.objs a).tcp.localEndpoint.port) ∨
    n.type = .localServer ∧ ∃ greeting bytes later record host port,
      readsBy heard a = greeting :: bytes :: later ∧ bytes.getD 1 0 = 1 ∧
        AddressRecord record host port ∧ record <+: bytes.drop 3 ∧ target = (host, serviceText port)

/-- What is read from the message is what the client asked for. -/
theorem Wants.asksFor {a : RelayId} {payload : List UInt8} {target : Host × String}
    (wants : n.Wants heard a payload)
    (parsed : parseAddress payload payload.length = .ok target) : n.AsksFor heard a target := by
  obtain ⟨host, service⟩ := target
  rcases wants with ⟨transparent, rfl⟩ | ⟨isLocal, greeting, bytes, later, reads, accepts, rfl⟩
  · refine .inl ⟨transparent, ?_⟩
    have read := @parseAddress_record _ [] _ _ _
      (addressRecord_parseAddr (n.objs a).tcp.localEndpoint) (Nat.le_refl _)
    rw [List.append_nil] at read
    exact Except.ok.inj (parsed.symm.trans read)
  · obtain ⟨record, port, isRecord, begins, same⟩ :=
      record_of_parseAddress (Nat.le_refl _) parsed
    rw [List.take_length] at begins
    exact .inr ⟨isLocal, greeting, bytes, later, record, host, port, reads, accepts.2.1, isRecord,
      begins, by rw [same]⟩

end Node

/-- The read of the local side that the step completes. -/
def SystemAction.arrives : SystemAction → List (RelayId × List UInt8)
  | .loc a => a.arrives
  | .rem _ _ => []

namespace System

open Node

variable {C : System → SystemAction → Prop} {y : System} {type : ServerType}
variable {heard : List (RelayId × List UInt8)}

theorem meant_reach (localSide : type ≠ .remoteServer)
    (run : Trace (Trace.Shows step C SystemAction.arrives) (init type) heard y) :
    Meant heard y.loc := by
  have starts : Starts (.initLocal type) := .localSide localSide
  refine run.fold (P := Reach step C (init type)) (R := fun heard y => Meant heard y.loc) .refl
    (fun before one => ?_) (meant_initLocal type) fun {t u _ shown} before meant one => ?_
  · obtain ⟨a, meets, stepped, _⟩ := one
    exact before.tail meets stepped
  · obtain ⟨a, _, stepped, rfl⟩ := one
    cases a with
    | loc a =>
      obtain ⟨_, n, step, rfl⟩ := step_loc stepped
      have joined := joined_reach localSide before
      have isLocal := localSide_reach localSide joined.loc
      have sound := starts.sound joined.loc
      refine meant_step sound.wf sound.live isLocal (fun {k buf} head => ?_) meant step
      -- what comes from the other end is no `START_TCP`
      obtain ⟨strand, queue⟩ := List.head?_eq_some_iff.mp head
      refine joined.hears_noStart localSide (k := k) (List.mem_append_right _ ?_)
      rw [Node.responsesOf_cons queue]
      exact List.mem_append_left _ (Option.mem_toList.mpr (if_pos rfl))
    | rem k a =>
      obtain ⟨_, n, _, rfl⟩ := step_rem stepped
      rw [show SystemAction.arrives (.rem k a) = [] from rfl, List.append_nil]
      exact meant

/-- **Where a connection goes.** In every run a raw_tcp of a remote manager connects to an address
that a client of the local side asked for, on a connection that got the session of the raw_tcp. -/
theorem destinations_meant (localSide : type ≠ .remoteServer)
    (run : Trace (Trace.Shows step C SystemAction.arrives) (init type) heard y) {k r : RelayId}
    (known : r < (y.rem k).next) (tcp : ((y.rem k).objs r).kind = .rawTcp) :
    ∃ a target, Issue.tcp ((y.rem k).objs r).session a ∈ y.loc.issued ∧
      ((y.rem k).objs r).tcp.target = some target ∧ y.loc.AsksFor heard a target := by
  have starts : Starts (.initLocal type) := .localSide localSide
  have joined := joined_reach localSide run.reach
  obtain ⟨buf, handled, start, session, target, parsed, same⟩ :=
    aimed_reach (joined.rem k) r known tcp
  -- the message was asked of the ssl relay
  have sent := (handled_down_sublist localSide run.reach k).subset handled
  obtain ⟨q, asked, sentTo⟩ := List.mem_filterMap.mp sent
  have is : q.buf = buf := by
    unfold Request.sentTo at sentTo
    split at sentTo
    · exact Option.some.inj sentTo
    · cases sentTo
  subst is
  obtain ⟨a, relay, isKnown, wants⟩ := (meant_reach localSide run).asked q asked start
  obtain ⟨_, emitted, asks⟩ := asks_of_request starts joined.loc asked relay
  have isTcp : (y.loc.objs a).kind = .rawTcp := by
    cases kind : (y.loc.objs a).kind with
    | rawTcp => rfl
    | rawUdp => cases start.symm.trans (asks.udp kind _ emitted).2
    | ssl =>
      rw [asks.ssl kind] at emitted
      cases emitted
  have issued : Issue.tcp (y.loc.objs a).session a ∈ y.loc.issued := by
    rcases (traced_reach localSide joined.loc).relays isKnown isTcp with issued | mute | welcomed
    · exact issued
    · rw [mute.emitted] at emitted
      cases emitted
    · exact absurd welcomed (joined.unwelcome localSide)
  refine ⟨a, target, ?_, same, wants.asksFor parsed⟩
  rw [← session, (asks.own _ emitted).1]
  exact issued

/-- A client of a local server asks for a web server that is blocked. -/
def asksBlocked : List SystemAction :=
  [.loc (.accept (.ipv4 127 0 0 1 1080)), .loc (.manager {}),
    .loc (.relay 1 (.arrive (.stream [5, 1, 0]))), .loc (.relay 1 (.startup true)),
    .loc (.relay 1 (.startup true)),
    .loc (.relay 1 (.arrive (.stream [5, 1, 0, 1, 8, 8, 8, 8, 0, 80]))),
    .loc (.relay 1 (.request true)), .loc (.manager {})] ++ connectSsl 2 1 ++ carry 2 (opening 1)

theorem destinations_meant_blocked : ∃ y heard,
    Trace (Trace.Shows step anyStep SystemAction.arrives) (init .localServer) heard y ∧
    ((y.rem 2).objs 1).kind = .rawTcp ∧ ((y.rem 2).objs 1).startup = .resolve ∧
    ∃ a target, Issue.tcp ((y.rem 2).objs 1).session a ∈ y.loc.issued ∧
      ((y.rem 2).objs 1).tcp.target = some target ∧ y.loc.AsksFor heard a target := by
  have run := @Trace.of_isSome _ _ (init .localServer) _ step anyStep _ SystemAction.arrives
    asksBlocked (by decide +kernel)
  have localSide : ServerType.localServer ≠ .remoteServer := by decide
  exact ⟨_, _, run, by decide +kernel, by decide +kernel,
    destinations_meant localSide run (by decide +kernel) (by decide +kernel)⟩

end System

end SslSocks
