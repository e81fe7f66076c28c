import SslSocks.NodeRoutes
import SslSocks.RemoteKinds
import SslSocks.SessionWrap
import SslSocks.StartFirst
import SslSocks.UdpRoundTrip

/-!
# The sessions of a local manager

A session is in use by a UDP source that has it (`HasSource`) or by a connection that got it
and may still ask for something (`HasConnection`). `owns_step` and `asked_step` say that a
step of the local manager brings a session into use only by handing it out, and asks the other
end under sessions in use only.
-/

namespace SslSocks

open Lib

namespace Relay

variable {r r' : Relay} {alive : Bool} {ev : RelayEvent} {outs : List RelayOut}

/-! ## A relay that asks for nothing more -/

/-- The relay was started, or gave up before that. -/
def Used (r : Relay) : Prop :=
  .startInit ∈ r.inbox ∨ r.state ≠ .uninit ∨ ∃ buf ∈ r.log.emitted, buf.cmd = .stopTcp

/-- The relay was used, and neither its start-up nor its read loop runs. -/
structure Ended (r : Relay) : Prop where
  startup : r.startup = .idle
  reading : r.reading = false
  used : Used r

theorem Used.keep (used : Used r) (inbox : .startInit ∈ r.inbox → .startInit ∈ r'.inbox)
    (state : r.state ≠ .uninit → r'.state ≠ .uninit)
    (emitted : r.log.emitted <+: r'.log.emitted) : Used r' := by
  refine used.imp inbox (.imp state fun told => ?_)
  obtain ⟨buf, there, stop⟩ := told
  exact ⟨buf, emitted.subset there, stop⟩

theorem Used.stopHere (used : Used r) : Used r.stopHere := by
  refine used.keep (fun there => ?_) (fun state => ?_) ?_
  · rwa [(keepsStartup_stopHere r).inbox]
  · rcases stopHere_cases r with ⟨_, same⟩ | ⟨_, ⟨_, same⟩ | ⟨bound, same⟩⟩ <;> rw [same]
    · exact state
    · exact state
    · intro uninit
      cases uninit
  · rw [(sameReads_stopHere r).emitted]

theorem Used.fresh (used : Used r) (state : r.state = .uninit) (inbox : r.inbox = [])
    (emitted : ∀ buf ∈ r.log.emitted, buf.cmd ≠ .stopTcp) : False := by
  rcases used with posted | other | ⟨buf, there, stop⟩
  · rw [inbox] at posted
    cases posted
  · exact other state
  · exact emitted buf there stop

theorem Used.born (used : Used r) : ¬ r.Born := fun born => by
  refine used.fresh born.state born.inbox fun buf there => ?_
  rw [born.log] at there
  cases there

theorem Used.opened (used : Used r) : ¬ r.Opened := fun opened => by
  obtain ⟨born, payload, log⟩ := opened
  refine used.fresh born.state born.inbox fun buf there => ?_
  rw [log] at there
  rw [List.mem_singleton.mp there]
  intro same
  cases same

/-- A proper call starts nothing in a relay that was used. -/
theorem Ended.call (ended : Ended r) {c : RelayCall} (proper : r.Proper (.call c)) :
    Ended (r.call c) := by
  obtain ⟨startup, reading, used⟩ := ended
  have called := calls_call r c
  generalize r.call c = r' at called
  cases called with
  | begin => exact absurd proper.2 used.born
  | startRead => exact absurd proper.2.2 used.opened
  | startUdpRemote | startUdpLocal => exact absurd proper.2 used.born
  | emit => exact ⟨startup, reading, used.keep id id (List.prefix_append _ _)⟩
  | stopSsl | count => exact ⟨startup, reading, used⟩
  | _ =>
    exact ⟨startup, reading, used.keep (List.mem_append_left _) id List.prefix_rfl⟩

/-- Nor does a handler, and it asks for no connection and passes on no data. -/
theorem Handles.ended (handled : Handles alive r ev r' outs) (ended : Ended r) :
    Ended r' ∧ ∀ buf, .request buf ∈ outs → ¬ buf.For .rawTcp := by
  obtain ⟨startup, reading, used⟩ := ended
  have popped {task : RelayTask} {inbox : List RelayTask} (queue : r.inbox = task :: inbox)
      (other : .startInit ≠ task) (there : .startInit ∈ r.inbox) : .startInit ∈ inbox := by
    rw [queue] at there
    exact (List.mem_cons.mp there).resolve_left other
  have told (buf : Frame) (asked : .request buf ∈ r.farewell alive) : ¬ buf.For .rawTcp := by
    intro isFor
    rcases isFor with start | isData
    · cases (farewell_stopTcp asked).symm.trans start
    · cases (farewell_stopTcp asked).symm.trans isData
  have quiet (buf : Frame) (asked : .request buf ∈ ([] : List RelayOut)) : ¬ buf.For .rawTcp :=
    absurd asked List.not_mem_nil
  have reads (is : r.reading = true) : False := by
    rw [reading] at is
    cases is
  have starts {step : Startup} (is : r.startup = step) (other : step ≠ .idle) : False :=
    other (is.symm.trans startup)
  have stops {a : Relay} (isIdle : a.startup = .idle) (isOver : a.reading = false) (isUsed : Used a) :
      Ended a.stopHere := by
    have same := sameReads_stopHere a
    exact ⟨same.startup.trans isIdle, same.reading.trans isOver, isUsed.stopHere⟩
  have loops {a : Relay} (loop : SendLoop a r') (isIdle : a.startup = .idle)
      (isOver : a.reading = false) (isUsed : Used a) : Ended r' := by
    cases loop with
    | empty =>
      refine ⟨isIdle, isOver, isUsed.keep id (fun _ uninit => ?_) List.prefix_rfl⟩
      cases uninit
    | threw => exact stops isIdle isOver isUsed
    | _ => exact ⟨isIdle, isOver, isUsed⟩
  cases handled with
  | dropped queue | pushed queue | addPeer queue | delPeer queue =>
    refine ⟨⟨startup, reading, used.keep (popped queue ?_) id List.prefix_rfl⟩, quiet⟩
    intro same
    cases same
  | @stopTask inbox queue =>
    have used : Used { r with inbox } := by
      refine used.keep (popped queue ?_) id List.prefix_rfl
      intro same
      cases same
    refine ⟨?_, quiet⟩
    rcases stopTask_cases { r with inbox } with ⟨_, same⟩ | ⟨bound, same⟩ <;> rw [same]
    · exact ⟨startup, reading, used⟩
    · refine ⟨startup, reading, used.keep id (fun _ uninit => ?_) List.prefix_rfl⟩
      cases uninit
  | startInit | sslStop =>
    refine ⟨⟨startup, reading, .inr (.inl ?_)⟩, quiet⟩
    intro uninit
    cases uninit
  | startSend _ going loop =>
    refine ⟨loops loop startup reading (.inr (.inl ?_)), quiet⟩
    intro uninit
    cases uninit
  | sent _ loop => exact ⟨loops loop startup reading used, quiet⟩
  | sendError => exact ⟨stops startup reading used, quiet⟩
  | readRaw _ is | readRawDead _ is | readMore _ is | readMessage _ is | readMessageDead _ is
  | readThrew _ is | readOverrun _ is | readDatagram _ is | readDatagramDead _ is
  | readError is => exact (reads is).elim
  | greeting is | greetingReply is | directResolve is | directConnect is | okReply is
  | resolve is | connectSsl is | connectRaw is | handshake is | requestBad is
  | requestBlocked is | requestDead is | requestDirect is =>
    refine (starts is ?_).elim
    intro same
    cases same
  | startupThrew is => exact absurd startup is
  | directFailed => exact ⟨stops startup reading used, told⟩
  | _ => exact ⟨⟨startup, reading, used⟩, quiet⟩

theorem Ended.becomes (ended : Ended r) (run : Reach act Proper r r') : Ended r' := by
  refine run.invariant ended fun {t a t'} _ ended proper stepped => ?_
  cases a with
  | call c =>
    cases stepped
    exact ended.call proper
  | event alive ev =>
    obtain ⟨h, outs, handled, rfl⟩ := act_event.mp stepped
    obtain ⟨startup, reading, used⟩ := ((handles_of_handle handled).ended ended).1
    exact ⟨startup, reading, used.keep id id (List.prefix_append _ _)⟩

/-! ## The messages on their way through an ssl relay -/

/-- The messages that were given to the relay and not dropped, but for the first `done` of
those that were pushed. -/
def ahead (r : Relay) (done : Nat) : List Frame := r.log.accepted.drop done ++ r.posted

/-- What is on its way was, or is given now. -/
structure Feeds (r r' : Relay) : Prop where
  given : r.log.given <+: r'.log.given
  ahead : ∀ {done buf}, buf ∈ r'.ahead done →
    buf ∈ r.ahead done ∨ buf ∈ r'.log.given.drop r.log.given.length

theorem Feeds.of_same (given : r'.log.given = r.log.given)
    (accepted : r'.log.accepted = r.log.accepted)
    (posted : ∀ buf ∈ r'.posted, buf ∈ r.posted) : Feeds r r' := by
  refine ⟨given ▸ List.prefix_rfl, fun {done buf} there => .inl ?_⟩
  unfold Relay.ahead at there ⊢
  rw [accepted] at there
  exact List.mem_append.mpr ((List.mem_append.mp there).imp id (posted buf))

theorem Feeds.trans {r'' : Relay} (first : Feeds r r') (second : Feeds r' r'') : Feeds r r'' := by
  refine ⟨first.given.trans second.given, fun {done buf} there => ?_⟩
  rcases second.ahead there with old | new
  · refine (first.ahead old).imp id fun given => ?_
    exact (second.given.drop _).subset given
  · exact .inr ((List.drop_sublist_drop_left _ first.given.length_le).subset new)

theorem feeds_call (r : Relay) (c : RelayCall) : Feeds r (r.call c) := by
  have called := calls_call r c
  generalize r.call c = r' at called
  have posted {task : RelayTask} (other : task.message = none) (buf : Frame)
      (there : buf ∈ (r.inbox ++ [task]).filterMap RelayTask.message) : buf ∈ r.posted := by
    rw [List.filterMap_append, List.filterMap_cons_none other, List.filterMap_nil,
      List.append_nil] at there
    exact there
  cases called with
  | @sendData sent =>
    refine ⟨List.prefix_append _ _, fun {done buf} there => ?_⟩
    replace there : buf ∈ r.log.accepted.drop done ++
        (r.inbox ++ [RelayTask.sendData sent]).filterMap RelayTask.message := there
    rw [List.filterMap_append, ← List.append_assoc] at there
    refine (List.mem_append.mp there).imp id fun new => ?_
    show buf ∈ (r.log.given ++ [sent]).drop r.log.given.length
    rw [List.drop_left]
    exact new
  | stopRaw | startRead | startUdpRemote | startUdpLocal | addPeer | delPeer =>
    exact .of_same rfl rfl (posted rfl)
  | _ => exact .of_same rfl rfl fun _ there => there

theorem Handles.feeds (handled : Handles alive r ev r' outs) : Feeds r r' := by
  have given := handled.sameCalls.given
  have popped {task : RelayTask} {inbox : List RelayTask} (queue : r.inbox = task :: inbox)
      (buf : Frame) (there : buf ∈ inbox.filterMap RelayTask.message) : buf ∈ r.posted := by
    rw [posted_cons queue]
    exact List.mem_append_right _ there
  have stops {a : Relay} (inbox : a.inbox = r.inbox) (accepted : a.log.accepted = r.log.accepted)
      (given : a.stopHere.log.given = r.log.given) : Feeds r a.stopHere := by
    refine .of_same given ((sameQueue_stopHere a).accepted.trans accepted) fun buf there => ?_
    unfold posted at there ⊢
    rwa [(keepsStartup_stopHere a).inbox, inbox] at there
  cases handled with
  | dropped queue | startInit queue | addPeer queue | delPeer queue =>
    exact .of_same rfl rfl (popped queue)
  | @pushed sent inbox queue _ =>
    refine ⟨List.prefix_rfl, fun {done buf} there => .inl ?_⟩
    replace there : buf ∈ (r.log.accepted ++ [sent]).drop done ++
        inbox.filterMap RelayTask.message := there
    unfold Relay.ahead
    rw [posted_cons queue]
    rw [List.drop_append, List.append_assoc] at there
    refine List.mem_append.mpr ((List.mem_append.mp there).imp id fun late => ?_)
    refine List.mem_append.mpr ((List.mem_append.mp late).imp (fun new => ?_) id)
    exact List.mem_of_mem_drop new
  | @stopTask inbox queue =>
    rcases stopTask_cases { r with inbox } with ⟨_, same⟩ | ⟨bound, same⟩ <;> rw [same] <;>
      exact .of_same rfl rfl (popped queue)
  | startSend _ _ loop | sent _ loop =>
    refine .of_same given loop.accepted fun buf there => ?_
    unfold posted at there ⊢
    rwa [loop.keepsStartup.inbox] at there
  | sendError | readThrew | readError | startupThrew | requestBad | directFailed =>
    exact stops rfl rfl given
  | _ => exact .of_same rfl rfl fun _ there => there

end Relay

/-- The kind of the relay that the other end makes for the id. -/
def Issue.kind : Issue → RelayKind
  | .tcp _ _ => .rawTcp
  | .udp _ _ => .rawUdp

namespace Node

/-- A source has this session. -/
def HasSource (n : Node) (s : UInt32) : Prop :=
  s ≠ 0 ∧ ∃ src entry, n.srcs.lookup src = some entry ∧ entry.session = s

/-- A connection got this session, and may ask for something or has asked for it. -/
def HasConnection (n : Node) (s : UInt32) : Prop :=
  ∃ r, Issue.tcp s r ∈ n.issued ∧
    (¬ (n.objs r).Ended ∨ ∃ buf ∈ n.queuedBy r, buf.For .rawTcp)

/-- The session is in use on the local side. -/
def Owns (n : Node) : RelayKind → UInt32 → Prop
  | .rawTcp, s => n.HasConnection s
  | .rawUdp, s => n.HasSource s
  | .ssl, _ => False

/-- The step hands out the session. -/
def Draws (n : Node) (a : NodeAction) (kind : RelayKind) (s : UInt32) : Prop :=
  ∃ issue, n.draws a = some issue ∧ issue.kind = kind ∧ issue.session = s

variable {n m : Node}

/-! ## The sources -/

theorem HasSource.of_srcs (same : m.srcs = n.srcs) {s : UInt32} (has : m.HasSource s) :
    n.HasSource s := by
  unfold HasSource at has ⊢
  rw [same] at has
  exact has

theorem hasSource_insert {src : Endpoint} {entry : UdpTimeout} {s : UInt32}
    (has : Node.HasSource { n with srcs := n.srcs.insert src entry } s) :
    n.HasSource s ∨ s ≠ 0 ∧ entry.session = s := by
  obtain ⟨nonzero, e, found, there, same⟩ := has
  replace there : (n.srcs.insert src entry).lookup e = some found := there
  rw [Map.lookup_insert] at there
  split at there
  · cases there
    exact .inr ⟨nonzero, same⟩
  · exact .inl ⟨nonzero, e, found, there, same⟩

theorem hasSource_source {src : Endpoint} (nonzero : (n.source src).session ≠ 0) :
    n.HasSource (n.source src).session := by
  unfold source at nonzero ⊢
  cases found : n.srcs.lookup src with
  | none =>
    rw [found] at nonzero
    exact absurd rfl nonzero
  | some entry =>
    rw [found] at nonzero
    exact ⟨nonzero, src, entry, found, rfl⟩

/-- A source keeps its session when its time is set. -/
theorem hasSource_setTimeout {src : Endpoint} {timeout : Nat} {s : UInt32}
    (has : Node.HasSource
      { n with srcs := n.srcs.insert src { n.source src with timeout := timeout } } s) :
    n.HasSource s := by
  rcases hasSource_insert has with old | ⟨nonzero, same⟩
  · exact old
  · rw [← same] at nonzero ⊢
    exact hasSource_source nonzero

theorem hasSource_forwardUdp (throws : Throws) (src : Endpoint) (buf : Frame) :
    (n.forwardUdp throws src buf).Both fun m => ∀ s, m.HasSource s → n.HasSource s := by
  have quiet := quiet_addRequest
    { n with srcs := n.srcs.insert src { n.source src with timeout := timeoutTicks } }
    throws.newSsl none { buf with session := (n.source src).session }
  exact quiet.mono fun m quiet s has => hasSource_setTimeout (has.of_srcs quiet.srcs)

theorem hasSource_sendUdpData (throws : Throws) (src : Endpoint) (buf : Frame) :
    (n.sendUdpData throws src buf).Both fun m => ∀ s, m.HasSource s →
      n.HasSource s ∨ (n.source src).session = 0 ∧ s = n.session + 1 := by
  unfold sendUdpData
  split
  · rename_i first
    have kept {m : Node} (srcs : m.srcs = (n.assignSession src (n.source src)).srcs) (s : UInt32)
        (has : m.HasSource s) : n.HasSource s ∨ (n.source src).session = 0 ∧ s = n.session + 1 := by
      have assigned : (n.assignSession src (n.source src)).HasSource s := has.of_srcs srcs
      exact (hasSource_insert assigned).imp id fun ⟨_, same⟩ => ⟨first, same.symm⟩
    have restarted := quiet_restartUdp (n.assignSession src (n.source src)) throws
    unfold newSource
    cases ended : (n.assignSession src (n.source src)).restartUdp throws with
    | error m =>
      rw [ended] at restarted
      exact kept restarted.srcs
    | ok m =>
      rw [ended] at restarted
      have called := quiet_callUdpSend m (.addPeer (n.session + 1) src)
      refine (hasSource_forwardUdp throws src buf).mono fun k sources s has => ?_
      exact kept (called.srcs.trans restarted.srcs) s (sources s has)
  · exact (hasSource_forwardUdp throws src buf).mono fun m sources s has => .inl (sources s has)

theorem hasSource_touchSource {session s : UInt32} (has : (n.touchSource session).HasSource s) :
    n.HasSource s := by
  have kept : Node.HasSource { n with
      srcs := n.srcs.insert ((n.udpSrcs.lookup session).getD default)
        { n.source ((n.udpSrcs.lookup session).getD default) with timeout := timeoutTicks } } s :=
    has
  exact hasSource_setTimeout kept

theorem hasSource_addResponse (throws : Throws) (relay : RelayId) (buf : Frame) :
    (n.addResponse throws relay buf).Both fun m => ∀ s, m.HasSource s → n.HasSource s := by
  unfold addResponse
  simp only
  split
  · exact (quiet_responseDataTcp _ throws buf).mono fun m quiet s has => has.of_srcs quiet.srcs
  · split
    · refine (quiet_localTransparentSendUdp _ throws buf).andThen_of
        (fun m quiet s has => has.of_srcs quiet.srcs) fun m quiet s has => ?_
      exact (hasSource_touchSource has).of_srcs quiet.srcs
    · exact (sameTables_remoteServerSendUdp _ throws buf).mono fun m same s has =>
        has.of_srcs same.srcs
    · exact fun s has => has
  · exact (sameTables_remoteServerStartTcp _ throws buf).mono fun m same s has =>
      has.of_srcs same.srcs
  · exact fun s has => has.of_srcs (quiet_responseStopTcp _ buf).srcs
  · exact fun s has => has

theorem hasSource_addLocalRawTcp (throws : Throws) (r : RelayId) :
    (n.addLocalRawTcp throws r).Both fun m => ∀ s, m.HasSource s → n.HasSource s := by
  unfold addLocalRawTcp
  simp only
  split
  · exact fun s has => has
  · exact (quiet_startRawTcp _ throws r _).mono fun m quiet s has => has.of_srcs quiet.srcs

theorem hasSource_tick {s : UInt32} : n.tick.HasSource s → n.HasSource s := by
  refine tick_rule (P := fun m : Node => m.HasSource s → n.HasSource s) (fun has => ?_)
    (fun {m} sub _ _ has => ?_) (fun {m} _ has => ?_) (fun {m src entry} sub found has => ?_)
    (fun {m session r} sub _ has => ?_) fun sub _ => sub
  · exact has.of_srcs (quiet_sslTimeout n).srcs
  · have has : m.stopManager.HasSource s := has
    exact sub (has.of_srcs (quiet_stopManager m).srcs)
  · obtain ⟨_, src, entry, found, _⟩ := has
    unfold clearSources at found
    rw [(quiet_callUdpSend _ _).srcs] at found
    cases found
  · unfold visitSource at has
    split at has
    · have erased := has.of_srcs (quiet_callUdpSend _ _).srcs
      obtain ⟨nonzero, e, old, there, same⟩ := erased
      exact sub ⟨nonzero, e, old, (Map.of_lookup_erase there).2, same⟩
    · rcases hasSource_insert has with old | ⟨nonzero, same⟩
      · exact sub old
      · exact sub ⟨nonzero, src, entry, found, same⟩
  · exact sub (has.of_srcs (quiet_visitRelay m session r).srcs)

theorem hasSource_step {a : NodeAction} (stepped : n.step a = some m) {s : UInt32}
    (has : m.HasSource s) : n.HasSource s ∨ n.Draws a .rawUdp s := by
  cases stepIs_of_step stepped with
  | accept _ | udpPacket _ | release _ | relay _ _ => exact .inl has
  | tick _ => exact .inl (hasSource_tick has)
  | @manager throws task strand queue =>
    have head : n.strand.head? = some task := by
      rw [queue]
      rfl
    unfold Draws draws
    simp only [head]
    cases task with
    | addRequest relay buf =>
      exact .inl (has.of_srcs
        (quiet_addRequest { n with strand } throws.newSsl (some relay) buf).srcs)
    | addResponse relay buf =>
      exact .inl (@hasSource_addResponse { n with strand } throws relay buf s has)
    | addLocalRawTcp relay =>
      exact .inl (@hasSource_addLocalRawTcp { n with strand } throws relay s has)
    | sendUdpData src buf =>
      refine (@hasSource_sendUdpData { n with strand } throws src buf s has).imp id fun new => ?_
      obtain ⟨first, rfl⟩ := new
      exact ⟨.udp (n.session + 1) src, if_pos first, rfl, rfl⟩

/-! ## The connections -/

/-- A relay that got its session was made, and does not wait for it. -/
def Begun (n : Node) : Prop :=
  ∀ s r, Issue.tcp s r ∈ n.issued → r < n.next ∧ .addLocalRawTcp r ∉ n.strand

theorem Begun.keep (begun : Begun n) (next : n.next ≤ m.next) (issued : m.issued = n.issued)
    (strand : m.strand <:+ n.strand) : Begun m := by
  intro s r there
  rw [issued] at there
  obtain ⟨known, waits⟩ := begun s r there
  exact ⟨known.trans_le next, fun waiting => waits (strand.subset waiting)⟩

theorem begun_part (wf : WellFormed n) (begun : Begun n) (part : Part n m) : Begun m := by
  have grows := grows_part part
  have strand := strand_part part
  have asked {relay : Option RelayId} {buf : Frame} {k : Node}
      (requested : Requested relay buf k m) (issued : k.issued = n.issued) : Begun m := by
    refine begun.keep grows.next ?_ strand
    cases requested <;> exact issued
  cases part with
  | requested _ requested | emit _ _ _ requested => exact asked requested rfl
  | own _ _ requested => exact asked requested rfl
  | @begin a rest queue _ =>
    intro s r there
    rcases List.mem_append.mp there with old | new
    · obtain ⟨known, waits⟩ := begun s r old
      exact ⟨known, fun waiting => waits (strand.subset waiting)⟩
    · cases List.mem_singleton.mp new
      refine ⟨(wf.pending (queue ▸ List.mem_cons_self)).1, fun waiting => ?_⟩
      replace waiting : .addLocalRawTcp a ∈ rest := waiting
      have once := wf.once a
      rw [queue, List.count_cons_self] at once
      have twice := List.count_pos_iff.mpr waiting
      omega
  | _ => exact begun.keep grows.next rfl strand

theorem begun_udpPart (begun : Begun n) (part : UdpPart n m) : Begun m := by
  have grows := grows_udpPart part
  have strand := strand_udpPart part
  cases part with
  | assign =>
    intro s r there
    rcases List.mem_append.mp there with old | new
    · exact begun s r old
    · cases List.mem_singleton.mp new
  | _ => exact begun.keep grows.next rfl strand

theorem begun_outside {a : NodeAction} (begun : Begun n) (outside : Outside n a m) : Begun m := by
  have more {tasks : List ManagerTask} (next : n.next ≤ m.next) (issued : m.issued = n.issued)
      (strand : m.strand = n.strand ++ tasks)
      (others : ∀ r, r < n.next → .addLocalRawTcp r ∉ tasks) : Begun m := by
    intro s r there
    rw [issued] at there
    obtain ⟨known, waits⟩ := begun s r there
    refine ⟨known.trans_le next, fun waiting => ?_⟩
    rw [strand] at waiting
    exact (List.mem_append.mp waiting).elim waits (others r known)
  have grows := grows_outside outside
  cases outside with
  | accept =>
    refine more grows.next rfl rfl fun r known waiting => ?_
    cases List.mem_singleton.mp waiting
    exact Nat.lt_irrefl _ known
  | udpPacket =>
    refine more grows.next rfl rfl fun r known waiting => ?_
    cases List.mem_singleton.mp waiting
  | release => exact begun
  | relay =>
    refine more grows.next rfl rfl fun r known waiting => ?_
    obtain ⟨out, _, is⟩ := List.mem_filterMap.mp waiting
    cases out <;> cases is

theorem begun_reach {C : Node → NodeAction → Prop} {type : ServerType}
    (run : Reach step C (initLocal type) n) : Begun n := by
  refine parts_rule (wellFormed_initLocal type) run (fun s r there => ?_)
    (fun wf begun part => begun_part wf begun part) (fun _ begun part => begun_udpPart begun part)
    fun _ begun _ outside => begun_outside begun outside
  cases there

theorem becomes_parts (parts : AllParts n m) {r : RelayId} (known : r < n.next)
    (waits : .addLocalRawTcp r ∉ n.strand) : Becomes n m r ∧ m.strand <:+ n.strand := by
  suffices all : Becomes n m r ∧ m.strand <:+ n.strand ∧ n.next ≤ m.next from ⟨all.1, all.2.1⟩
  induction parts with
  | refl => exact ⟨.refl, List.suffix_rfl, Nat.le_refl _⟩
  | tail _ part ih =>
    obtain ⟨becomes, strand, next⟩ := ih
    rcases part with part | part
    · refine ⟨becomes.trans (becomes_part part (known.trans_le next) fun waiting => ?_),
        (strand_part part).trans strand, next.trans (grows_part part).next⟩
      exact waits (strand.subset waiting)
    · exact ⟨becomes.trans (becomes_udpPart part (known.trans_le next)),
        (strand_udpPart part).trans strand, next.trans (grows_udpPart part).next⟩

/-- A relay that has its session comes to ask for nothing that it could not ask for. -/
theorem mayAsk_step {a : NodeAction} (wf : WellFormed n) (stepped : n.step a = some m)
    {r : RelayId} (known : r < n.next) (waits : .addLocalRawTcp r ∉ n.strand)
    (may : ¬ (m.objs r).Ended ∨ ∃ buf ∈ m.queuedBy r, buf.For .rawTcp) :
    ¬ (n.objs r).Ended ∨ ∃ buf ∈ n.queuedBy r, buf.For .rawTcp := by
  have more {tasks : List ManagerTask} (objs : m.objs r = n.objs r)
      (strand : m.strand = n.strand ++ tasks)
      (others : tasks.filterMap (ManagerTask.requestOf r) = []) :
      ¬ (n.objs r).Ended ∨ ∃ buf ∈ n.queuedBy r, buf.For .rawTcp := by
    unfold queuedBy at may ⊢
    rwa [objs, strand, List.filterMap_append, others, List.append_nil] at may
  rcases parts_step wf stepped with parts | outside
  · obtain ⟨becomes, strand⟩ := becomes_parts parts known waits
    refine may.imp (mt fun ended => ended.becomes becomes) fun queued => ?_
    obtain ⟨buf, there, isFor⟩ := queued
    exact ⟨buf, (strand.sublist.filterMap _).subset there, isFor⟩
  · clear stepped
    cases outside with
    | accept => exact more (objs_make_of_lt _ known) rfl rfl
    | udpPacket => exact more rfl rfl rfl
    | release => exact may
    | @relay b ev relay outs callable handled =>
      obtain ⟨h, handle, rfl⟩ := Relay.step_eq_some.mp handled
      have handles := Relay.handles_of_handle handle
      by_cases same : r = b
      · subst same
        by_cases ended : (n.objs r).Ended
        · obtain ⟨stays, silent⟩ := handles.ended ended
          rcases may with running | ⟨buf, there, isFor⟩
          · refine absurd ?_ running
            show ((Function.update n.objs r (h.note outs)) r).Ended
            rw [Function.update_self]
            exact ⟨stays.startup, stays.reading, stays.used.keep id id (List.prefix_append _ _)⟩
          · refine .inr ⟨buf, ?_, isFor⟩
            replace there : buf ∈ (n.strand ++ outs.filterMap (asked r)).filterMap
                (ManagerTask.requestOf r) := there
            rw [List.filterMap_append] at there
            refine (List.mem_append.mp there).resolve_right fun new => ?_
            obtain ⟨task, isAsked, is⟩ := List.mem_filterMap.mp new
            obtain ⟨out, told, isTask⟩ := List.mem_filterMap.mp isAsked
            cases out with
            | request sent =>
              cases isTask
              cases (if_pos rfl).symm.trans is
              exact silent buf told isFor
            | response | crash => cases isTask <;> cases is
        · exact .inl ended
      · refine more (Function.update_of_ne same _ _) rfl ?_
        refine List.filterMap_eq_nil_iff.mpr fun task there => ?_
        obtain ⟨out, _, isTask⟩ := List.mem_filterMap.mp there
        cases out with
        | request sent =>
          cases isTask
          exact if_neg (Ne.symm same)
        | response | crash =>
          cases isTask <;> rfl

theorem hasConnection_step {a : NodeAction} (wf : WellFormed n) (begun : Begun n)
    (stepped : n.step a = some m) {s : UInt32} (has : m.HasConnection s) :
    n.HasConnection s ∨ n.Draws a .rawTcp s := by
  obtain ⟨r, issued, may⟩ := has
  rw [(counts_step stepped).issued] at issued
  rcases List.mem_append.mp issued with old | new
  · obtain ⟨known, waits⟩ := begun s r old
    exact .inl ⟨r, old, mayAsk_step wf stepped known waits may⟩
  · exact .inr ⟨.tcp s r, Option.mem_toList.mp new, rfl, rfl⟩

/-- **A session comes into use** when it is handed out. -/
theorem owns_step {a : NodeAction} (wf : WellFormed n) (begun : Begun n)
    (stepped : n.step a = some m) {kind : RelayKind} {s : UInt32} (owns : m.Owns kind s) :
    n.Owns kind s ∨ n.Draws a kind s := by
  cases kind with
  | rawTcp => exact hasConnection_step wf begun stepped owns
  | rawUdp => exact hasSource_step stepped owns
  | ssl => exact owns.elim

/-! ## What a step asks -/

/-- The requests that were added satisfy the predicate. -/
def Asked (P : Request → Prop) (n m : Node) : Prop :=
  ∃ asked, m.requests = n.requests ++ asked ∧ ∀ q ∈ asked, P q

section Asked

variable {P : Request → Prop}

theorem Asked.of_eq (same : m.requests = n.requests) : Asked P n m :=
  ⟨[], same.trans (List.append_nil _).symm, fun _ there => absurd there List.not_mem_nil⟩

theorem Asked.trans {k : Node} (first : Asked P n m) (second : Asked P m k) : Asked P n k := by
  obtain ⟨new, isNew, all⟩ := first
  obtain ⟨newer, isNewer, all'⟩ := second
  refine ⟨new ++ newer, ?_, fun q there => ?_⟩
  · rw [isNewer, isNew, List.append_assoc]
  · rcases List.mem_append.mp there with old | late
    · exact all q old
    · exact all' q late

theorem asked_addRequest (n : Node) (throws : Bool) {relay : Option RelayId} {buf : Frame}
    (holds : ∀ k, P ⟨k, relay, buf⟩) : (n.addRequest throws relay buf).Both (Asked P n) := by
  refine (requests_addRequest n throws relay buf).mono fun m asked => ?_
  obtain ⟨k, requests⟩ := asked
  refine ⟨_, requests, fun q there => ?_⟩
  rw [List.mem_singleton.mp there]
  exact holds k

theorem asked_relayRequest (n : Node) (throws : Bool) {r : RelayId} {buf : Frame}
    (holds : ∀ k, P ⟨k, some r, buf⟩) : (n.relayRequest throws r buf).Both (Asked P n) :=
  (asked_addRequest (n.call r (.emit buf)) throws holds).mono fun _ asked => asked

/-- What a raw_tcp that starts asks for in the strand: a transparent one its connection, to the
address that the client meant, and otherwise only to be stopped. -/
theorem asked_opening (n : Node) (throws : Throws) {r : RelayId} {session : UInt32}
    (start : n.type = .localTransparent → ∀ k,
      P ⟨k, some r, ⟨session, .startTcp, parseAddr (n.objs r).tcp.localEndpoint⟩⟩)
    (stop : ∀ k buf, buf.cmd = .stopTcp → P ⟨k, some r, buf⟩) :
    (n.startRawTcp throws r session).Both (Asked P n) := by
  have begins : (n.call r (.begin session)).objs r = (n.objs r).begin session := by
    rw [objs_call, if_pos rfl]
    rfl
  have tried (transparent : n.type = .localTransparent) :
      ((n.call r (.begin session)).tryStartTransparent throws r).Both (Asked P n) := by
    unfold tryStartTransparent
    split
    · exact Asked.of_eq rfl
    · rw [begins]
      have asked := asked_relayRequest (n.call r (.begin session)) throws.newSsl
        (start transparent)
      exact asked.andThen fun m asked => asked
  unfold startRawTcp
  simp only
  split
  · rename_i transparent
    have tried := tried transparent
    unfold implStartTransparent
    cases ended : (n.call r (.begin session)).tryStartTransparent throws r with
    | ok m =>
      rw [ended] at tried
      exact tried
    | error m =>
      rw [ended] at tried
      have second := @asked_relayRequest P m throws.newSslAgain r _
        fun k => stop k ⟨(m.objs r).session, .stopTcp, []⟩ rfl
      have both := second.mono fun k asked => Asked.trans tried asked
      exact both.andThen fun k asked => asked
  · exact Asked.of_eq rfl

/-- A connection is asked for under its session, and otherwise only to be stopped. -/
theorem asked_startRawTcp (n : Node) (throws : Throws) {r : RelayId} {session : UInt32}
    (start : ∀ k buf, buf.session = session → buf.cmd = .startTcp → P ⟨k, some r, buf⟩)
    (stop : ∀ k buf, buf.cmd = .stopTcp → P ⟨k, some r, buf⟩) :
    (n.startRawTcp throws r session).Both (Asked P n) :=
  asked_opening n throws (fun _ k => start k _ rfl rfl) stop

theorem asked_addLocalRawTcp (throws : Throws) {r : RelayId}
    (start : n.session ∉ n.relays → ∀ k buf, buf.session = n.session → buf.cmd = .startTcp →
      P ⟨k, some r, buf⟩)
    (stop : ∀ k buf, buf.cmd = .stopTcp → P ⟨k, some r, buf⟩) :
    (n.addLocalRawTcp throws r).Both (Asked P n) := by
  unfold addLocalRawTcp
  simp only
  split
  · exact Asked.of_eq rfl
  · rename_i free
    exact (asked_startRawTcp _ throws (start free) stop).mono fun m asked => asked

/-- What came from the other end, other than a connection. -/
theorem asked_addResponse (localSide : n.type ≠ .remoteServer) (throws : Throws)
    {relay : RelayId} {buf : Frame} (other : buf.cmd ≠ .startTcp)
    (stop : ∀ k buf, buf.cmd = .stopTcp → P ⟨k, none, buf⟩) :
    (n.addResponse throws relay buf).Both (Asked P n) := by
  have noted : Asked P n { n with answered := n.answered ++ [(relay, buf)] } := .of_eq rfl
  unfold addResponse
  simp only
  split
  · unfold responseDataTcp
    split
    · exact noted
    · exact noted
    · split
      · refine (asked_addRequest _ throws.newSsl fun k => ?_).mono fun m asked => asked
        exact stop k _ rfl
      · exact noted
  · split
    · have asked := requests_localTransparentSendUdp
        { n with answered := n.answered ++ [(relay, buf)] } throws buf
      exact (asked.mono fun _ same => Asked.of_eq same).andThen fun _ asked => asked
    · rename_i remote
      exact absurd remote localSide
    · exact noted
  · rename_i start
    exact absurd start other
  · refine Asked.of_eq ?_
    show (responseStopTcp _ buf).requests = n.requests
    unfold responseStopTcp
    split <;> rfl
  · exact noted

theorem asked_forwardUdp (throws : Throws) {src : Endpoint} {buf : Frame}
    (holds : ∀ k, P ⟨k, none, { buf with session := (n.source src).session }⟩) :
    (n.forwardUdp throws src buf).Both (Asked P n) :=
  (asked_addRequest { n with srcs := n.srcs.insert src { n.source src with timeout := timeoutTicks } }
    throws.newSsl holds).mono fun _ asked => asked

/-- The packet of a source goes out under the session that the source has, or gets. -/
theorem asked_sendUdpData (throws : Throws) {src : Endpoint} {buf : Frame}
    (known : (n.source src).session ≠ 0 →
      ∀ k, P ⟨k, none, { buf with session := (n.source src).session }⟩)
    (new : (n.source src).session = 0 →
      ∀ k, P ⟨k, none, { buf with session := n.session + 1 }⟩) :
    (n.sendUdpData throws src buf).Both (Asked P n) := by
  unfold sendUdpData
  split
  · rename_i first
    have asked := requests_restartUdp (n.assignSession src (n.source src)) throws
    have restarted := quiet_restartUdp (n.assignSession src (n.source src)) throws
    unfold newSource
    cases ended : (n.assignSession src (n.source src)).restartUdp throws with
    | error m =>
      rw [ended] at asked
      exact Asked.of_eq asked
    | ok m =>
      rw [ended] at restarted asked
      have called := quiet_callUdpSend m (.addPeer (n.session + 1) src)
      have source : (m.addSource (n.session + 1) src).source src =
          { n.source src with session := n.session + 1 } := by
        apply source_of_lookup
        rw [show (m.addSource (n.session + 1) src).srcs =
          n.srcs.insert src { n.source src with session := n.session + 1 } from
            called.srcs.trans restarted.srcs]
        exact Map.lookup_insert_self
      have same : Asked P n (m.addSource (n.session + 1) src) :=
        .of_eq ((requests_callUdpSend m _).trans asked)
      refine (asked_forwardUdp throws fun k => ?_).mono fun k asked => same.trans asked
      rw [source]
      exact new first k
  · rename_i given
    exact asked_forwardUdp throws (known given)

end Asked

/-- Why a step asks something of the other end. -/
inductive Reason (n : Node) (a : NodeAction) : Request → Prop
  | relay {k : Option RelayId} {r : RelayId} {buf : Frame} :
    n.strand.head? = some (.addRequest r buf) → Reason n a ⟨k, some r, buf⟩
  | opens {k : Option RelayId} {r : RelayId} {buf : Frame} :
    buf.cmd = .startTcp → n.draws a = some (.tcp buf.session r) → Reason n a ⟨k, some r, buf⟩
  | stops {k relay : Option RelayId} {buf : Frame} :
    buf.cmd = .stopTcp → Reason n a ⟨k, relay, buf⟩
  | packet {k : Option RelayId} {buf : Frame} :
    buf.cmd = .dataUdp → n.HasSource buf.session ∨ n.Draws a .rawUdp buf.session →
    Reason n a ⟨k, none, buf⟩

theorem asked_step {a : NodeAction} (wf : WellFormed n) (localSide : n.type ≠ .remoteServer)
    (other : ∀ {k buf}, n.strand.head? = some (.addResponse k buf) → buf.cmd ≠ .startTcp)
    (stepped : n.step a = some m) : Asked (n.Reason a) n m := by
  cases stepIs_of_step stepped with
  | accept _ | udpPacket _ | release _ | relay _ _ => exact .of_eq rfl
  | tick _ => exact .of_eq (requests_tick localSide)
  | @manager throws task strand queue =>
    have head : n.strand.head? = some task := by
      rw [queue]
      rfl
    cases task with
    | addRequest relay buf =>
      exact asked_addRequest { n with strand } throws.newSsl fun k => .relay head
    | addResponse relay buf =>
      exact asked_addResponse (n := { n with strand }) localSide throws (other head)
        fun k buf stop => .stops stop
    | addLocalRawTcp relay =>
      refine asked_addLocalRawTcp (n := { n with strand }) throws
        (fun free k buf session start => ?_) fun k buf stop => .stops stop
      apply Reason.opens start
      unfold draws
      simp only [head]
      rw [if_neg free, session]
    | sendUdpData src buf =>
      have isData := (wf.packets (queue ▸ List.mem_cons_self)).1
      refine asked_sendUdpData (n := { n with strand }) throws (fun given k => ?_)
        fun first k => ?_
      · exact .packet isData (.inl (hasSource_source given))
      · refine .packet isData (.inr ⟨.udp (n.session + 1) src, ?_, rfl, rfl⟩)
        unfold draws
        simp only [head]
        exact if_pos first

/-- **The other end is asked** under sessions that are in use, or handed out now. -/
theorem asks_step {a : NodeAction} (wf : WellFormed n) (ledger : n.Ledger) (live : RelaysLive n)
    (traced : Traced n) (unwelcome : ¬ n.Welcomed) (localSide : n.type ≠ .remoteServer)
    (other : ∀ {k buf}, n.strand.head? = some (.addResponse k buf) → buf.cmd ≠ .startTcp)
    (stepped : n.step a = some m) :
    Asked (fun q => ∀ kind, q.buf.For kind →
      n.Owns kind q.buf.session ∨ n.Draws a kind q.buf.session) n m := by
  obtain ⟨asked, requests, reasons⟩ := asked_step wf localSide other stepped
  refine ⟨asked, requests, fun q there kind isFor => ?_⟩
  have tcp {buf : Frame} (isFor : buf.For kind) (other : buf.cmd ≠ .dataUdp) : kind = .rawTcp := by
    cases kind with
    | rawTcp => rfl
    | rawUdp => exact absurd isFor other
    | ssl => exact isFor.elim
  cases reasons q there with
  | @relay k r buf head =>
    -- the relay is a raw_tcp that has asked, so it got its session from the counter
    obtain ⟨strand, queue⟩ : ∃ strand, n.strand = .addRequest r buf :: strand :=
      List.head?_eq_some_iff.mp head
    have queued : buf ∈ n.queuedBy r := by
      rw [queuedBy_cons queue]
      exact List.mem_append_left _ (Option.mem_toList.mpr (if_pos rfl))
    have emitted : buf ∈ (n.objs r).log.emitted := by
      rw [← ledger.asked r]
      exact List.mem_append_right _ queued
    have known := (wf.askers (queue ▸ List.mem_cons_self)).1
    have asks := (live r known).asks
    have isTcp : (n.objs r).kind = .rawTcp := by
      cases isKind : (n.objs r).kind with
      | rawTcp => rfl
      | rawUdp =>
        exact absurd ((wf.type known).symm.trans (asks.udp isKind buf emitted).1) localSide
      | ssl =>
        rw [asks.ssl isKind] at emitted
        cases emitted
    have isKind : kind = .rawTcp := by
      refine tcp isFor fun udp => ?_
      rcases asks.tcp isTcp buf emitted with isData | stop | ⟨_, start, _⟩
      · cases isData.symm.trans udp
      · cases stop.symm.trans udp
      · cases start.symm.trans udp
    subst isKind
    have issued : Issue.tcp (n.objs r).session r ∈ n.issued := by
      rcases traced.relays known isTcp with issued | mute | welcomed
      · exact issued
      · rw [mute.emitted] at emitted
        cases emitted
      · exact absurd welcomed unwelcome
    refine .inl ⟨r, ?_, .inr ⟨buf, queued, isFor⟩⟩
    rw [(asks.own buf emitted).1]
    exact issued
  | @opens k r buf start drawn =>
    have isKind : kind = .rawTcp := by
      refine tcp isFor fun udp => ?_
      cases start.symm.trans udp
    exact .inr ⟨.tcp buf.session r, drawn, isKind.symm, rfl⟩
  | @stops k relay buf stop =>
    cases kind with
    | rawTcp =>
      rcases isFor with start | isData
      · cases stop.symm.trans start
      · cases stop.symm.trans isData
    | rawUdp => cases stop.symm.trans isFor
    | ssl => exact isFor.elim
  | @packet k buf isData from_ =>
    cases kind with
    | rawTcp =>
      rcases isFor with start | other
      · cases isData.symm.trans start
      · cases isData.symm.trans other
    | rawUdp => exact from_
    | ssl => exact isFor.elim

end Node

end SslSocks
