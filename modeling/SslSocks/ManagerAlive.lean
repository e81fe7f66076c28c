import SslSocks.NodeRelays

/-!
# The last owner of a remote manager

The relays hold weak references to their manager. Its owners are the acceptor, until
the next connection, the timer coroutine, and the handlers in its strand; `stop_relay`
is only posted to a relay, so a relay may still connect or read when the last owner
goes, and the null check before `mngr->add_request` has an empty body.
`Node.OwnersMeet` asks that the last owner goes only when every raw relay is at rest;
then the manager is alive whenever a read loop has a buffer (`managerAlive_reading`).
-/

namespace SslSocks

open Lib

namespace Relay

/-- No read will complete: the read loop, if it runs, waits on a closed socket, and
the start-up is over or fails in its connect. -/
structure AtRest (r : Relay) : Prop where
  startup : r.startup = .idle ∨ r.startup = .connect ∧ r.sock = false
  reading : r.reading → r.sock = false ∧ r.arrived = none

instance (r : Relay) : Decidable r.AtRest :=
  decidable_of_iff ((r.startup = .idle ∨ r.startup = .connect ∧ r.sock = false) ∧
      (r.reading → r.sock = false ∧ r.arrived = none))
    ⟨fun both => ⟨both.1, both.2⟩, fun rest => ⟨rest.startup, rest.reading⟩⟩

variable {r r' : Relay} {alive : Bool} {ev : RelayEvent} {outs : List RelayOut}

theorem AtRest.stopHere (rest : r.AtRest) : r.stopHere.AtRest := by
  obtain ⟨startup, reading⟩ := rest
  rcases stopHere_cases r with ⟨_, same⟩ | ⟨_, ⟨_, same⟩ | ⟨bound, same⟩⟩ <;> rw [same]
  · exact ⟨startup, reading⟩
  · exact ⟨startup, reading⟩
  · exact ⟨startup.imp id fun both => ⟨both.1, rfl⟩, fun on => ⟨rfl, (reading on).2⟩⟩

/-- On the remote side a send leaves the socket alone. -/
theorem SendLoop.atRest (loop : SendLoop r r') (remote : r.type = .remoteServer)
    (rest : r.AtRest) : r'.AtRest := by
  have kept {sock : Bool} (moves : sock = r.sock ∨ r.type = .localTransparent) : sock = r.sock :=
    moves.resolve_right (remote ▸ nofun)
  obtain ⟨startup, reading⟩ := rest
  cases loop with
  | empty | stopped | stream => exact ⟨startup, reading⟩
  | datagram _ _ _ _ _ _ _ moves =>
    cases kept moves
    exact ⟨startup, reading⟩
  | threw _ _ _ _ _ _ moves =>
    cases kept moves
    exact AtRest.stopHere ⟨startup, reading⟩

theorem farewell_noCrash (r : Relay) (alive : Bool) : .crash ∉ r.farewell alive := by
  unfold farewell
  split <;> simp

/-- **A raw relay at rest** stays at rest, and calls no manager that is gone. -/
theorem Handles.atRest (handled : Handles alive r ev r' outs) (remote : r.type = .remoteServer)
    (raw : r.kind ≠ .ssl) (rest : r.AtRest) : r'.AtRest ∧ .crash ∉ outs := by
  have waits : r.startup ≠ .connect ∨ r.sock = false := by
    rcases rest.startup with idle | ⟨_, closed⟩
    · left
      rw [idle]
      intro connect
      cases connect
    · exact .inr closed
  have other (busy : r.startup ≠ .idle ∧ r.startup ≠ .connect) : False := by
    rcases rest.startup with idle | ⟨connect, _⟩
    · exact busy.1 idle
    · exact busy.2 connect
  have noRead {arrival : Arrival} (arrived : r.arrived = some arrival) (on : r.reading) : False := by
    have none := (rest.reading on).2
    rw [arrived] at none
    cases none
  obtain ⟨startup, reading⟩ := rest
  cases handled with
  | dropped | pushed | startInit | sslStop | startIdle | take | transmit | direct =>
    exact ⟨⟨startup, reading⟩, List.not_mem_nil⟩
  | addPeer | delPeer => exact ⟨⟨startup, reading⟩, List.not_mem_nil⟩
  | @stopTask inbox _ =>
    have stopped := AtRest.stopHere (r := { r with inbox }) ⟨startup, reading⟩
    have same : ({ r with inbox } : Relay).stopHere = Relay.stopTask { r with inbox } := by
      unfold Relay.stopHere
      dsimp only
      split
      · rename_i ssl
        exact absurd ssl raw
      · rfl
    exact ⟨same ▸ stopped, List.not_mem_nil⟩
  | closed =>
    exact ⟨⟨startup.imp id fun both => ⟨both.1, rfl⟩, fun on => ⟨rfl, (reading on).2⟩⟩,
      List.not_mem_nil⟩
  | startSend _ _ loop | sent _ loop =>
    exact ⟨loop.atRest remote ⟨startup, reading⟩, List.not_mem_nil⟩
  | sendError => exact ⟨AtRest.stopHere ⟨startup, reading⟩, List.not_mem_nil⟩
  | arrive awaits open_ =>
    exfalso
    simp only [awaitsRead, Bool.or_eq_true, decide_eq_true_eq] at awaits
    rcases awaits with (on | greeting) | request
    · exact absurd open_ (Bool.eq_false_iff.mp (reading on).1)
    · exact other (by simp [greeting])
    · exact other (by simp [request])
  | readRaw arrived on | readRawDead arrived on | readDatagram arrived on
  | readDatagramDead arrived on => exact (noRead arrived on).elim
  | readMore _ _ ssl | readMessage _ _ ssl | readMessageDead _ _ ssl | readThrew _ _ ssl
  | readOverrun _ _ ssl => exact absurd ssl raw
  | readError on none =>
    exact ⟨AtRest.stopHere ⟨startup, fun off => by cases off⟩, farewell_noCrash r alive⟩
  | greeting at_s | greetingReply at_s | directResolve at_s | directConnect at_s | okReply at_s
  | resolve at_s | handshake at_s | requestBad at_s | requestBlocked at_s | requestDead at_s
  | requestDirect at_s => exact (other (by simp [at_s])).elim
  | connectSsl _ _ ssl => exact absurd ssl raw
  | connectRaw connect open_ _ =>
    rcases waits with ne | closed
    · exact absurd connect ne
    · exact absurd open_ (Bool.eq_false_iff.mp closed)
  | startupThrew => exact ⟨AtRest.stopHere ⟨.inl rfl, reading⟩, farewell_noCrash r alive⟩
  | directFailed => exact ⟨AtRest.stopHere ⟨startup, reading⟩, farewell_noCrash r alive⟩

/-- A raw relay whose manager lives calls no null pointer. -/
theorem Handles.noCrash (handled : Handles true r ev r' outs) (raw : r.kind ≠ .ssl) :
    .crash ∉ outs := by
  cases handled with
  | readRawDead _ _ _ dead | readDatagramDead _ _ dead | requestDead _ _ _ _ dead => cases dead
  | readOverrun _ _ ssl => exact absurd ssl raw
  | readError | startupThrew | requestBad | directFailed => exact farewell_noCrash r true
  | _ => simp

/-- The calls that leave a relay at rest: they post a handler or count the time. -/
theorem AtRest.call {c : RelayCall} (rest : r.AtRest) (posts : ∀ s, c ≠ .begin s)
    (starts : c ≠ .startRead ∧ c ≠ .startUdp) : (r.call c).AtRest := by
  obtain ⟨startup, reading⟩ := rest
  generalize calledIs : r.call c = r'
  have called := calls_call r c
  rw [calledIs] at called
  cases called with
  | begin => exact absurd rfl (posts _)
  | startRead => exact absurd rfl starts.1
  | startUdpRemote | startUdpLocal => exact absurd rfl starts.2
  | _ => exact ⟨startup, reading⟩

end Relay

namespace Node

/-- Every raw relay is at rest. -/
def RelaysAtRest (n : Node) : Prop :=
  ∀ r < n.next, (n.objs r).kind ≠ .ssl → (n.objs r).AtRest

instance (n : Node) : Decidable n.RelaysAtRest := inferInstanceAs (Decidable (∀ _ < _, _ → _))

/-- The session has no raw relay that could take a datagram. -/
def NeedsUdp (n : Node) (session : UInt32) : Prop :=
  ∀ r ∈ (n.relays.lookup session).join, (n.objs r).state = .stop

instance (n : Node) (session : UInt32) : Decidable (n.NeedsUdp session) :=
  inferInstanceAs (Decidable (∀ _ ∈ _, _))

/-- A handler that makes a relay which reads or will. -/
def MakesReader (n : Node) (throws : Throws) : ManagerTask → Prop
  | .addResponse _ buf =>
    buf.cmd = .startTcp ∧ (parseAddress buf.payload buf.payload.length).isOk ∨
      buf.cmd = .dataUdp ∧ n.NeedsUdp buf.session ∧ throws.newUdp = false ∧ throws.startUdp = false
  | _ => False

instance (n : Node) (throws : Throws) : DecidablePred (n.MakesReader throws)
  | .addResponse _ _ => inferInstanceAs (Decidable (_ ∨ _))
  | .addRequest _ _ | .addLocalRawTcp _ | .sendUdpData _ _ => isFalse id

/-- The last owner goes when the raw relays are at rest: the timer when it ends, the
acceptor at its next connection, the last handler in the strand, which makes no reader
itself. -/
def OwnersMeet (n : Node) : NodeAction → Prop
  | .tick =>
    n.held = false ∧ n.strand = [] ∧ (n.state = .stop ∨ n.sslExpires) → n.RelaysAtRest
  | .release => n.timer = false ∧ n.strand = [] → n.RelaysAtRest
  | .manager throws =>
    n.held = false ∧ n.timer = false ∧ n.strand.length ≤ 1 →
      n.RelaysAtRest ∧ ∀ task ∈ n.strand.head?, ¬ n.MakesReader throws task
  | _ => True

instance (n : Node) : DecidablePred n.OwnersMeet
  | .tick | .release | .manager _ => inferInstanceAs (Decidable (_ → _))
  | .accept _ | .udpPacket _ _ _ | .relay _ _ => isTrue trivial

variable {n m : Node}

/-! ## Handlers that keep the relays at rest -/

theorem RelaysAtRest.call (rest : RelaysAtRest n) {r : RelayId} {c : RelayCall}
    (posts : ∀ s, c ≠ .begin s) (starts : c ≠ .startRead ∧ c ≠ .startUdp) :
    RelaysAtRest (n.call r c) := by
  intro a known
  rw [objs_call]
  split
  · rename_i same
    subst same
    intro raw
    exact (rest a known (Relay.call_kind _ c ▸ raw)).call posts starts
  · exact rest a known

theorem RelaysAtRest.stopManager (rest : RelaysAtRest n) : RelaysAtRest n.stopManager := by
  have stopped : RelaysAtRest (n.relays.sweep
      (fun n _ relay => relay.elim n fun r => n.call r .stopRelay) n) := by
    refine Map.sweep_invariant rest fun {m _ relay} rest _ => ?_
    cases relay with
    | none => exact rest
    | some r => exact rest.call nofun ⟨nofun, nofun⟩
  exact stopped

theorem restKept_addRequest (rest : RelaysAtRest n) (remote : n.type = .remoteServer)
    (throws : Bool) (relay : Option RelayId) (buf : Frame) :
    (n.addRequest throws relay buf).Both RelaysAtRest := by
  refine (requested_addRequest n throws relay buf).mono fun k ended => ?_
  obtain ⟨m, requested, same⟩ := ended
  have restM : RelaysAtRest m := by
    cases requested with
    | sent _ _ => exact rest.call (c := .sendData buf) nofun ⟨nofun, nofun⟩
    | made _ localSide => exact absurd remote localSide
    | lost _ => exact rest
  rcases same with rfl | ⟨_, rfl⟩
  · exact restM
  · exact restM.stopManager

theorem restKept_responseDataTcp (rest : RelaysAtRest n) (remote : n.type = .remoteServer)
    (throws : Throws) (buf : Frame) : (n.responseDataTcp throws buf).Both RelaysAtRest := by
  unfold responseDataTcp
  split
  · exact rest
  · exact rest
  · split
    · exact restKept_addRequest (n := { n with relays := n.relays.erase buf.session }) rest remote
        _ none _
    · exact rest.call (c := .sendData buf) nofun ⟨nofun, nofun⟩

theorem restKept_responseStopTcp (rest : RelaysAtRest n) (buf : Frame) :
    RelaysAtRest (n.responseStopTcp buf) := by
  unfold responseStopTcp
  split
  · exact rest
  · exact rest
  · exact rest.call (c := .stopRelay) nofun ⟨nofun, nofun⟩

/-- A new raw_udp that is not started. -/
theorem RelaysAtRest.makeUdp (rest : RelaysAtRest n) (s : UInt32) :
    RelaysAtRest (n.make (n.newRawUdp s)) := by
  intro a known
  rw [objs_make]
  split
  · exact fun _ => ⟨.inl rfl, nofun⟩
  · rename_i other
    exact rest a (Nat.lt_of_le_of_ne (Nat.le_of_lt_succ known) other)

theorem restKept_remoteServerSendUdp (rest : RelaysAtRest n) {throws : Throws} {buf : Frame}
    (none : ¬ (n.NeedsUdp buf.session ∧ throws.newUdp = false ∧ throws.startUdp = false)) :
    (n.remoteServerSendUdp throws buf).Both RelaysAtRest := by
  have slotRest : RelaysAtRest (n.relaySlot buf.session) := by
    unfold relaySlot
    split <;> exact rest
  have slotObjs : (n.relaySlot buf.session).objs = n.objs := by
    unfold relaySlot
    split <;> rfl
  have slotJoin : ((n.relaySlot buf.session).relays.lookup buf.session).join =
      (n.relays.lookup buf.session).join := by
    unfold relaySlot
    split
    · rfl
    · rename_i free
      rw [Map.lookup_insert_self, Map.notMem_iff.mp free]
      rfl
  have made (needs : n.NeedsUdp buf.session) (m : Node) (restM : RelaysAtRest m) (f : Node → Fallible Node) :
      ((m.addRemoteRawUdp throws buf.session).andThen f).Both RelaysAtRest := by
    unfold addRemoteRawUdp startRawUdp
    split
    · exact restM
    · rename_i constructs
      dsimp only
      split
      · exact restM.makeUdp buf.session
      · rename_i starts
        exact absurd ⟨needs, Bool.eq_false_iff.mpr constructs, Bool.eq_false_iff.mpr starts⟩ none
  unfold remoteServerSendUdp
  dsimp only
  split
  · rename_i r old
    split
    · rename_i stopped
      refine made (fun a there => ?_) _ slotRest _
      cases (slotJoin ▸ old).symm.trans there
      exact slotObjs ▸ stopped
    · have posts : ∀ s, RelayCall.sendData buf ≠ .begin s := fun s same => by cases same
      exact slotRest.call posts (by simp)
  · rename_i unknown
    refine made (fun a there => ?_) _ slotRest _
    rw [slotJoin] at unknown
    rw [unknown] at there
    cases there

/-- A `START_TCP` that is refused. -/
theorem restKept_remoteServerStartTcp (rest : RelaysAtRest n) {throws : Throws} {buf : Frame}
    (bad : ¬ (parseAddress buf.payload buf.payload.length).isOk) :
    (n.remoteServerStartTcp throws buf).Both RelaysAtRest := by
  have slotRest : RelaysAtRest (n.relaySlot buf.session) := by
    unfold relaySlot
    split <;> exact rest
  unfold remoteServerStartTcp
  dsimp only
  generalize n.relaySlot buf.session = slot at *
  have stopped : RelaysAtRest ((slot.relays.lookup buf.session).join.elim slot
      fun r => slot.call r .stopRelay) := by
    cases (slot.relays.lookup buf.session).join with
    | none => exact slotRest
    | some r => exact slotRest.call nofun ⟨nofun, nofun⟩
  split
  · exact stopped
  · rename_i parsed
    rw [parsed] at bad
    exact absurd rfl bad

/-- **A handler of the remote manager** that makes no reader. -/
theorem restKept_runTask (rest : RelaysAtRest n) (remote : n.type = .remoteServer) {throws : Throws}
    {task : ManagerTask} (none : ¬ n.MakesReader throws task)
    (known : (∃ r buf, task = .addRequest r buf) ∨ ∃ r buf, task = .addResponse r buf) :
    (n.runTask throws task).Both RelaysAtRest := by
  rcases known with ⟨r, buf, rfl⟩ | ⟨r, buf, rfl⟩
  · exact restKept_addRequest rest remote _ _ _
  · obtain ⟨noStart, noUdp⟩ := not_or.mp none
    show (n.addResponse throws r buf).Both _
    unfold addResponse
    dsimp only
    split
    · exact restKept_responseDataTcp (n := { n with answered := n.answered ++ [(r, buf)] }) rest
        remote throws buf
    · rename_i data
      split
      · rename_i transparent
        exact absurd (remote.symm.trans transparent) nofun
      · exact restKept_remoteServerSendUdp (n := { n with answered := n.answered ++ [(r, buf)] })
          rest fun needs => noUdp ⟨data, needs⟩
      · exact rest
    · rename_i start
      exact restKept_remoteServerStartTcp (n := { n with answered := n.answered ++ [(r, buf)] })
        rest fun parses => noStart ⟨start, parses⟩
    · exact restKept_responseStopTcp (n := { n with answered := n.answered ++ [(r, buf)] }) rest buf
    · exact rest

theorem RelaysAtRest.callUdpSend (rest : RelaysAtRest n) {c : RelayCall}
    (posts : ∀ s, c ≠ .begin s) (starts : c ≠ .startRead ∧ c ≠ .startUdp) :
    RelaysAtRest (n.callUdpSend c) := by
  unfold Node.callUdpSend
  split
  · exact rest
  · exact rest.call posts starts

theorem restKept_tick (rest : RelaysAtRest n) : RelaysAtRest n.tick := by
  have counted (m : Node) (rest : RelaysAtRest m) (r : RelayId) :
      RelaysAtRest (m.call r .timeoutDown) := rest.call nofun ⟨nofun, nofun⟩
  refine tick_rule ?_ (fun rest _ _ => ?_) (fun {m} rest => ?_) (fun {m src entry} rest _ => ?_)
    (fun {m s relay} rest _ => ?_) fun rest _ => ?_
  · unfold sslTimeout
    split
    · exact rest
    · exact counted n rest _
  · exact rest.stopManager
  · exact RelaysAtRest.callUdpSend (n := { m with udpSrcs := ∅, srcs := ∅ }) rest
      (c := .delPeer 0) nofun ⟨nofun, nofun⟩
  · unfold visitSource
    split
    · exact RelaysAtRest.callUdpSend (n := { m with
        udpSrcs := m.udpSrcs.erase entry.session, srcs := m.srcs.erase src }) rest
        (c := .delPeer entry.session) nofun ⟨nofun, nofun⟩
    · exact rest
  · unfold visitRelay
    split
    · exact rest
    · split <;> exact counted m rest _
  · exact rest

/-! ## The owners -/

/-- A handler of the strand leaves the owners alone: none posts to its own strand. -/
theorem sameTables_runTask (remote : n.type = .remoteServer) {throws : Throws} {task : ManagerTask}
    (known : (∃ r buf, task = .addRequest r buf) ∨ ∃ r buf, task = .addResponse r buf) :
    (n.runTask throws task).Both fun m => m.type = n.type ∧ m.strand = n.strand ∧
      m.timer = n.timer ∧ m.held = n.held := by
  have owners {m : Node} (same : SameTables n m) : m.type = n.type ∧ m.strand = n.strand ∧
      m.timer = n.timer ∧ m.held = n.held := ⟨same.type, same.strand, same.timer, same.held⟩
  rcases known with ⟨r, buf, rfl⟩ | ⟨r, buf, rfl⟩
  · exact (quiet_addRequest n throws.newSsl (some r) buf).mono fun _ quiet => owners quiet.toSameTables
  · have noted {m : Node} (same : SameTables { n with answered := n.answered ++ [(r, buf)] } m) :
        m.type = n.type ∧ m.strand = n.strand ∧ m.timer = n.timer ∧ m.held = n.held :=
      ⟨same.type, same.strand, same.timer, same.held⟩
    show (n.addResponse throws r buf).Both _
    unfold addResponse
    dsimp only
    split
    · exact (quiet_responseDataTcp _ throws buf).mono fun _ quiet => noted quiet.toSameTables
    · split
      · rename_i transparent
        exact absurd (remote.symm.trans transparent) nofun
      · exact (sameTables_remoteServerSendUdp _ throws buf).mono fun _ => noted
      · exact noted (SameTables.refl _)
    · exact (sameTables_remoteServerStartTcp _ throws buf).mono fun _ => noted
    · exact noted (quiet_responseStopTcp _ buf).toSameTables
    · exact noted (SameTables.refl _)

/-- A round ends the timer only when the manager is stopped or its ssl relay expired. -/
theorem owners_tick (n : Node) : n.tick.held = n.held ∧ n.tick.strand = n.strand ∧
    n.tick.type = n.type ∧ (n.tick.timer = n.timer ∨ n.state = .stop ∨ n.sslExpires) := by
  let Going (m : Node) : Prop := m.held = n.held ∧ m.strand = n.strand ∧ m.type = n.type ∧
    (m.state = n.state ∧ m.timer = n.timer ∨ n.state = .stop ∨ n.sslExpires)
  have sent {m : Node} (c : RelayCall) (going : Going m) : Going (m.callUdpSend c) := by
    unfold callUdpSend
    split <;> exact going
  have ended : Going n.tick := by
    refine tick_rule (P := Going) ?_ (fun {m} going _ expired => ?_) (fun {m} going => ?_)
      (fun {m src entry} going _ => ?_) (fun {m s relay} going _ => ?_) fun going stopped => ?_
    · unfold sslTimeout
      split <;> exact ⟨rfl, rfl, rfl, .inl ⟨rfl, rfl⟩⟩
    · obtain ⟨held, strand, type, _⟩ := going
      have same := (quiet_stopManager m).toSameTables
      exact ⟨same.held.trans held, same.strand.trans strand, same.type.trans type,
        .inr (.inr expired)⟩
    · exact sent (m := { m with udpSrcs := ∅, srcs := ∅ }) (.delPeer 0) going
    · unfold visitSource
      split
      · exact sent (m := { m with
          udpSrcs := m.udpSrcs.erase entry.session, srcs := m.srcs.erase src }) _ going
      · exact going
    · unfold visitRelay
      split
      · exact going
      · split <;> exact going
    · obtain ⟨held, strand, type, state | other⟩ := going
      · exact ⟨held, strand, type, .inr (.inl (state.1.symm.trans stopped))⟩
      · exact ⟨held, strand, type, .inr other⟩
  obtain ⟨held, strand, type, state | other⟩ := ended
  · exact ⟨held, strand, type, .inl state.2⟩
  · exact ⟨held, strand, type, .inr other⟩

/-- The handlers that come to the strand of a remote manager. -/
structure RemoteTasks (n : Node) : Prop where
  remote : n.type = .remoteServer
  tasks : ∀ task ∈ n.strand,
    (∃ r buf, task = .addRequest r buf) ∨ ∃ r buf, task = .addResponse r buf

theorem remoteTasks_initRemote : RemoteTasks initRemote := ⟨rfl, nofun⟩

theorem remoteTasks_step {a : NodeAction} (known : RemoteTasks n) (stepped : n.step a = some m) :
    RemoteTasks m := by
  obtain ⟨remote, tasks⟩ := known
  cases stepIs_of_step stepped with
  | accept localSide | udpPacket localSide => exact absurd remote localSide
  | release _ => exact ⟨remote, tasks⟩
  | tick _ =>
    obtain ⟨_, strand, type, _⟩ := owners_tick n
    exact ⟨type.trans remote, fun task => strand ▸ tasks task⟩
  | @manager throws task strand queue =>
    obtain ⟨type, isStrand, _⟩ := @sameTables_runTask { n with strand } remote throws task
      (tasks task (queue ▸ List.mem_cons_self))
    refine ⟨type.trans remote, fun task there => ?_⟩
    have rest : task ∈ strand := (congrArg (task ∈ ·) isStrand).mp there
    exact tasks task (queue ▸ List.mem_cons_of_mem _ rest)
  | @relay r ev relay outs _ _ =>
    refine ⟨remote, fun task there => ?_⟩
    rcases List.mem_append.mp there with before | posted
    · exact tasks task before
    · obtain ⟨out, _, eq⟩ := List.mem_filterMap.mp posted
      cases out with
      | request buf => exact .inl ⟨r, buf, (Option.some.inj eq).symm⟩
      | response buf => exact .inr ⟨r, buf, (Option.some.inj eq).symm⟩
      | crash => cases eq

/-- What holds between the handlers of a remote manager: it is alive, or the raw relays
are at rest. -/
structure Owned (n : Node) : Prop where
  remote : n.type = .remoteServer
  tasks : ∀ task ∈ n.strand,
    (∃ r buf, task = .addRequest r buf) ∨ ∃ r buf, task = .addResponse r buf
  rests : n.alive = false → n.RelaysAtRest

theorem alive_eq_false : n.alive = false ↔ n.held = false ∧ n.timer = false ∧ n.strand = [] := by
  simp only [alive, Bool.or_eq_false_iff, Bool.not_eq_false', List.isEmpty_iff, and_assoc]

/-- **One step** under the condition leaves the manager alive or the relays at rest. -/
theorem owned_step {a : NodeAction} (wf : WellFormed n) (owned : Owned n) (meets : n.OwnersMeet a)
    (stepped : n.step a = some m) : Owned m := by
  obtain ⟨remote, tasks, rests⟩ := owned
  obtain ⟨remoteAfter, tasksAfter⟩ := remoteTasks_step ⟨remote, tasks⟩ stepped
  refine ⟨remoteAfter, tasksAfter, fun dead => ?_⟩
  cases stepIs_of_step stepped with
  | accept localSide | udpPacket localSide => exact absurd remote localSide
  | release _ =>
    obtain ⟨_, timer, strand⟩ := alive_eq_false.mp dead
    exact meets ⟨timer, strand⟩
  | tick timer =>
    obtain ⟨held, strand, _, ends⟩ := owners_tick n
    obtain ⟨isHeld, isTimer, isStrand⟩ := alive_eq_false.mp dead
    refine restKept_tick (meets ⟨held.symm.trans isHeld, strand.symm.trans isStrand, ?_⟩)
    rcases ends with same | ends
    · rw [same, timer] at isTimer
      cases isTimer
    · exact ends
  | @manager throws task strand queue =>
    have known := tasks task (queue ▸ List.mem_cons_self)
    have kept (none : ¬ n.MakesReader throws task) (rest : RelaysAtRest n) :=
      @restKept_runTask { n with strand } rest remote throws task (by cases task <;> exact none) known
    obtain ⟨_, isStrand, timer, held⟩ :=
      @sameTables_runTask { n with strand } remote throws task known
    obtain ⟨noHeld, noTimer, noStrand⟩ := alive_eq_false.mp dead
    have last : strand = [] := isStrand.symm.trans noStrand
    obtain ⟨rest, none⟩ := meets ⟨held.symm.trans noHeld, timer.symm.trans noTimer, by
      rw [queue, last, List.length_singleton]⟩
    exact kept (none task (by rw [queue]; rfl)) rest
  | @relay r ev relay outs known handled =>
    obtain ⟨h, done, rfl⟩ := Relay.step_eq_some.mp handled
    have handles := Relay.handles_of_handle done
    obtain ⟨held, timer, noStrand⟩ := alive_eq_false.mp dead
    have rest := rests (alive_eq_false.mpr
      ⟨held, timer, (List.append_eq_nil_iff.mp noStrand).1⟩)
    intro a knownA
    show (Function.update n.objs r (h.note outs) a).kind ≠ .ssl →
      (Function.update n.objs r (h.note outs) a).AtRest
    rw [Function.update_apply]
    split
    · intro raw
      have raw' : (n.objs r).kind ≠ .ssl := handles.sameCalls.kind ▸ raw
      have stays := (handles.atRest ((wf.type known).trans remote) raw' (rest r known raw')).1
      exact ⟨stays.startup, stays.reading⟩
    · exact rest a knownA

theorem owned_initRemote : Owned initRemote := ⟨rfl, nofun, nofun⟩

/-- **The manager is alive when a read loop has a buffer**: in every state of a remote
manager reached under the condition, a raw relay whose read has completed finds its
manager, and no handler of a raw relay calls through a null pointer. -/
theorem managerAlive_reading (run : Reach step OwnersMeet initRemote n) {r : RelayId}
    (known : r < n.next) (raw : (n.objs r).kind ≠ .ssl) :
    ((n.objs r).reading → (n.objs r).arrived ≠ none → n.alive) ∧
      ∀ {ev relay outs}, (n.objs r).step n.alive ev = some (relay, outs) → .crash ∉ outs := by
  have wf := wellFormed_reach wellFormed_initRemote run
  have owned : Owned n := run.invariant owned_initRemote fun before owned meets stepped =>
    owned_step (wellFormed_reach wellFormed_initRemote before) owned meets stepped
  obtain ⟨remote, _, rests⟩ := owned
  cases living : n.alive with
  | true =>
    refine ⟨fun _ _ => rfl, fun handled => ?_⟩
    obtain ⟨h, done, _⟩ := Relay.step_eq_some.mp handled
    exact (Relay.handles_of_handle done).noCrash raw
  | false =>
    have rest := rests living r known raw
    refine ⟨fun on arrived => absurd (rest.reading on).2 arrived, fun handled => ?_⟩
    obtain ⟨h, done, _⟩ := Relay.step_eq_some.mp handled
    exact ((Relay.handles_of_handle done).atRest ((wf.type known).trans remote) raw rest).2

/-- A datagram for a new session. -/
def firstDatagram : Frame := ⟨2, .dataUdp, udpHead (some ⟨.v4 #v[8, 8, 8, 8], 53⟩) ++ [7]⟩

/-- The ssl connection brings a datagram, and its handler makes a raw_udp. -/
def datagramRun : List NodeAction :=
  [.relay 0 (.startup true), .relay 0 (.arrive (.stream firstDatagram.head.bytes)),
    .relay 0 .read, .relay 0 (.arrive (.stream firstDatagram.payload)), .relay 0 .read,
    .manager {}]

/-- The raw_udp reads an answer while the acceptor has gone on to the next connection. -/
theorem managerAlive_reading_datagram :
    ∃ n, Reachable step initRemote n ∧ (n.objs 1).reading = true ∧ (n.objs 1).arrived ≠ none ∧
      n.held = false ∧ n.alive = true := by
  have run := @Reach.of_isSome _ _ step OwnersMeet initRemote _
    (datagramRun ++ [.release, .relay 1 (.arrive (.datagram ⟨.v4 #v[8, 8, 8, 8], 53⟩ [1]))])
    (by decide +kernel)
  have living := (@managerAlive_reading _ run 1 (by decide +kernel) (by decide +kernel)).1
    (by decide +kernel) (by decide +kernel)
  exact ⟨_, run.reachable, by decide +kernel, by decide +kernel, by decide +kernel, living⟩

/-- A message arrives on the ssl connection; the read of its payload has not been handled. -/
def arrives (buf : Frame) : List NodeAction :=
  [.relay 0 (.arrive (.stream buf.head.bytes)), .relay 0 .read,
    .relay 0 (.arrive (.stream buf.payload))]

/-- A read of the raw_tcp completes, and the manager gets what it read. -/
def peerSends (bytes : List UInt8) : List NodeAction :=
  [.relay 1 (.arrive (.stream bytes)), .relay 1 .read, .manager {}]

/-- The acceptor goes on to the next connection; a session starts, and the ssl relay sends what
its raw_tcp has read. -/
def requestSent : List NodeAction :=
  [.release, .relay 0 (.startup true)] ++ arrives ⟨3, .startTcp, [1, 8, 8, 8, 8, 0, 53]⟩ ++
    [.relay 0 .read, .manager {}, .relay 1 (.startup true), .relay 1 (.startup true)] ++
    peerSends [1] ++ [.relay 0 .task, .relay 0 (.startSend 0)]

/-- The connection breaks, and the next request finds the ssl relay stopped. -/
def requestLost : List NodeAction :=
  [.relay 0 .sendError, .relay 0 .stop] ++ peerSends [2]

/-- **A relay calls a manager that is gone.** A request finds the ssl relay stopped,
`stop_manager` posts a stop to the raw_tcp, the timer ends, and nobody owns the manager; the read
that completes before the stop runs calls through a null pointer. -/
theorem managerAlive_timerEnds :
    ∃ n, Reachable step initRemote n ∧ n.state = .stop ∧ (n.objs 1).kind = .rawTcp ∧
      (n.objs 1).reading = true ∧ (n.objs 1).arrived ≠ none ∧ n.alive = false ∧
      ∃ relay, (n.objs 1).step n.alive .read = some (relay, [.crash]) := by
  have run := @Reach.of_isSome _ _ step anyStep initRemote _
    (requestSent ++ requestLost ++ [.tick, .relay 1 (.arrive (.stream [3]))]) (by decide +kernel)
  exact ⟨_, run, by decide +kernel, by decide +kernel, by decide +kernel, by decide +kernel,
    by decide +kernel, _, rfl⟩

end Node

end SslSocks
