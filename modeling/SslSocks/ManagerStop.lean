import SslSocks.ManagerAlive
import SslSocks.RelaySlots

/-!
# A remote manager after `stop_manager`

`stop_manager` stops the relays, clears `_relays` and sets `_state`, and the timer ends at
its next round. Only the timer asks for `_state`: `add_response` does not, and the ssl
relay, whose stop is posted, may still deliver messages. `StopMeets` excludes that a
stopped manager handles a `START_TCP` or a `DATA_UDP`; `managerStop_empty` shows that
`_relays` then stays empty and no relay is made.
-/

namespace SslSocks

open Lib

namespace Node

/-- The condition on a step: a stopped manager gets no message that starts a session. -/
def StopMeets (n : Node) : NodeAction → Prop
  | .manager _ => n.state = .stop → ∀ k buf, n.strand.head? = some (.addResponse k buf) →
      buf.cmd ≠ .startTcp ∧ buf.cmd ≠ .dataUdp
  | _ => True

instance (n : Node) : DecidablePred n.StopMeets
  | .manager _ =>
    match queue : n.strand.head? with
    | some (.addResponse _ buf) =>
      decidable_of_iff (n.state = .stop → buf.cmd ≠ .startTcp ∧ buf.cmd ≠ .dataUdp) <| by
        constructor
        · rintro meets stopped k buf eq
          rw [queue] at eq
          cases eq
          exact meets stopped
        · intro meets stopped
          exact meets stopped _ buf queue
    | some (.addRequest _ _) | some (.addLocalRawTcp _) | some (.sendUdpData _ _) | none =>
      isTrue fun _ _ _ eq => by
        rw [queue] at eq
        cases eq
  | .accept _ | .udpPacket _ _ _ | .tick | .release | .relay _ _ => isTrue trivial

/-- What `stop_manager` leaves. -/
structure Emptied (n : Node) : Prop where
  state : n.state = .stop
  relays : n.relays = ∅

variable {n m : Node}

/-! ## The state changes in `stop_manager` only -/

theorem emptied_stopManager (n : Node) : n.stopManager.Emptied := ⟨rfl, rfl⟩

/-- The state is as before, or the manager has just been stopped. -/
def StopsWhole (n m : Node) : Prop := m.state = n.state ∨ m.Emptied

theorem stopsWhole_addRequest (remote : n.type = .remoteServer) (throws : Bool)
    (relay : Option RelayId) (buf : Frame) :
    (n.addRequest throws relay buf).Both (StopsWhole n) := by
  unfold addRequest
  split
  · exact .inr (emptied_stopManager _)
  · left
    unfold sendSsl
    split <;> rfl

theorem state_startRawTcp (remote : n.type = .remoteServer) (throws : Throws) (r : RelayId)
    (session : UInt32) : (n.startRawTcp throws r session).Both fun m => m.state = n.state := by
  have notLocal : ¬ (n.call r (.begin session)).type = .localTransparent := by
    intro transparent
    cases remote.symm.trans transparent
  unfold startRawTcp
  simp only [if_neg notLocal]
  exact rfl

theorem state_addRemoteRawUdp (n : Node) (throws : Throws) (session : UInt32) :
    (n.addRemoteRawUdp throws session).Both fun m => m.state = n.state := by
  unfold addRemoteRawUdp startRawUdp
  split
  · exact rfl
  · simp only
    split
    · exact rfl
    · exact rfl

theorem state_relaySlot (n : Node) (session : UInt32) :
    (n.relaySlot session).state = n.state := by
  unfold relaySlot
  split <;> rfl

theorem state_remoteServerSendUdp (n : Node) (throws : Throws) (buf : Frame) :
    (n.remoteServerSendUdp throws buf).Both fun m => m.state = n.state := by
  have slot := state_relaySlot n buf.session
  have made (r : RelayId) :
      (((n.relaySlot buf.session).addRemoteRawUdp throws buf.session).andThen fun m =>
        .ok (m.call r (.sendData buf))).Both fun m => m.state = n.state :=
    ((state_addRemoteRawUdp _ throws buf.session).mono fun _ same => same.trans slot).andThen
      fun _ same => same
  unfold remoteServerSendUdp
  simp only
  split
  · split
    · exact made _
    · exact slot
  · exact made _

theorem state_remoteServerStartTcp (remote : n.type = .remoteServer) (throws : Throws)
    (buf : Frame) : (n.remoteServerStartTcp throws buf).Both fun m => m.state = n.state := by
  have slot := state_relaySlot n buf.session
  have slotType := (sameTables_relaySlot n buf.session).type
  unfold remoteServerStartTcp
  simp only
  generalize stoppedIs : Option.elim _ (n.relaySlot buf.session) _ = k
  have same : k.state = n.state ∧ k.type = n.type := by
    rw [← stoppedIs]
    cases ((n.relaySlot buf.session).relays.lookup buf.session).join with
    | none => exact ⟨slot, slotType⟩
    | some r => exact ⟨slot, slotType⟩
  split
  · exact same.1
  · rename_i target _
    let made : Node := { k.make (k.newRawTcp (some target)) with
      relays := k.relays.insert buf.session (some k.next) }
    have isRemote : made.type = .remoteServer := same.2.trans remote
    exact (state_startRawTcp isRemote throws k.next buf.session).mono
      fun _ started => started.trans same.1

theorem stopsWhole_addResponse (remote : n.type = .remoteServer) (throws : Throws) (k : RelayId)
    (buf : Frame) : (n.addResponse throws k buf).Both (StopsWhole n) := by
  unfold addResponse
  simp only
  split
  · unfold responseDataTcp
    split
    · exact .inl rfl
    · exact .inl rfl
    · split
      · exact stopsWhole_addRequest (n := { n with
          answered := n.answered ++ [(k, buf)], relays := n.relays.erase buf.session })
          remote _ _ _
      · exact .inl rfl
  · split
    · rename_i transparent
      cases remote.symm.trans transparent
    · exact (state_remoteServerSendUdp _ throws buf).mono fun _ => .inl
    · exact .inl rfl
  · exact (state_remoteServerStartTcp (n := { n with answered := n.answered ++ [(k, buf)] })
      remote throws buf).mono fun _ => .inl
  · left
    unfold responseStopTcp
    split <;> rfl
  · exact .inl rfl

theorem stopsWhole_tick (n : Node) : StopsWhole n n.tick := by
  have sent (m : Node) (c : RelayCall) : (m.callUdpSend c).state = m.state := by
    unfold callUdpSend
    split <;> rfl
  have keeps {m m' : Node} (whole : StopsWhole n m) (state : m'.state = m.state)
      (relays : m'.relays = m.relays) : StopsWhole n m' := by
    rcases whole with same | empty
    · exact .inl (state.trans same)
    · exact .inr ⟨state.trans empty.state, relays.trans empty.relays⟩
  have relaysSent (m : Node) (c : RelayCall) : (m.callUdpSend c).relays = m.relays := by
    unfold callUdpSend
    split <;> rfl
  refine tick_rule (P := StopsWhole n) ?_ (fun {m} _ _ _ => ?_) (fun {m} whole => ?_)
    (fun {m src entry} whole _ => ?_) (fun {m s relay} whole found => ?_) fun whole _ => ?_
  · left
    unfold sslTimeout
    split <;> rfl
  · exact .inr ⟨rfl, rfl⟩
  · exact keeps whole (sent _ _) (relaysSent _ _)
  · unfold visitSource
    split
    · exact keeps whole (sent _ _) (relaysSent _ _)
    · exact keeps whole rfl rfl
  · rcases whole with same | empty
    · left
      unfold visitRelay
      split
      · exact same
      · split <;> exact same
    · rw [empty.relays, Map.lookup_empty] at found
      cases found
  · exact keeps whole rfl rfl

/-! ## A stopped manager -/

/-- Still stopped and empty, and no relay was made. -/
structure Idle (n m : Node) : Prop extends m.Emptied where
  next : m.next = n.next

theorem Emptied.idle (empty : n.Emptied) : Idle n n := ⟨empty, rfl⟩

theorem idle_addRequest (empty : n.Emptied) (remote : n.type = .remoteServer) (throws : Bool)
    (relay : Option RelayId) (buf : Frame) : (n.addRequest throws relay buf).Both (Idle n) := by
  unfold addRequest
  split
  · exact ⟨emptied_stopManager _, next_stopManager _⟩
  · unfold sendSsl
    split
    · exact empty.idle
    · exact ⟨⟨empty.state, empty.relays⟩, rfl⟩

theorem Emptied.lookup (empty : n.Emptied) (s : UInt32) : n.relays.lookup s = none := by
  rw [empty.relays, Map.lookup_empty]

theorem idle_addResponse (empty : n.Emptied) (throws : Throws) (k : RelayId) {buf : Frame}
    (meets : buf.cmd ≠ .startTcp ∧ buf.cmd ≠ .dataUdp) :
    (n.addResponse throws k buf).Both (Idle n) := by
  obtain ⟨noStart, noData⟩ := meets
  have noted : Emptied { n with answered := n.answered ++ [(k, buf)] } :=
    ⟨empty.state, empty.relays⟩
  unfold addResponse
  simp only
  split
  · rw [responseDataTcp, noted.lookup]
    exact ⟨noted, rfl⟩
  · rename_i data
    exact absurd data noData
  · rename_i start
    exact absurd start noStart
  · rw [responseStopTcp, noted.lookup]
    exact ⟨noted, rfl⟩
  · exact ⟨noted, rfl⟩

theorem idle_tick (empty : n.Emptied) : Idle n n.tick := by
  have sent (m : Node) (c : RelayCall) : (m.callUdpSend c).state = m.state ∧
      (m.callUdpSend c).relays = m.relays ∧ (m.callUdpSend c).next = m.next := by
    unfold callUdpSend
    split <;> exact ⟨rfl, rfl, rfl⟩
  have keeps {m m' : Node} (idle : Idle n m)
      (same : m'.state = m.state ∧ m'.relays = m.relays ∧ m'.next = m.next) : Idle n m' := by
    obtain ⟨state, relays, next⟩ := same
    exact ⟨⟨state.trans idle.state, relays.trans idle.relays⟩, next.trans idle.next⟩
  refine tick_rule (P := Idle n) ?_ (fun {m} idle _ _ => ?_) (fun {m} idle => ?_)
    (fun {m src entry} idle _ => ?_) (fun {m s relay} idle found => ?_) fun idle _ => ?_
  · unfold sslTimeout
    split
    · exact empty.idle
    · exact keeps empty.idle ⟨rfl, rfl, rfl⟩
  · exact ⟨⟨rfl, rfl⟩, (next_stopManager m).trans idle.next⟩
  · exact keeps idle (sent _ _)
  · unfold visitSource
    split
    · exact keeps idle (sent _ _)
    · exact keeps idle ⟨rfl, rfl, rfl⟩
  · rw [idle.toEmptied.lookup] at found
    cases found
  · exact keeps idle ⟨rfl, rfl, rfl⟩

/-! ## Steps and runs -/

/-- A step leaves the state as it is, or empties the manager. -/
theorem stopsWhole_step {a : NodeAction} (known : RemoteTasks n) (stepped : n.step a = some m) :
    StopsWhole n m := by
  cases stepIs_of_step stepped with
  | accept _ | udpPacket _ | release _ | relay _ _ => exact .inl rfl
  | tick _ => exact stopsWhole_tick n
  | @manager throws task strand queue =>
    rcases known.tasks task (queue ▸ List.mem_cons_self) with ⟨r, buf, rfl⟩ | ⟨r, buf, rfl⟩
    · exact stopsWhole_addRequest (n := { n with strand }) known.remote _ _ _
    · exact stopsWhole_addResponse (n := { n with strand }) known.remote _ _ _

/-- A step of a stopped manager under the condition. -/
theorem idle_step {a : NodeAction} (known : RemoteTasks n) (empty : n.Emptied)
    (meets : n.StopMeets a) (stepped : n.step a = some m) : Idle n m := by
  cases stepIs_of_step stepped with
  | accept localSide | udpPacket localSide => exact absurd known.remote localSide
  | release _ | relay _ _ => exact ⟨⟨empty.state, empty.relays⟩, rfl⟩
  | tick _ => exact idle_tick empty
  | @manager throws task strand queue =>
    have popped : Emptied { n with strand } := ⟨empty.state, empty.relays⟩
    rcases known.tasks task (queue ▸ List.mem_cons_self) with ⟨r, buf, rfl⟩ | ⟨r, buf, rfl⟩
    · have idle := idle_addRequest popped known.remote throws.newSsl (some r) buf
      exact ⟨idle.toEmptied, idle.next⟩
    · have idle := idle_addResponse popped throws r
        (meets empty.state r buf (by rw [queue]; rfl))
      exact ⟨idle.toEmptied, idle.next⟩

/-- **A stopped manager stays empty**: in every run under the condition a manager that is
stopped has no session, and nothing later in the run starts it again, adds a session or
makes a relay. -/
theorem managerStop_empty (run : Reach step StopMeets initRemote n) (stopped : n.state = .stop) :
    n.relays = ∅ ∧ ∀ m, Reach step StopMeets n m →
      m.state = .stop ∧ m.relays = ∅ ∧ m.next = n.next := by
  obtain ⟨known, empties⟩ : RemoteTasks n ∧ (n.state = .stop → n.Emptied) := by
    refine run.invariant (P := fun t => RemoteTasks t ∧ (t.state = .stop → t.Emptied))
      ⟨remoteTasks_initRemote, nofun⟩ fun _ before meets enabled => ?_
    obtain ⟨known, empties⟩ := before
    refine ⟨remoteTasks_step known enabled, fun stopped => ?_⟩
    rcases stopsWhole_step known enabled with same | empty
    · exact (idle_step known (empties (same.symm.trans stopped)) meets enabled).toEmptied
    · exact empty
  have empty := empties stopped
  refine ⟨empty.relays, fun m later => ?_⟩
  obtain ⟨_, idle⟩ : RemoteTasks m ∧ Idle n m := by
    refine later.invariant (P := fun t => RemoteTasks t ∧ Idle n t) ⟨known, empty.idle⟩
      fun _ before meets enabled => ?_
    obtain ⟨known, idle⟩ := before
    have next := idle_step known idle.toEmptied meets enabled
    exact ⟨remoteTasks_step known enabled, next.toEmptied, next.next.trans idle.next⟩
  exact ⟨idle.state, idle.relays, idle.next⟩

/-- The condition leaves out only messages that start a session, stopped or not. -/
theorem mem_relays_addResponse (remote : n.type = .remoteServer) (throws : Throws) (k : RelayId)
    {buf : Frame} (starts : buf.cmd = .startTcp ∨ buf.cmd = .dataUdp) :
    (n.addResponse throws k buf).Both fun m => buf.session ∈ m.relays := by
  let noted : Node := { n with answered := n.answered ++ [(k, buf)] }
  have slot : buf.session ∈ (noted.relaySlot buf.session).relays := by
    unfold relaySlot
    split
    · assumption
    · exact Map.mem_insert.mpr (.inl rfl)
  unfold addResponse
  rcases starts with start | data
  · simp only [start]
    obtain ⟨t, relays, _, _, eq⟩ := remoteServerStartTcp_slot noted throws buf
    rw [eq]
    split
    · exact (congrArg (buf.session ∈ ·) relays).mpr slot
    · refine (relays_startRawTcp _ throws t.next buf.session).mono fun m same => ?_
      exact (congrArg (buf.session ∈ ·) same).mpr (Map.mem_insert.mpr (.inl rfl))
  · have filled (r : RelayId) :
        (((noted.relaySlot buf.session).addRemoteRawUdp throws buf.session).andThen fun m =>
          .ok (m.call r (.sendData buf))).Both fun m => buf.session ∈ m.relays := by
      have outcome := relays_addRemoteRawUdp (noted.relaySlot buf.session) throws buf.session
      refine Fallible.Both.andThen (P := fun m : Node => buf.session ∈ m.relays) ?_
        fun _ there => there
      generalize (noted.relaySlot buf.session).addRemoteRawUdp throws buf.session = x at outcome
      cases x with
      | ok m => exact (congrArg (buf.session ∈ ·) outcome).mpr (Map.mem_insert.mpr (.inl rfl))
      | error m => exact (congrArg (buf.session ∈ ·) outcome.1).mpr slot
    have sent : (noted.remoteServerSendUdp throws buf).Both fun m => buf.session ∈ m.relays := by
      unfold remoteServerSendUdp
      simp only
      split
      · split
        · exact filled _
        · exact slot
      · exact filled _
    simp only [data]
    split
    · rename_i transparent
      cases remote.symm.trans transparent
    · exact sent
    · rename_i localServer
      cases remote.symm.trans localServer

/-- A message has arrived when the ssl relay stops, and the manager is stopped before it
handles it. -/
def lateMessage (buf : Frame) : List NodeAction :=
  requestSent ++ arrives buf ++ requestLost ++ [.relay 0 .read, .manager {}]

theorem managerStop_empty_late :
    ∃ n, Reachable step initRemote n ∧ n.state = .stop ∧ n.answered.length = 2 ∧ n.relays = ∅ := by
  have run := @Reach.of_isSome _ _ step StopMeets initRemote _ (lateMessage ⟨3, .dataTcp, [1]⟩)
    (by decide +kernel)
  exact ⟨_, run.reachable, by decide +kernel, by decide +kernel,
    (managerStop_empty run (by decide +kernel)).1⟩

/-- **A relay escapes the stop**: the manager is stopped, but a `START_TCP` that was on its way
makes a raw_tcp in it; then the timer ends, and nobody owns the manager. -/
theorem managerStop_escapes :
    ∃ n, Reachable step initRemote n ∧ n.state = .stop ∧ 3 ∉ n.relays ∧ 5 ∉ n.relays ∧
      ∃ m, Reachable step n m ∧ m.state = .stop ∧ m.relays.lookup 5 = some (some 2) ∧
        (m.objs 2).kind = .rawTcp ∧ (m.objs 2).startup = .resolve ∧ (m.objs 2).state ≠ .stop ∧
        (m.objs 2).inbox = [] ∧ m.timer = false ∧ m.alive = false := by
  have first := @Reach.of_isSome _ _ step anyStep initRemote _
    (requestSent ++ arrives ⟨5, .startTcp, [1, 8, 8, 8, 8, 0, 53]⟩ ++ requestLost)
    (by decide +kernel)
  exact ⟨_, first, by decide +kernel, by decide +kernel, by decide +kernel, _,
    .of_isSome [.relay 0 .read, .manager {}, .tick] (by decide +kernel),
    by decide +kernel, by decide +kernel, by decide +kernel, by decide +kernel, by decide +kernel,
    by decide +kernel, by decide +kernel, by decide +kernel⟩

end Node

end SslSocks
