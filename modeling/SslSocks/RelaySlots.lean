import SslSocks.NodeLedger

/-!
# Half-made sessions in `_relays`

`_relays[session]` makes an entry with a null pointer before the steps that may fail:
`parse_address` of a `START_TCP`, the constructor and `start_relay` of a raw_udp. When one
of them throws the entry stays, and the next `DATA_TCP` or `STOP_TCP` for the session goes
through the null pointer. `SlotsMeet` excludes these steps, and those in which the start of
a session throws after its entry is complete; `relaySlots_whole` shows that in every other
run no entry is null and a handler that throws leaves the sessions as they were.
-/

namespace SslSocks

open Lib

namespace Node

/-- No session has a null pointer. -/
def NoNull (n : Node) : Prop := ∀ s, n.relays.lookup s ≠ some none

/-- `start_relay` of the raw_tcp throws: `impl_start_transparent` fails, and so does the
`STOP_TCP` of its catch block, for want of an ssl relay. -/
def StartThrows (n : Node) (throws : Throws) (r : RelayId) : Prop :=
  n.type = .localTransparent ∧ n.sslDown ∧ throws.newSslAgain ∧
    (throws.localEndpoint ∨ (n.objs r).sock = false ∨ throws.newSsl)

instance (n : Node) (throws : Throws) (r : RelayId) : Decidable (n.StartThrows throws r) :=
  inferInstanceAs (Decidable (_ ∧ _ ∧ _ ∧ _))

/-- The handler makes a session whole or not at all. A raw_tcp made for a `START_TCP` has
no connection yet, so its start by `impl_start_transparent` fails. -/
def SlotsMeetTask (n : Node) (throws : Throws) : ManagerTask → Prop
  | .addLocalRawTcp r => n.session ∈ n.relays ∨ ¬ n.StartThrows throws r
  | .addResponse _ buf =>
    (buf.cmd = .startTcp → buf.session ∈ n.relays ∨
      (parseAddress buf.payload buf.payload.length).isOk ∧
        ¬ (n.type = .localTransparent ∧ n.sslDown ∧ throws.newSslAgain)) ∧
    (buf.cmd = .dataUdp → n.type = .remoteServer → buf.session ∈ n.relays ∨
      throws.newUdp = false ∧ throws.startUdp = false) ∧
    (buf.cmd = .dataTcp → n.type ≠ .remoteServer → n.sslDown → throws.newSsl = false)
  | _ => True

instance (n : Node) (throws : Throws) : DecidablePred (n.SlotsMeetTask throws)
  | .addLocalRawTcp _ => inferInstanceAs (Decidable (_ ∨ _))
  | .addResponse _ _ => inferInstanceAs (Decidable (_ ∧ _ ∧ _))
  | .addRequest _ _ | .sendUdpData _ _ => isTrue trivial

/-- The condition on a step. -/
def SlotsMeet (n : Node) : NodeAction → Prop
  | .manager throws => ∀ task ∈ n.strand.head?, n.SlotsMeetTask throws task
  | _ => True

instance (n : Node) : DecidablePred n.SlotsMeet
  | .manager _ => inferInstanceAs (Decidable (∀ _ ∈ _, _))
  | .accept _ | .udpPacket _ _ _ | .tick | .release | .relay _ _ => isTrue trivial

variable {n m : Node}

/-! ## Handlers that make no session -/

theorem NoNull.quiet (whole : NoNull n) (quiet : Quiet n m) : NoNull m :=
  fun s found => whole s (quiet.relays found)

theorem NoNull.insert (whole : NoNull n) (s : UInt32) (r : RelayId) {m : Node}
    (relays : m.relays = n.relays.insert s (some r)) : NoNull m := by
  intro s' found
  rw [relays, Map.lookup_insert] at found
  split at found
  · cases found
  · exact whole s' found

/-- `add_request` throws on the local side only, where the new `ssl_relay` cannot be made. -/
theorem addRequest_error {throws : Bool} {relay : Option RelayId} {buf : Frame}
    (threw : n.addRequest throws relay buf = .error m) :
    m.relays = n.relays ∧ n.sslDown ∧ throws ∧ n.type ≠ .remoteServer := by
  unfold addRequest at threw
  by_cases down : n.sslDown
  · rw [if_pos down] at threw
    simp only at threw
    split at threw
    · cases threw
    · rename_i localSide
      split at threw
      · rename_i newSsl
        cases threw
        exact ⟨rfl, down, newSsl, localSide⟩
      · cases threw
  · rw [if_neg down] at threw
    cases threw

theorem relays_sendSsl (n : Node) (relay : Option RelayId) (buf : Frame) :
    (n.sendSsl relay buf).relays = n.relays := by
  unfold sendSsl
  split <;> rfl

theorem relays_addRequest (localSide : n.type ≠ .remoteServer) (throws : Bool)
    (relay : Option RelayId) (buf : Frame) :
    (n.addRequest throws relay buf).Both fun m => m.relays = n.relays := by
  unfold addRequest
  split
  · simp only
    split
    · exact rfl
    · have sent := relays_sendSsl { n.make n.newSslRelay with ssl := some n.next } relay buf
      exact sent
  · exact relays_sendSsl n relay buf

theorem relays_implStartTransparent (localSide : n.type ≠ .remoteServer) (throws : Throws)
    (r : RelayId) : (n.implStartTransparent throws r).Both fun m => m.relays = n.relays := by
  have request {n : Node} (localSide : n.type ≠ .remoteServer) (throws : Bool) (buf : Frame) :
      (n.relayRequest throws r buf).Both fun m => m.relays = n.relays :=
    relays_addRequest (n := n.call r (.emit buf)) localSide throws (some r) buf
  have tried : (n.tryStartTransparent throws r).Both fun m =>
      m.relays = n.relays ∧ m.type = n.type := by
    refine ⟨?_, (quiet_tryStartTransparent n throws r).type⟩
    unfold tryStartTransparent
    split
    · exact rfl
    · exact (request localSide throws.newSsl _).andThen fun m same => same
  unfold implStartTransparent
  cases ended : n.tryStartTransparent throws r with
  | ok m =>
    rw [ended] at tried
    exact tried.1
  | error m =>
    rw [ended] at tried
    have again := request (n := m) (tried.2 ▸ localSide) throws.newSslAgain
      ⟨(m.objs r).session, .stopTcp, []⟩
    exact Fallible.Both.andThen (again.mono fun _ same => same.trans tried.1) fun _ same => same

theorem relays_startRawTcp (n : Node) (throws : Throws) (r : RelayId) (session : UInt32) :
    (n.startRawTcp throws r session).Both fun m => m.relays = n.relays := by
  unfold startRawTcp
  simp only
  split
  · rename_i transparent
    have localSide : (n.call r (.begin session)).type ≠ .remoteServer := by
      rw [transparent]
      exact nofun
    exact relays_implStartTransparent localSide throws r
  · exact rfl

/-- When the start of a raw_tcp throws, the connection for it and the `STOP_TCP` failed. -/
theorem startRawTcp_error {throws : Throws} {r : RelayId} {session : UInt32}
    (threw : n.startRawTcp throws r session = .error m) : n.StartThrows throws r := by
  unfold startRawTcp at threw
  simp only at threw
  split at threw
  · rename_i transparent
    have requested {k m : Node} {throws : Bool} {buf : Frame}
        (threw : k.relayRequest throws r buf = .error m) : k.sslDown ∧ throws := by
      obtain ⟨_, down, newSsl, _⟩ := addRequest_error threw
      exact ⟨sslDown_call k r (.emit buf) ▸ down, newSsl⟩
    have begun := sslDown_call n r (.begin session)
    have sock : ((n.call r (.begin session)).objs r).sock = (n.objs r).sock := by
      rw [objs_call, if_pos rfl]
      rfl
    have isTransparent : n.type = .localTransparent := transparent
    generalize n.call r (.begin session) = b at *
    unfold implStartTransparent at threw
    cases tried : b.tryStartTransparent throws r with
    | ok k =>
      rw [tried] at threw
      cases threw
    | error k =>
      rw [tried] at threw
      simp only at threw
      have again : k.sslDown ∧ throws.newSslAgain := by
        cases ended : k.relayRequest throws.newSslAgain r ⟨(k.objs r).session, .stopTcp, []⟩ with
        | ok k' =>
          rw [ended] at threw
          cases threw
        | error k' => exact requested ended
      unfold tryStartTransparent at tried
      split at tried
      · rename_i closed
        cases tried
        rw [sock] at closed
        exact ⟨isTransparent, begun ▸ again.1, again.2, closed.imp id .inl⟩
      · cases ended : b.relayRequest throws.newSsl r
            ⟨(b.objs r).session, .startTcp, parseAddr (b.objs r).tcp.localEndpoint⟩ with
        | ok k' =>
          rw [ended] at tried
          cases tried
        | error k' =>
          obtain ⟨down, newSsl⟩ := requested ended
          exact ⟨isTransparent, begun ▸ down, again.2, .inr (.inr newSsl)⟩
  · cases threw

/-! ## Whole handlers -/

/-- A handler leaves no null pointer, and the sessions as they were if it throws. -/
structure Whole (n : Node) (x : Fallible Node) : Prop where
  noNull : x.Both NoNull
  keys : ∀ m, x = .error m → ∀ s, s ∈ m.relays ↔ s ∈ n.relays

/-- A part that does not throw. -/
theorem Whole.ok (whole : NoNull m) : Whole n (.ok m) := ⟨whole, nofun⟩

/-- A part that throws before `_relays` is touched. -/
theorem Whole.error (whole : NoNull n) (same : m.relays = n.relays) : Whole n (.error m) where
  noNull := fun s found => whole s (same ▸ found)
  keys := fun k eq s => by
    cases eq
    rw [same]

/-- A handler that keeps `_relays` when it throws, and adds no session otherwise. -/
theorem Whole.of_quiet {x : Fallible Node} (whole : NoNull n) (quiet : x.Both (Quiet n))
    (same : ∀ m, x = .error m → m.relays = n.relays) : Whole n x where
  noNull := quiet.mono fun _ => whole.quiet
  keys := fun m eq s => by rw [same m eq]

theorem whole_addRequest (whole : NoNull n) (throws : Bool) (relay : Option RelayId)
    (buf : Frame) : Whole n (n.addRequest throws relay buf) :=
  .of_quiet whole (quiet_addRequest n throws relay buf) fun _ threw => (addRequest_error threw).1

theorem relays_startRawUdp {keep : Node → Node} (n : Node) (throws : Throws) (session : UInt32)
    (kept : ∀ m, (keep m).relays = m.relays) :
    (n.startRawUdp throws session keep).Both fun m => m.relays = n.relays := by
  have made := kept (n.make (n.newRawUdp session))
  unfold startRawUdp
  split
  · exact rfl
  · simp only
    split
    · exact made
    · exact made

theorem relays_restartUdp (n : Node) (throws : Throws) :
    (n.restartUdp throws).Both fun m => m.relays = n.relays := by
  unfold restartUdp
  split
  · exact relays_startRawUdp n throws 0 fun _ => rfl
  · exact rfl

theorem relays_callUdpSend (n : Node) (c : RelayCall) : (n.callUdpSend c).relays = n.relays := by
  unfold callUdpSend
  split <;> rfl

theorem whole_addLocalRawTcp (whole : NoNull n) {throws : Throws} {r : RelayId}
    (meets : n.SlotsMeetTask throws (.addLocalRawTcp r)) :
    Whole n (n.addLocalRawTcp throws r) := by
  unfold addLocalRawTcp
  simp only
  split
  · exact .ok whole
  · rename_i fresh
    let added : Node := { n with
      session := n.session + 1
      allocated := n.allocated + 1
      relays := n.relays.insert n.session (some r)
      issued := n.issued ++ [Issue.tcp n.session r] }
    have started := quiet_startRawTcp added throws r n.session
    constructor
    · exact started.mono fun _ => (whole.insert n.session r (m := added) rfl).quiet
    · intro m threw
      have starts : n.StartThrows throws r := startRawTcp_error (n := added) threw
      rcases meets with there | never
      · exact absurd there fresh
      · exact absurd starts never

theorem whole_responseDataTcp (whole : NoNull n) {throws : Throws} {buf : Frame}
    (meets : n.type ≠ .remoteServer → n.sslDown → throws.newSsl = false) :
    Whole n (n.responseDataTcp throws buf) := by
  have quiet := quiet_responseDataTcp n throws buf
  have never (m : Node) : n.responseDataTcp throws buf ≠ .error m := by
    intro threw
    unfold responseDataTcp at threw
    split at threw
    · cases threw
    · cases threw
    · split at threw
      · obtain ⟨_, down, newSsl, localSide⟩ := addRequest_error threw
        have none := meets localSide down
        rw [none] at newSsl
        cases newSsl
      · cases threw
  exact .of_quiet whole quiet fun m threw => absurd threw (never m)

theorem whole_localTransparentSendUdp (whole : NoNull n) (throws : Throws) (buf : Frame) :
    Whole n (n.localTransparentSendUdp throws buf) := by
  have restarted := relays_restartUdp n throws
  refine .of_quiet whole (quiet_localTransparentSendUdp n throws buf) fun m threw => ?_
  unfold localTransparentSendUdp at threw
  cases ended : n.restartUdp throws with
  | ok k =>
    rw [ended] at threw
    cases threw
  | error k =>
    rw [ended] at threw restarted
    cases threw
    exact restarted

/-- The slot of a session that has a relay is left alone. -/
theorem relaySlot_of_mem {session : UInt32} (there : session ∈ n.relays) :
    n.relaySlot session = n := if_pos there

/-- `add_remote_raw_udp` fills the slot of its session, or throws and leaves it. -/
theorem relays_addRemoteRawUdp (n : Node) (throws : Throws) (session : UInt32) :
    match n.addRemoteRawUdp throws session with
    | .ok m => m.relays = n.relays.insert session (some n.next)
    | .error m => m.relays = n.relays ∧ (throws.newUdp ∨ throws.startUdp) := by
  unfold addRemoteRawUdp startRawUdp
  by_cases newUdp : throws.newUdp
  · rw [if_pos newUdp]
    exact ⟨rfl, .inl newUdp⟩
  · rw [if_neg newUdp]
    by_cases startUdp : throws.startUdp
    · simp only [if_pos startUdp]
      exact ⟨rfl, .inr startUdp⟩
    · simp only [if_neg startUdp]
      exact rfl

/-- A raw_udp is made for a session that has a slot. -/
theorem whole_freshUdp {k : Node} {throws : Throws} {session : UInt32} {call : Node → Node}
    (whole : NoNull n) (slot : k.relays = (n.relaySlot session).relays)
    (called : ∀ m, (call m).relays = m.relays)
    (meets : session ∈ n.relays ∨ throws.newUdp = false ∧ throws.startUdp = false) :
    Whole n ((k.addRemoteRawUdp throws session).andThen fun m => .ok (call m)) := by
  have outcome := relays_addRemoteRawUdp k throws session
  cases ended : k.addRemoteRawUdp throws session with
  | ok m =>
    rw [ended] at outcome
    refine .ok fun s found => ?_
    have filled : (call m).relays = k.relays.insert session (some k.next) :=
      (called m).trans outcome
    rw [filled, Map.lookup_insert] at found
    split at found
    · cases found
    · rename_i other
      rw [slot] at found
      unfold relaySlot at found
      split at found
      · exact whole s found
      · rw [Map.lookup_insert, if_neg other] at found
        exact whole s found
  | error m =>
    rw [ended] at outcome
    obtain ⟨same, threw⟩ := outcome
    rcases meets with there | ⟨newUdp, startUdp⟩
    · refine .error whole (same.trans ?_)
      rw [slot, relaySlot_of_mem there]
    · rcases threw with threw | threw
      · rw [newUdp] at threw
        cases threw
      · rw [startUdp] at threw
        cases threw

theorem whole_remoteServerSendUdp (whole : NoNull n) {throws : Throws} {buf : Frame}
    (meets : buf.session ∈ n.relays ∨ throws.newUdp = false ∧ throws.startUdp = false) :
    Whole n (n.remoteServerSendUdp throws buf) := by
  have fresh := @whole_freshUdp n (n.relaySlot buf.session) throws buf.session
    (fun m => m.call (n.relaySlot buf.session).next (.sendData buf)) whole rfl (fun _ => rfl) meets
  unfold remoteServerSendUdp
  simp only
  split
  · rename_i r found
    split
    · exact fresh
    · have there : buf.session ∈ n.relays := by
        by_contra missing
        rw [relaySlot, if_neg missing, Map.lookup_insert_self] at found
        cases found
      rw [relaySlot_of_mem there]
      exact .ok whole
  · exact fresh

/-- The slot of another session is what it was. -/
theorem lookup_relaySlot {session s : UInt32} (other : s ≠ session) :
    (n.relaySlot session).relays.lookup s = n.relays.lookup s := by
  unfold relaySlot
  split
  · rfl
  · exact Map.lookup_insert.trans (if_neg other)

/-- `remote_server_start_tcp` after it has made the slot and stopped the old relay. -/
theorem remoteServerStartTcp_slot (n : Node) (throws : Throws) (buf : Frame) :
    ∃ k : Node, k.relays = (n.relaySlot buf.session).relays ∧ k.sslDown = n.sslDown ∧
      k.type = n.type ∧ n.remoteServerStartTcp throws buf =
        match parseAddress buf.payload buf.payload.length with
        | .error _ => .error k
        | .ok target => k.addRemoteRawTcp throws buf.session target := by
  have down : (n.relaySlot buf.session).sslDown = n.sslDown := by
    unfold relaySlot
    split <;> rfl
  have type := (sameTables_relaySlot n buf.session).type
  refine ⟨_, ?_, ?_, ?_, rfl⟩
  · cases ((n.relaySlot buf.session).relays.lookup buf.session).join <;> rfl
  · cases ((n.relaySlot buf.session).relays.lookup buf.session).join with
    | none => exact down
    | some r => exact (sslDown_call _ r .stopRelay).trans down
  · cases ((n.relaySlot buf.session).relays.lookup buf.session).join <;> exact type

/-- A relay that was just made is not a stopped ssl relay. -/
theorem sslDown_make {relay : Relay} (running : relay.state ≠ .stop)
    (down : (n.make relay).sslDown) : n.sslDown := by
  have same : (n.make relay).ssl = n.ssl := rfl
  unfold sslDown at down ⊢
  rw [same] at down
  cases current : n.ssl with
  | none => rfl
  | some k =>
    rw [current] at down
    simp only [objs_make] at down
    split at down
    · exact absurd (of_decide_eq_true down) running
    · exact down

theorem whole_remoteServerStartTcp (whole : NoNull n) {throws : Throws} {buf : Frame}
    (meets : buf.session ∈ n.relays ∨ (parseAddress buf.payload buf.payload.length).isOk ∧
      ¬ (n.type = .localTransparent ∧ n.sslDown ∧ throws.newSslAgain)) :
    Whole n (n.remoteServerStartTcp throws buf) := by
  obtain ⟨k, relays, down, type, eq⟩ := remoteServerStartTcp_slot n throws buf
  rw [eq]
  cases parsed : parseAddress buf.payload buf.payload.length with
  | error e =>
    rcases meets with there | ⟨readable, _⟩
    · exact .error whole (relays.trans (by rw [relaySlot_of_mem there]))
    · rw [parsed] at readable
      cases readable
  | ok target =>
    let made : Node := { k.make (k.newRawTcp (some target)) with
      relays := k.relays.insert buf.session (some k.next) }
    have inserted : made.relays = k.relays.insert buf.session (some k.next) := rfl
    have started : (k.addRemoteRawTcp throws buf.session target).Both
        fun m => m.relays = made.relays := relays_startRawTcp made throws k.next buf.session
    have filled : NoNull made := by
      intro s found
      rw [inserted, Map.lookup_insert] at found
      split at found
      · cases found
      · rename_i other
        rw [relays, lookup_relaySlot other] at found
        exact whole s found
    constructor
    · exact started.mono fun m same s found => filled s (same ▸ found)
    · intro m threw s
      simp only at threw
      have starts : made.StartThrows throws k.next := startRawTcp_error (n := made) threw
      rw [threw] at started
      have same : m.relays = made.relays := started
      rcases meets with there | ⟨_, never⟩
      · rw [same, inserted, relays, relaySlot_of_mem there, Map.mem_insert,
          or_iff_right_of_imp]
        rintro rfl
        exact there
      · obtain ⟨transparent, sslDown, newSslAgain, _⟩ := starts
        have running : (k.newRawTcp (some target)).state ≠ .stop := by
          intro stopped
          cases stopped
        have kDown : k.sslDown := sslDown_make running sslDown
        exact absurd ⟨type ▸ transparent, down ▸ kDown, newSslAgain⟩ never

theorem whole_addResponse (whole : NoNull n) {throws : Throws} {k : RelayId} {buf : Frame}
    (meets : n.SlotsMeetTask throws (.addResponse k buf)) :
    Whole n (n.addResponse throws k buf) := by
  let noted : Node := { n with answered := n.answered ++ [(k, buf)] }
  obtain ⟨startTcp, dataUdp, dataTcp⟩ := meets
  have wholeNoted : NoNull noted := whole
  suffices done : Whole noted (n.addResponse throws k buf) from ⟨done.noNull, done.keys⟩
  unfold addResponse
  simp only
  split
  · rename_i cmd
    exact whole_responseDataTcp wholeNoted (dataTcp cmd)
  · rename_i cmd
    split
    · have sent := whole_localTransparentSendUdp wholeNoted throws buf
      generalize noted.localTransparentSendUdp throws buf = x at sent
      cases x with
      | ok m => exact .ok (show NoNull m from sent.noNull)
      | error m => exact sent
    · rename_i remote
      exact whole_remoteServerSendUdp wholeNoted (dataUdp cmd remote)
    · exact .ok wholeNoted
  · rename_i cmd
    exact whole_remoteServerStartTcp wholeNoted (startTcp cmd)
  · exact .ok (wholeNoted.quiet (quiet_responseStopTcp noted buf))
  · exact .ok wholeNoted

theorem whole_sendUdpData (whole : NoNull n) (throws : Throws) (src : Endpoint) (buf : Frame) :
    Whole n (n.sendUdpData throws src buf) := by
  have forwarded {k : Node} (same : k.relays = n.relays) :
      Whole n (k.forwardUdp throws src buf) := by
    have sent := whole_addRequest (n := { k with
      srcs := k.srcs.insert src { k.source src with timeout := timeoutTicks } })
      (fun s found => whole s (same ▸ found)) throws.newSsl none
      { buf with session := (k.source src).session }
    refine ⟨sent.noNull, fun m threw s => ?_⟩
    have keys := sent.keys m threw s
    rw [show m.relays = _ from (addRequest_error threw).1]
    show s ∈ k.relays ↔ _
    rw [same]
  unfold sendUdpData
  split
  · unfold newSource
    have restarted := relays_restartUdp (n.assignSession src (n.source src)) throws
    cases ended : (n.assignSession src (n.source src)).restartUdp throws with
    | ok m =>
      rw [ended] at restarted
      exact forwarded ((relays_callUdpSend m _).trans restarted)
    | error m =>
      rw [ended] at restarted
      exact .error whole restarted
  · exact forwarded rfl

theorem whole_runTask (whole : NoNull n) {throws : Throws} {task : ManagerTask}
    (meets : n.SlotsMeetTask throws task) : Whole n (n.runTask throws task) := by
  cases task with
  | addRequest relay buf => exact whole_addRequest whole throws.newSsl (some relay) buf
  | addResponse relay buf => exact whole_addResponse whole meets
  | addLocalRawTcp relay => exact whole_addLocalRawTcp whole meets
  | sendUdpData src buf => exact whole_sendUdpData whole throws src buf

/-! ## Runs -/

theorem noNull_tick (whole : NoNull n) : NoNull n.tick := by
  refine tick_rule (whole.quiet (quiet_sslTimeout n)) (fun {m} _ _ _ => ?_) (fun {m} holds => ?_)
    (fun {m src entry} holds _ => ?_) (fun holds _ => ?_) fun holds _ => holds
  · intro s found
    have empty : (∅ : Map UInt32 (Option RelayId)).lookup s = some none := found
    rw [Map.lookup_empty] at empty
    cases empty
  · intro s found
    have same : m.clearSources.relays = m.relays := relays_callUdpSend _ _
    exact holds s (same ▸ found)
  · intro s found
    have same : (m.visitSource src entry).relays = m.relays := by
      unfold visitSource
      split
      · exact relays_callUdpSend _ _
      · rfl
    exact holds s (same ▸ found)
  · exact holds.quiet (quiet_visitRelay _ _ _)

theorem noNull_step {a : NodeAction} (whole : NoNull n) (meets : n.SlotsMeet a)
    (stepped : n.step a = some m) : NoNull m := by
  cases stepIs_of_step stepped with
  | accept _ | udpPacket _ | release _ | relay _ _ => exact whole
  | tick _ => exact noNull_tick whole
  | @manager throws task strand queue =>
    have meetsTask : n.SlotsMeetTask throws task := meets task (by rw [queue]; rfl)
    have popped : Node.NoNull { n with strand } := whole
    have meetsPopped : Node.SlotsMeetTask { n with strand } throws task := by
      cases task with
      | addRequest | sendUdpData => trivial
      | addLocalRawTcp r => exact meetsTask
      | addResponse k buf => exact meetsTask
    exact (whole_runTask popped meetsPopped).noNull

theorem noNull_starts {n₀ : Node} (starts : Starts n₀) : NoNull n₀ := by
  intro s found
  have empty : n₀.relays.lookup s = none := by cases starts <;> exact Map.lookup_empty s
  rw [empty] at found
  cases found

/-! ## No null pointer is called -/

theorem crashed_stopManager (n : Node) : n.stopManager.crashed = n.crashed := by
  show (n.relays.sweep (fun n _ relay => relay.elim n fun r => n.call r .stopRelay) n).crashed = _
  refine Map.sweep_invariant (P := fun m : Node => m.crashed = n.crashed) rfl fun {m _ relay} same _ => ?_
  cases relay with
  | none => exact same
  | some r => exact same

theorem crashed_sendSsl (n : Node) (relay : Option RelayId) (buf : Frame) :
    (n.sendSsl relay buf).crashed = n.crashed := by
  unfold sendSsl
  split <;> rfl

theorem crashed_addRequest (n : Node) (throws : Bool) (relay : Option RelayId) (buf : Frame) :
    (n.addRequest throws relay buf).Both fun m => m.crashed = n.crashed := by
  unfold addRequest
  split
  · simp only
    split
    · exact crashed_stopManager _
    · split
      · exact rfl
      · have sent := crashed_sendSsl { n.make n.newSslRelay with ssl := some n.next } relay buf
        exact sent
  · exact crashed_sendSsl n relay buf

/-- Where no session has a null pointer, `DATA_TCP` and `STOP_TCP` go through none. -/
theorem crashed_addResponse (whole : NoNull n) {throws : Throws} {k : RelayId} {buf : Frame}
    (cmd : buf.cmd = .dataTcp ∨ buf.cmd = .stopTcp) :
    (n.addResponse throws k buf).Both fun m => m.crashed = n.crashed := by
  unfold addResponse
  rcases cmd with cmd | cmd
  · simp only [cmd]
    unfold responseDataTcp
    split
    · exact rfl
    · rename_i null
      exact absurd null (whole buf.session)
    · split
      · exact crashed_addRequest _ _ _ _
      · exact rfl
  · simp only [cmd]
    unfold responseStopTcp
    split
    · exact rfl
    · rename_i null
      exact absurd null (whole buf.session)
    · exact rfl

/-- **No half-made session is left**: in every run under the condition no session has a
null pointer between handlers, a handler that throws leaves the sessions as they were, and
no `DATA_TCP` or `STOP_TCP` message goes through a null pointer. -/
theorem relaySlots_whole {n₀ : Node} (starts : Starts n₀) (run : Reach step SlotsMeet n₀ n) :
    (∀ s, n.relays.lookup s ≠ some none) ∧
    (∀ throws task strand, n.strand = task :: strand → n.SlotsMeetTask throws task →
      ∀ m, ({ n with strand }).runTask throws task = .error m →
        ∀ s, s ∈ m.relays ↔ s ∈ n.relays) ∧
    ∀ throws k buf strand, n.strand = .addResponse k buf :: strand →
      buf.cmd = .dataTcp ∨ buf.cmd = .stopTcp →
        (({ n with strand }).runTask throws (.addResponse k buf)).state.crashed = n.crashed := by
  have whole : NoNull n :=
    run.invariant (noNull_starts starts) fun _ whole meets stepped => noNull_step whole meets stepped
  refine ⟨whole, fun throws task strand _ meets => ?_, fun throws k buf strand _ cmd => ?_⟩
  · exact (@whole_runTask { n with strand } whole throws task
      (by cases task <;> exact meets)).keys
  · exact crashed_addResponse (n := { n with strand }) whole cmd

/-- The ssl connection brings a message, and the manager handles it. -/
def bring (buf : Frame) : List NodeAction :=
  [.relay 0 (.arrive (.stream buf.head.bytes)), .relay 0 .read] ++
    (if buf.payload = [] then []
      else [.relay 0 (.arrive (.stream buf.payload)), .relay 0 .read]) ++ [.manager {}]

/-- The address of a `START_TCP`. -/
def startOf (addr : List UInt8) : Frame := ⟨3, .startTcp, addr⟩

/-- A session is started and gets data. -/
theorem relaySlots_whole_started :
    ∃ n, Reachable step initRemote n ∧ n.relays.lookup 3 = some (some 1) ∧
      n.crashed = false ∧ ∀ s, n.relays.lookup s ≠ some none := by
  have run := @Reach.of_isSome _ _ step SlotsMeet initRemote _
    (.relay 0 (.startup true) :: bring (startOf [1, 8, 8, 8, 8, 0, 53]) ++
      bring ⟨3, .dataTcp, [1]⟩) (by decide +kernel)
  exact ⟨_, run.reachable, by decide +kernel, by decide +kernel,
    (relaySlots_whole .remote run).1⟩

/-- **A null pointer stays behind.** The address of a `START_TCP` for a new session is
unreadable, `parse_address` throws, and the next `DATA_TCP` of the session is sent to the
null pointer that its slot was made with. -/
theorem relaySlots_halfMade :
    ∃ n, Reachable step initRemote n ∧ n.crashed = false ∧ n.relays.lookup 3 = some none ∧
      ∃ m, Reachable step n m ∧ m.crashed = true := by
  have first := @Reach.of_isSome _ _ step anyStep initRemote _
    (.relay 0 (.startup true) :: bring (startOf [9])) (by decide +kernel)
  exact ⟨_, first, by decide +kernel, by decide +kernel, _,
    .of_isSome (bring ⟨3, .dataTcp, [1]⟩) (by decide +kernel), by decide +kernel⟩

end Node

end SslSocks
