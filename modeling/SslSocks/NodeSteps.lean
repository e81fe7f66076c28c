import SslSocks.Manager

/-!
# What the manager's handlers leave alone

`Node.SameTables` says that a part of a handler kept the UDP tables, the counter of
session ids and everything that surrounds the manager; `Node.Quiet` adds that no
session appeared in `_relays`. One lemma for each part of a handler says which of
the two it does, whether it throws or not, so that an invariant of the tables is
checked on the few places that change them.
-/

namespace SslSocks

open Lib

namespace Node

/-- The UDP tables, the session ids and the surroundings are as before. -/
structure SameTables (n m : Node) : Prop where
  type : m.type = n.type
  srcs : m.srcs = n.srcs
  udpSrcs : m.udpSrcs = n.udpSrcs
  session : m.session = n.session
  issued : m.issued = n.issued
  allocated : m.allocated = n.allocated
  answered : m.answered = n.answered
  strand : m.strand = n.strand
  timer : m.timer = n.timer
  held : m.held = n.held

/-- In addition the entries of `_relays` were there before. -/
structure Quiet (n m : Node) : Prop extends SameTables n m where
  relays : ∀ {s relay}, m.relays.lookup s = some relay → n.relays.lookup s = some relay

variable {n m k : Node}

theorem SameTables.refl (n : Node) : SameTables n n :=
  ⟨rfl, rfl, rfl, rfl, rfl, rfl, rfl, rfl, rfl, rfl⟩

theorem SameTables.trans (first : SameTables n m) (second : SameTables m k) : SameTables n k where
  type := second.type.trans first.type
  srcs := second.srcs.trans first.srcs
  udpSrcs := second.udpSrcs.trans first.udpSrcs
  session := second.session.trans first.session
  issued := second.issued.trans first.issued
  allocated := second.allocated.trans first.allocated
  answered := second.answered.trans first.answered
  strand := second.strand.trans first.strand
  timer := second.timer.trans first.timer
  held := second.held.trans first.held

theorem Quiet.refl (n : Node) : Quiet n n := ⟨SameTables.refl n, id⟩

theorem Quiet.trans (first : Quiet n m) (second : Quiet m k) : Quiet n k :=
  ⟨first.toSameTables.trans second.toSameTables, first.relays ∘ second.relays⟩

/-- Parts in sequence. -/
theorem Quiet.andThen {x : Fallible Node} {f : Node → Fallible Node}
    (first : x.Both (Quiet n)) (second : ∀ m, (f m).Both (Quiet m)) :
    (x.andThen f).Both (Quiet n) :=
  first.andThen fun m quiet => (second m).mono fun _ => quiet.trans

theorem source_of_lookup {src : Endpoint} {entry : UdpTimeout}
    (found : n.srcs.lookup src = some entry) : n.source src = entry := by
  rw [source, found]
  rfl

theorem quiet_call (n : Node) (r : RelayId) (c : RelayCall) : Quiet n (n.call r c) :=
  ⟨⟨rfl, rfl, rfl, rfl, rfl, rfl, rfl, rfl, rfl, rfl⟩, id⟩

theorem quiet_make (n : Node) (relay : Relay) : Quiet n (n.make relay) :=
  ⟨⟨rfl, rfl, rfl, rfl, rfl, rfl, rfl, rfl, rfl, rfl⟩, id⟩

theorem quiet_stopManager (n : Node) : Quiet n n.stopManager := by
  have stopped : Quiet n (n.relays.sweep
      (fun n _ relay => relay.elim n fun r => n.call r .stopRelay) n) := by
    refine Map.sweep_invariant (Quiet.refl n) fun {m _ relay} quiet _ => ?_
    cases relay with
    | none => exact quiet
    | some r => exact quiet.trans (quiet_call m r _)
  obtain ⟨⟨type, srcs, udpSrcs, session, issued, allocated, answered, strand, timer, held⟩, _⟩ :=
    stopped
  exact ⟨⟨type, srcs, udpSrcs, session, issued, allocated, answered, strand, timer, held⟩,
    fun {s relay} found => by
      have none : (∅ : Map UInt32 (Option RelayId)).lookup s = some relay := found
      rw [Map.lookup_empty] at none
      cases none⟩

theorem quiet_sendSsl (n : Node) (relay : Option RelayId) (buf : Frame) :
    Quiet n (n.sendSsl relay buf) := by
  unfold sendSsl
  split
  · exact Quiet.refl n
  · exact ⟨⟨rfl, rfl, rfl, rfl, rfl, rfl, rfl, rfl, rfl, rfl⟩, id⟩

theorem quiet_addRequest (n : Node) (throws : Bool) (relay : Option RelayId) (buf : Frame) :
    (n.addRequest throws relay buf).Both (Quiet n) := by
  have lost : Quiet n { n with requests := n.requests ++ [⟨none, relay, buf⟩] } :=
    ⟨⟨rfl, rfl, rfl, rfl, rfl, rfl, rfl, rfl, rfl, rfl⟩, id⟩
  unfold addRequest
  split
  · simp only
    split
    · exact lost.trans (quiet_stopManager _)
    · split
      · exact lost
      · have made : Quiet n { n.make n.newSslRelay with ssl := some n.next } :=
          ⟨⟨rfl, rfl, rfl, rfl, rfl, rfl, rfl, rfl, rfl, rfl⟩, id⟩
        exact made.trans (quiet_sendSsl _ relay buf)
  · exact quiet_sendSsl n relay buf

theorem quiet_relayRequest (n : Node) (throws : Bool) (r : RelayId) (buf : Frame) :
    (n.relayRequest throws r buf).Both (Quiet n) :=
  (quiet_addRequest _ throws (some r) buf).mono fun _ => (quiet_call n r _).trans

theorem quiet_tryStartTransparent (n : Node) (throws : Throws) (r : RelayId) :
    (n.tryStartTransparent throws r).Both (Quiet n) := by
  unfold tryStartTransparent
  split
  · exact Quiet.refl n
  · exact Quiet.andThen (quiet_relayRequest n _ r _) fun m => quiet_call m r _

theorem quiet_implStartTransparent (n : Node) (throws : Throws) (r : RelayId) :
    (n.implStartTransparent throws r).Both (Quiet n) := by
  have tried := quiet_tryStartTransparent n throws r
  unfold implStartTransparent
  cases ended : n.tryStartTransparent throws r with
  | ok m =>
    rw [ended] at tried
    exact tried
  | error m =>
    rw [ended] at tried
    refine (Quiet.andThen (quiet_relayRequest m _ r _) fun m' => ?_).mono fun _ => tried.trans
    exact quiet_call m' r _

theorem quiet_startRawTcp (n : Node) (throws : Throws) (r : RelayId) (session : UInt32) :
    (n.startRawTcp throws r session).Both (Quiet n) := by
  unfold startRawTcp
  simp only
  split
  · exact (quiet_implStartTransparent _ throws r).mono fun _ => (quiet_call n r _).trans
  · exact quiet_call n r _

theorem quiet_startRawUdp {keep : Node → Node} (n : Node) (throws : Throws) (session : UInt32)
    (kept : ∀ m, Quiet m (keep m)) : (n.startRawUdp throws session keep).Both (Quiet n) := by
  unfold startRawUdp
  split
  · exact Quiet.refl n
  · have made := (quiet_make n (n.newRawUdp session)).trans (kept _)
    simp only
    split
    · exact made
    · exact made.trans (quiet_call _ _ _)

theorem quiet_startLocalUdp (n : Node) (throws : Throws) :
    (n.startLocalUdp throws).Both (Quiet n) :=
  quiet_startRawUdp n throws _ fun _ =>
    ⟨⟨rfl, rfl, rfl, rfl, rfl, rfl, rfl, rfl, rfl, rfl⟩, id⟩

theorem quiet_callUdpSend (n : Node) (c : RelayCall) : Quiet n (n.callUdpSend c) := by
  unfold callUdpSend
  split
  · exact ⟨⟨rfl, rfl, rfl, rfl, rfl, rfl, rfl, rfl, rfl, rfl⟩, id⟩
  · exact quiet_call n _ c

theorem callUdpSend_of_some {u : RelayId} (current : n.udpSend = some u) (c : RelayCall) :
    n.callUdpSend c = n.call u c := by
  unfold callUdpSend
  rw [current]

theorem quiet_restartUdp (n : Node) (throws : Throws) :
    (n.restartUdp throws).Both (Quiet n) := by
  unfold restartUdp
  split
  · exact quiet_startLocalUdp n throws
  · exact Quiet.refl n

theorem requests_restartUdp (n : Node) (throws : Throws) :
    (n.restartUdp throws).Both fun m => m.requests = n.requests := by
  unfold restartUdp startLocalUdp startRawUdp
  split
  · split
    · exact rfl
    · simp only
      split <;> exact rfl
  · exact rfl

theorem requests_callUdpSend (n : Node) (c : RelayCall) :
    (n.callUdpSend c).requests = n.requests := by
  unfold callUdpSend
  split <;> rfl

theorem quiet_localTransparentSendUdp (n : Node) (throws : Throws) (buf : Frame) :
    (n.localTransparentSendUdp throws buf).Both (Quiet n) :=
  Quiet.andThen (quiet_restartUdp n throws) fun m => quiet_callUdpSend m _

theorem quiet_responseDataTcp (n : Node) (throws : Throws) (buf : Frame) :
    (n.responseDataTcp throws buf).Both (Quiet n) := by
  unfold responseDataTcp
  split
  · exact Quiet.refl n
  · exact ⟨⟨rfl, rfl, rfl, rfl, rfl, rfl, rfl, rfl, rfl, rfl⟩, id⟩
  · split
    · have erased : Quiet n { n with relays := n.relays.erase buf.session } :=
        ⟨⟨rfl, rfl, rfl, rfl, rfl, rfl, rfl, rfl, rfl, rfl⟩, fun found => (Map.of_lookup_erase found).2⟩
      exact (quiet_addRequest _ _ none _).mono fun _ => erased.trans
    · exact quiet_call n _ _

theorem quiet_responseStopTcp (n : Node) (buf : Frame) : Quiet n (n.responseStopTcp buf) := by
  unfold responseStopTcp
  split
  · exact Quiet.refl n
  · exact ⟨⟨rfl, rfl, rfl, rfl, rfl, rfl, rfl, rfl, rfl, rfl⟩, id⟩
  · exact ⟨⟨rfl, rfl, rfl, rfl, rfl, rfl, rfl, rfl, rfl, rfl⟩, fun found => (Map.of_lookup_erase found).2⟩

theorem quiet_visitRelay (n : Node) (session : UInt32) (relay : Option RelayId) :
    Quiet n (n.visitRelay session relay) := by
  have erased (m : Node) : Quiet m { m with relays := m.relays.erase session } :=
    ⟨⟨rfl, rfl, rfl, rfl, rfl, rfl, rfl, rfl, rfl, rfl⟩, fun found => (Map.of_lookup_erase found).2⟩
  unfold visitRelay
  split
  · exact erased n
  · split
    · exact (quiet_call n _ _).trans (erased _)
    · exact quiet_call n _ _

theorem quiet_sslTimeout (n : Node) : Quiet n n.sslTimeout := by
  unfold sslTimeout
  split
  · exact Quiet.refl n
  · exact quiet_call n _ _

theorem srcs_visitSource_of_ne {src src' : Endpoint} {entry : UdpTimeout} (other : src' ≠ src) :
    (n.visitSource src entry).srcs.lookup src' = n.srcs.lookup src' := by
  unfold visitSource
  split
  · rw [(quiet_callUdpSend _ _).srcs]
    exact Map.lookup_erase.trans (if_neg other)
  · exact Map.lookup_insert.trans (if_neg other)

theorem relays_visitRelay_of_ne {s s' : UInt32} {r : Option RelayId} (other : s' ≠ s) :
    (n.visitRelay s r).relays.lookup s' = n.relays.lookup s' := by
  unfold visitRelay
  split
  · exact Map.lookup_erase.trans (if_neg other)
  · split
    · exact Map.lookup_erase.trans (if_neg other)
    · rfl

/-- The invariant rule of the timer: what its parts keep, a round keeps. The two
loops visit entries that are in their table. -/
theorem tick_rule {P : Node → Prop} (ssl : P n.sslTimeout)
    (stop : ∀ {m}, P m → m.type = .remoteServer → n.sslExpires →
      P { m.stopManager with timer := false })
    (clear : ∀ {m}, P m → P m.clearSources)
    (source : ∀ {m src entry}, P m → m.srcs.lookup src = some entry → P (m.visitSource src entry))
    (relay : ∀ {m s r}, P m → m.relays.lookup s = some r → P (m.visitRelay s r))
    (ended : ∀ {m}, P m → m.state = .stop → P { m with timer := false }) : P n.tick := by
  unfold tick
  split
  · rename_i both
    exact stop ssl ((quiet_sslTimeout n).type.trans both.2) both.1
  · have cleared : P (if n.sslExpires then n.sslTimeout.clearSources else n.sslTimeout) := by
      split
      · exact clear ssl
      · exact ssl
    generalize (if n.sslExpires then n.sslTimeout.clearSources else n.sslTimeout) = m at cleared
    have sources : P m.sweepSources :=
      Map.sweep_rule (fun n : Node => n.srcs) srcs_visitSource_of_ne cleared fun holds _ => source holds
    have relays : P m.sweepSources.sweepRelays :=
      Map.sweep_rule (fun n : Node => n.relays) relays_visitRelay_of_ne sources fun holds _ =>
        relay holds
    unfold endTimer
    split
    · rename_i stopped
      exact ended relays stopped
    · exact relays

theorem next_sslTimeout (n : Node) : n.sslTimeout.next = n.next := by
  unfold sslTimeout
  split <;> rfl

theorem next_stopManager (n : Node) : n.stopManager.next = n.next := by
  refine Map.sweep_invariant (P := fun m : Node => m.next = n.next) rfl
    fun {m _ relay} same _ => ?_
  cases relay <;> exact same

/-- A round makes no relay. -/
theorem next_tick (n : Node) : n.tick.next = n.next := by
  have sent (m : Node) (c : RelayCall) : (m.callUdpSend c).next = m.next := by
    unfold callUdpSend
    split <;> rfl
  refine tick_rule (P := fun m : Node => m.next = n.next) (next_sslTimeout n)
    (fun {m} same _ _ => (next_stopManager m).trans same) (fun {m} same => ?_)
    (fun {m src entry} same _ => ?_) (fun {m s relay} same _ => ?_) fun same _ => same
  · exact (sent _ _).trans same
  · unfold visitSource
    split
    · exact (sent _ _).trans same
    · exact same
  · unfold visitRelay
    split
    · exact same
    · split <;> exact same

/-! ## The handlers that make a session in `_relays` -/

theorem sameTables_relaySlot (n : Node) (session : UInt32) : SameTables n (n.relaySlot session) := by
  unfold relaySlot
  split
  · exact SameTables.refl n
  · exact ⟨rfl, rfl, rfl, rfl, rfl, rfl, rfl, rfl, rfl, rfl⟩

theorem sameTables_addRemoteRawUdp (n : Node) (throws : Throws) (session : UInt32) :
    (n.addRemoteRawUdp throws session).Both (SameTables n) := by
  refine ((quiet_startRawUdp n throws _ fun m => Quiet.refl m).mono fun _ =>
    Quiet.toSameTables).andThen fun m same => ?_
  exact same.trans ⟨rfl, rfl, rfl, rfl, rfl, rfl, rfl, rfl, rfl, rfl⟩

theorem sameTables_remoteServerSendUdp (n : Node) (throws : Throws) (buf : Frame) :
    (n.remoteServerSendUdp throws buf).Both (SameTables n) := by
  have slot := sameTables_relaySlot n buf.session
  have made (m : Node) (r : RelayId) : ((m.addRemoteRawUdp throws buf.session).andThen fun m =>
      .ok (m.call r (.sendData buf))).Both (SameTables m) :=
    (sameTables_addRemoteRawUdp m throws buf.session).andThen fun k same =>
      same.trans (quiet_call k r _).toSameTables
  unfold remoteServerSendUdp
  simp only
  split
  · split
    · exact (made _ _).mono fun _ => slot.trans
    · exact slot.trans (quiet_call _ _ _).toSameTables
  · exact (made _ _).mono fun _ => slot.trans

theorem sameTables_remoteServerStartTcp (n : Node) (throws : Throws) (buf : Frame) :
    (n.remoteServerStartTcp throws buf).Both (SameTables n) := by
  unfold remoteServerStartTcp
  simp only
  generalize stoppedIs : Option.elim _ (n.relaySlot buf.session) _ = stopped
  have same : SameTables n stopped := by
    rw [← stoppedIs]
    refine (sameTables_relaySlot n buf.session).trans ?_
    cases ((n.relaySlot buf.session).relays.lookup buf.session).join with
    | none => exact SameTables.refl _
    | some r => exact (quiet_call _ r _).toSameTables
  split
  · exact same
  · refine (quiet_startRawTcp _ throws _ _).mono fun _ quiet => same.trans (.trans ?_ quiet.toSameTables)
    exact ⟨rfl, rfl, rfl, rfl, rfl, rfl, rfl, rfl, rfl, rfl⟩

/-! ## The strand and the responses -/

/-- No response was handled, and the strand is as it was. -/
structure SameWork (n m : Node) : Prop where
  type : m.type = n.type
  answered : m.answered = n.answered
  strand : m.strand = n.strand

theorem SameTables.work (same : SameTables n m) : SameWork n m :=
  ⟨same.type, same.answered, same.strand⟩

theorem SameWork.trans (first : SameWork n m) (second : SameWork m k) : SameWork n k where
  type := second.type.trans first.type
  answered := second.answered.trans first.answered
  strand := second.strand.trans first.strand

theorem work_addResponse (n : Node) (throws : Throws) (r : RelayId) (buf : Frame) :
    (n.addResponse throws r buf).Both
      (SameWork { n with answered := n.answered ++ [(r, buf)] }) := by
  unfold addResponse
  simp only
  split
  · exact (quiet_responseDataTcp _ throws buf).mono fun _ quiet => quiet.work
  · split
    · refine (quiet_localTransparentSendUdp _ throws buf).andThen_of
        (fun _ quiet => quiet.work) fun m quiet => ?_
      exact quiet.work.trans ⟨rfl, rfl, rfl⟩
    · exact (sameTables_remoteServerSendUdp _ throws buf).mono fun _ same => same.work
    · exact ⟨rfl, rfl, rfl⟩
  · exact (sameTables_remoteServerStartTcp _ throws buf).mono fun _ same => same.work
  · exact (quiet_responseStopTcp _ buf).work
  · exact ⟨rfl, rfl, rfl⟩

theorem work_addLocalRawTcp (n : Node) (throws : Throws) (r : RelayId) :
    (n.addLocalRawTcp throws r).Both (SameWork n) := by
  unfold addLocalRawTcp
  simp only
  split
  · exact ⟨rfl, rfl, rfl⟩
  · refine (quiet_startRawTcp _ throws r _).mono fun _ quiet => ?_
    exact ⟨quiet.type, quiet.answered, quiet.strand⟩

theorem work_sendUdpData (n : Node) (throws : Throws) (src : Endpoint) (buf : Frame) :
    (n.sendUdpData throws src buf).Both (SameWork n) := by
  have forwarded (m : Node) : (m.forwardUdp throws src buf).Both (SameWork m) :=
    (quiet_addRequest _ _ _ _).mono fun _ quiet => ⟨quiet.type, quiet.answered, quiet.strand⟩
  unfold sendUdpData
  split
  · refine Fallible.Both.andThen ?_ fun m same => (forwarded m).mono fun _ => same.trans
    unfold newSource
    have assigned : SameWork n (n.assignSession src (n.source src)) := ⟨rfl, rfl, rfl⟩
    have restarted := (quiet_restartUdp (n.assignSession src (n.source src)) throws).mono
      fun _ quiet => assigned.trans quiet.work
    refine restarted.andThen fun m same => ?_
    exact same.trans ((quiet_callUdpSend m _).work.trans ⟨rfl, rfl, rfl⟩)
  · exact forwarded n

theorem work_tick (n : Node) : SameWork n n.tick := by
  have sent {m k : Node} (c : RelayCall) (same : SameWork n m) (is : SameWork m k) :
      SameWork n (k.callUdpSend c) := same.trans (is.trans (quiet_callUdpSend k c).work)
  refine tick_rule (quiet_sslTimeout n).work
    (fun same _ _ => same.trans ((quiet_stopManager _).work.trans ⟨rfl, rfl, rfl⟩))
    (fun same => sent _ same ⟨rfl, rfl, rfl⟩) (fun {m src entry} same _ => ?_)
    (fun same _ => same.trans (quiet_visitRelay _ _ _).work) fun same _ =>
      same.trans ⟨rfl, rfl, rfl⟩
  unfold visitSource
  split
  · exact sent _ same ⟨rfl, rfl, rfl⟩
  · exact same.trans ⟨rfl, rfl, rfl⟩

/-- A handler leaves the rest of the strand. -/
theorem strand_runTask (n : Node) (throws : Throws) (task : ManagerTask) :
    (n.runTask throws task).Both fun m => m.strand = n.strand := by
  cases task with
  | addRequest relay buf => exact (quiet_addRequest n _ _ buf).mono fun _ same => same.strand
  | addResponse relay buf => exact (work_addResponse n throws relay buf).mono fun _ same => same.strand
  | addLocalRawTcp relay => exact (work_addLocalRawTcp n throws relay).mono fun _ same => same.strand
  | sendUdpData src buf => exact (work_sendUdpData n throws src buf).mono fun _ same => same.strand

/-! ## The counter of session ids -/

/-- No session id was drawn. -/
structure SameIssues (n m : Node) : Prop where
  type : m.type = n.type
  session : m.session = n.session
  issued : m.issued = n.issued
  allocated : m.allocated = n.allocated

theorem SameIssues.trans (first : SameIssues n m) (second : SameIssues m k) : SameIssues n k where
  type := second.type.trans first.type
  session := second.session.trans first.session
  issued := second.issued.trans first.issued
  allocated := second.allocated.trans first.allocated

theorem SameTables.issues (same : SameTables n m) : SameIssues n m :=
  ⟨same.type, same.session, same.issued, same.allocated⟩

theorem sameIssues_addResponse (n : Node) (throws : Throws) (relay : RelayId) (buf : Frame) :
    (n.addResponse throws relay buf).Both (SameIssues n) := by
  have noted : SameIssues n { n with answered := n.answered ++ [(relay, buf)] } :=
    ⟨rfl, rfl, rfl, rfl⟩
  unfold addResponse
  simp only
  split
  · exact (quiet_responseDataTcp _ throws buf).mono fun _ quiet => noted.trans quiet.issues
  · split
    · refine (quiet_localTransparentSendUdp _ throws buf).andThen_of
        (fun _ quiet => noted.trans quiet.issues) fun m quiet => ?_
      exact (noted.trans quiet.issues).trans ⟨rfl, rfl, rfl, rfl⟩
    · exact (sameTables_remoteServerSendUdp _ throws buf).mono fun _ same => noted.trans same.issues
    · exact noted
  · exact (sameTables_remoteServerStartTcp _ throws buf).mono fun _ same => noted.trans same.issues
  · exact noted.trans (quiet_responseStopTcp _ buf).issues
  · exact noted

theorem sameIssues_tick (n : Node) : SameIssues n n.tick := by
  refine tick_rule (quiet_sslTimeout n).issues (fun same _ _ => ?_) (fun same => ?_)
    (fun {m src entry} same _ => ?_) (fun same _ => ?_) fun same _ => ?_
  · exact same.trans ((quiet_stopManager _).issues.trans ⟨rfl, rfl, rfl, rfl⟩)
  · refine same.trans (SameIssues.trans ?_ (quiet_callUdpSend _ _).issues)
    exact ⟨rfl, rfl, rfl, rfl⟩
  · refine same.trans ?_
    unfold visitSource
    split
    · refine SameIssues.trans ?_ (quiet_callUdpSend _ _).issues
      exact ⟨rfl, rfl, rfl, rfl⟩
    · exact ⟨rfl, rfl, rfl, rfl⟩
  · exact same.trans (quiet_visitRelay _ _ _).issues
  · exact same.trans ⟨rfl, rfl, rfl, rfl⟩

/-! ## Steps -/

/-- What a relay's handler asked of the manager, as handlers in its strand. -/
def asked (r : RelayId) : RelayOut → Option ManagerTask
  | .request buf => some (.addRequest r buf)
  | .response buf => some (.addResponse r buf)
  | .crash => none

/-- The outcomes of a step. A handler of a relay changes that relay, the strand and,
through a null pointer, `crashed`. -/
inductive StepIs (n : Node) : NodeAction → Node → Prop
  | accept {dst : Endpoint} :
    n.type ≠ .remoteServer →
    StepIs n (.accept dst)
      { n.make (n.newAccepted dst) with
        strand := n.strand ++ [.addLocalRawTcp n.next] }
  | udpPacket {src : Endpoint} {dst : Option Endpoint} {received : Option (List UInt8)} :
    n.type ≠ .remoteServer →
    StepIs n (.udpPacket src dst received)
      { n with strand := n.strand ++ [.sendUdpData src (transparentUdpRecvOn dst received)] }
  | manager {throws : Throws} {task : ManagerTask} {strand : List ManagerTask} :
    n.strand = task :: strand →
    StepIs n (.manager throws) ({ n with strand }.runTask throws task).state
  | tick : n.timer → StepIs n .tick n.tick
  | release : n.type = .remoteServer → StepIs n .release { n with held := false }
  | relay {r : RelayId} {ev : RelayEvent} {relay : Relay} {outs : List RelayOut} :
    r < n.next → (n.objs r).step n.alive ev = some (relay, outs) →
    StepIs n (.relay r ev)
      { n with
        objs := Function.update n.objs r relay
        strand := n.strand ++ outs.filterMap (asked r)
        crashed := outs.contains .crash }

theorem foldl_ask (outs : List RelayOut) (r : RelayId) (n : Node) :
    outs.foldl (fun n out => n.ask r out) n =
      { n with
        strand := n.strand ++ outs.filterMap (asked r)
        crashed := n.crashed || outs.contains .crash } := by
  induction outs generalizing n with
  | nil => simp
  | cons out outs ih =>
    rw [List.foldl_cons, ih]
    cases out <;> simp [ask, asked, List.filterMap_cons]

theorem stepIs_of_step {a : NodeAction} (stepped : n.step a = some m) : StepIs n a m := by
  simp only [step, Option.ite_none_left_eq_some, Bool.not_eq_true] at stepped
  obtain ⟨going, stepped⟩ := stepped
  cases a with
  | accept dst =>
    simp only [Option.ite_none_left_eq_some, Option.some.injEq] at stepped
    obtain ⟨localSide, rfl⟩ := stepped
    exact .accept localSide
  | udpPacket src dst received =>
    simp only [Option.ite_none_left_eq_some, Option.some.injEq] at stepped
    obtain ⟨localSide, rfl⟩ := stepped
    exact .udpPacket localSide
  | manager throws =>
    dsimp only at stepped
    split at stepped
    · cases stepped
    · rename_i task strand queue
      cases stepped
      exact .manager queue
  | tick =>
    simp only [Option.ite_none_right_eq_some, Option.some.injEq] at stepped
    obtain ⟨timer, rfl⟩ := stepped
    exact .tick timer
  | release =>
    simp only [Option.ite_none_right_eq_some, Option.some.injEq] at stepped
    obtain ⟨⟨remote, _⟩, rfl⟩ := stepped
    exact .release remote
  | relay r ev =>
    simp only [Option.ite_none_right_eq_some] at stepped
    obtain ⟨known, stepped⟩ := stepped
    split at stepped
    · cases stepped
    · rename_i relay outs handled
      rw [foldl_ask] at stepped
      simp only [going, Bool.false_or, Option.some.injEq] at stepped
      subst stepped
      exact .relay known handled

theorem sameIssues_forwardUdp (n : Node) (throws : Throws) (src : Endpoint) (buf : Frame) :
    (n.forwardUdp throws src buf).Both (SameIssues n) :=
  (quiet_addRequest _ throws.newSsl none _).mono fun _ quiet =>
    ⟨quiet.type, quiet.session, quiet.issued, quiet.allocated⟩

/-- The counter only goes up. -/
theorem allocated_le_step {a : NodeAction} (stepped : n.step a = some m) :
    n.allocated ≤ m.allocated := by
  have up {k k' : Node} (same : SameIssues k k') (grown : n.allocated ≤ k.allocated) :
      n.allocated ≤ k'.allocated := Nat.le_trans grown (Nat.le_of_eq same.allocated.symm)
  cases stepIs_of_step stepped with
  | accept _ | udpPacket _ | release _ | relay _ _ => exact Nat.le_refl _
  | tick _ => exact up (sameIssues_tick n) (Nat.le_refl _)
  | @manager throws task strand queue =>
    show (runTask { n with strand } throws task).Both fun m => n.allocated ≤ m.allocated
    cases task with
    | addRequest relay buf =>
      exact (quiet_addRequest { n with strand } throws.newSsl (some relay) buf).mono
        fun _ quiet => up quiet.issues (Nat.le_refl _)
    | addResponse relay buf =>
      exact (sameIssues_addResponse { n with strand } throws relay buf).mono
        fun _ same => up same (Nat.le_refl _)
    | addLocalRawTcp relay =>
      show (addLocalRawTcp { n with strand } throws relay).Both _
      unfold addLocalRawTcp
      simp only
      split
      · exact Nat.le_succ _
      · exact (quiet_startRawTcp _ throws relay _).mono
          fun _ quiet => up quiet.issues (Nat.le_succ _)
    | sendUdpData src buf =>
      have forwarded (k : Node) (grown : n.allocated ≤ k.allocated) :
          (k.forwardUdp throws src buf).Both fun m => n.allocated ≤ m.allocated :=
        (sameIssues_forwardUdp k throws src buf).mono fun _ same => up same grown
      show (sendUdpData { n with strand } throws src buf).Both _
      unfold sendUdpData
      split
      · have drawn : (newSource { n with strand } throws src (n.source src)).Both fun k =>
            n.allocated ≤ k.allocated :=
          (quiet_restartUdp _ throws).andThen_of
            (fun _ quiet => up quiet.issues (Nat.le_succ _))
            fun k quiet => by
              have called := quiet.trans (quiet_callUdpSend k (.addPeer (n.session + 1) src))
              have grown : n.allocated + 1 = (k.callUdpSend _).allocated := called.allocated.symm
              exact Nat.le_of_succ_le (Nat.le_of_eq grown)
        exact drawn.andThen forwarded
      · exact forwarded _ (Nat.le_refl _)

end Node

end SslSocks
