import SslSocks.NodeSteps

/-!
# The two UDP tables of the manager

`_srcs` maps a source to its session and `_udp_srcs` a session to its source.
`Node.Inverse` says that they are inverse to each other, and `Node.TablesMeet` names
the steps after which they are not: a reply for a session that is not in
`_udp_srcs`, whose lookup inserts; a first packet whose handler throws while a new
raw_udp is made, or whose session is 0 or in use.
-/

namespace SslSocks

open Lib

namespace Node

/-- `_srcs` and `_udp_srcs` are inverse to each other, no session is 0, and every
source sent a packet, for which it got its session. -/
structure Inverse (n : Node) : Prop where
  inverse : ∀ src session,
    (∃ entry, n.srcs.lookup src = some entry ∧ entry.session = session) ↔
      n.udpSrcs.lookup session = some src
  nonzero : ∀ {session}, session ∈ n.udpSrcs → session ≠ 0
  sent : ∀ {src entry}, n.srcs.lookup src = some entry →
    Issue.udp entry.session src ∈ n.issued

/-- `send_udp_data` takes the packet for the first of its source. -/
def FirstPacket (n : Node) (src : Endpoint) : Prop :=
  (n.source src).session = 0

/-- `send_udp_data` has to make a new raw_udp and that throws. -/
def UdpThrows (n : Node) (throws : Throws) : Prop :=
  n.udpSendStopped ∧ (throws.newUdp ∨ throws.startUdp)

instance (n : Node) (src : Endpoint) : Decidable (n.FirstPacket src) :=
  inferInstanceAs (Decidable (_ = _))

instance (n : Node) (throws : Throws) : Decidable (n.UdpThrows throws) :=
  inferInstanceAs (Decidable (_ ∧ _))

/-- A handler that keeps the tables inverse. -/
def TablesMeetTask (n : Node) (throws : Throws) : ManagerTask → Prop
  | .addResponse _ buf =>
    buf.cmd = .dataUdp → n.type = .localTransparent → buf.session ∈ n.udpSrcs
  | .sendUdpData src _ =>
    n.FirstPacket src → ¬ n.UdpThrows throws ∧ n.session + 1 ≠ 0 ∧ n.session + 1 ∉ n.udpSrcs
  | _ => True

instance (n : Node) (throws : Throws) : DecidablePred (n.TablesMeetTask throws)
  | .addResponse _ _ => inferInstanceAs (Decidable (_ → _ → _))
  | .sendUdpData _ _ => inferInstanceAs (Decidable (_ → _))
  | .addRequest _ _ | .addLocalRawTcp _ => isTrue trivial

/-- A step that keeps the tables inverse. -/
def TablesMeet (n : Node) : NodeAction → Prop
  | .manager throws => ∀ task ∈ n.strand.head?, n.TablesMeetTask throws task
  | _ => True

instance (n : Node) : DecidablePred n.TablesMeet
  | .manager _ => inferInstanceAs (Decidable (∀ _ ∈ _, _))
  | .accept _ | .udpPacket _ _ _ | .tick | .release | .relay _ _ => isTrue trivial

variable {n m : Node}

theorem Inverse.of_eq (inv : Inverse n) (srcs : m.srcs = n.srcs) (udpSrcs : m.udpSrcs = n.udpSrcs)
    (issued : n.issued ⊆ m.issued) : Inverse m where
  inverse := by rw [srcs, udpSrcs]; exact inv.inverse
  nonzero := by rw [udpSrcs]; exact inv.nonzero
  sent := by rw [srcs]; exact fun found => issued (inv.sent found)

theorem Inverse.same (inv : Inverse n) (same : SameTables n m) : Inverse m :=
  inv.of_eq same.srcs same.udpSrcs (same.issued ▸ List.Subset.refl _)

/-- The session of a source is a key of `_udp_srcs`. -/
theorem Inverse.lookup_udpSrcs (inv : Inverse n) {src : Endpoint} {entry : UdpTimeout}
    (found : n.srcs.lookup src = some entry) : n.udpSrcs.lookup entry.session = some src :=
  (inv.inverse src entry.session).mp ⟨entry, found, rfl⟩

theorem Inverse.session_ne_zero (inv : Inverse n) {src : Endpoint} {entry : UdpTimeout}
    (found : n.srcs.lookup src = some entry) : entry.session ≠ 0 :=
  inv.nonzero (Map.mem_of_lookup (inv.lookup_udpSrcs found))

/-- A packet is taken for the first exactly when its source is not in the table. -/
theorem Inverse.firstPacket_iff (inv : Inverse n) {src : Endpoint} :
    n.FirstPacket src ↔ n.srcs.lookup src = none := by
  unfold FirstPacket source
  cases found : n.srcs.lookup src with
  | none => exact iff_of_true rfl rfl
  | some entry => exact iff_of_false (inv.session_ne_zero found) nofun

/-- Only the time of a source changes. -/
theorem Inverse.setTimeout (inv : Inverse n) {src : Endpoint} {entry : UdpTimeout}
    (found : n.srcs.lookup src = some entry) (timeout : Nat) :
    Inverse { n with srcs := n.srcs.insert src { entry with timeout } } := by
  refine ⟨fun e s => ?_, inv.nonzero, fun {e t} there => ?_⟩
  · rw [← inv.inverse, Map.lookup_insert]
    split
    · rename_i same
      rw [same, found]
      simp
    · rfl
  · simp only [Map.lookup_insert] at there
    split at there
    · rename_i same
      cases there
      rw [same]
      have known := inv.sent found
      exact known
    · exact inv.sent there

/-- A source leaves both tables. -/
theorem Inverse.eraseSource (inv : Inverse n) {src : Endpoint} {entry : UdpTimeout}
    (found : n.srcs.lookup src = some entry) :
    Inverse { n with udpSrcs := n.udpSrcs.erase entry.session, srcs := n.srcs.erase src } := by
  have back := inv.lookup_udpSrcs found
  refine ⟨fun e s => ?_, fun {s} there => ?_, fun {e t} there => ?_⟩
  · simp only [Map.lookup_erase]
    by_cases same : e = src
    · subst same
      -- no other session leads to the source erased
      have none : s ≠ entry.session → n.udpSrcs.lookup s ≠ some e := by
        intro other there
        obtain ⟨t, back, rfl⟩ := (inv.inverse e s).mpr there
        rw [found, Option.some.injEq] at back
        exact other (congrArg _ back.symm)
      rw [if_pos rfl]
      split <;> simp_all
    · rw [if_neg same, inv.inverse]
      split
      · rename_i session
        rw [session, back, Option.some.injEq]
        refine iff_of_false (fun other => same other.symm) fun other => ?_
        cases other
      · rfl
  · exact inv.nonzero (Map.mem_erase.mp there).2
  · exact inv.sent (Map.of_lookup_erase there).2

theorem Inverse.clear (n : Node) : Inverse { n with udpSrcs := ∅, srcs := ∅ } := by
  refine ⟨fun e s => ?_, fun there => absurd there Map.notMem_empty, fun {e t} there => ?_⟩
  · simp
  · simp only [Map.lookup_empty, reduceCtorEq] at there

/-- A new source enters both tables under a session not in use. -/
theorem Inverse.addSource (inv : Inverse n) {src : Endpoint} {entry : UdpTimeout}
    (new : n.srcs.lookup src = none) (nonzero : entry.session ≠ 0)
    (unused : entry.session ∉ n.udpSrcs) :
    Inverse { n with
      srcs := n.srcs.insert src entry
      udpSrcs := n.udpSrcs.insert entry.session src
      issued := n.issued ++ [Issue.udp entry.session src] } := by
  have free := Map.notMem_iff.mp unused
  refine ⟨fun e s => ?_, fun {s} there => ?_, fun {e t} there => ?_⟩
  · simp only [Map.lookup_insert]
    by_cases same : e = src
    · subst same
      by_cases session : s = entry.session
      · subst session
        simp
      · have none : n.udpSrcs.lookup s ≠ some e := by
          rw [ne_eq, ← inv.inverse, new]
          simp
        simp [session, none, Ne.symm session]
    · rw [if_neg same, inv.inverse]
      split
      · rename_i session
        rw [session, free, Option.some.injEq]
        refine iff_of_false (fun other => ?_) fun other => same other.symm
        cases other
      · rfl
  · rcases Map.mem_insert.mp there with rfl | there
    · exact nonzero
    · exact inv.nonzero there
  · simp only [Map.lookup_insert] at there
    split at there
    · rename_i same
      cases there
      rw [same]
      exact List.mem_append_right _ List.mem_cons_self
    · exact List.mem_append_left _ (inv.sent there)

/-! ## The handlers -/

theorem inverse_touchSource (inv : Inverse n) {session : UInt32} (live : session ∈ n.udpSrcs) :
    Inverse (n.touchSource session) := by
  obtain ⟨src, there⟩ := Map.mem_iff.mp live
  obtain ⟨entry, found, _⟩ := (inv.inverse src session).mpr there
  unfold touchSource source
  simp only [there, Option.getD_some, found, live, ↓reduceIte]
  exact inv.setTimeout found timeoutTicks

/-- `restart_udp` that does not throw. -/
theorem restartUdp_ok {throws : Throws} (runs : ¬ n.UdpThrows throws) :
    ∃ m, n.restartUdp throws = .ok m := by
  unfold restartUdp
  split
  · rename_i stopped
    have both : ¬ (throws.newUdp ∨ throws.startUdp) := fun throwing => runs ⟨stopped, throwing⟩
    obtain ⟨made, started⟩ := not_or.mp both
    unfold startLocalUdp startRawUdp
    rw [if_neg made]
    simp only
    rw [if_neg started]
    exact ⟨_, rfl⟩
  · exact ⟨n, rfl⟩

theorem inverse_newSource (inv : Inverse n) {throws : Throws} {src : Endpoint}
    {old : UdpTimeout} (new : n.srcs.lookup src = none) (runs : ¬ n.UdpThrows throws)
    (nonzero : n.session + 1 ≠ 0) (unused : n.session + 1 ∉ n.udpSrcs) :
    (n.newSource throws src old).Both fun m => Inverse m ∧ src ∈ m.srcs := by
  have assigned := @Inverse.addSource n inv src { old with session := n.session + 1 } new
    nonzero unused
  have runs' : ¬ (n.assignSession src old).UdpThrows throws := runs
  obtain ⟨m, ended⟩ := restartUdp_ok runs'
  have same := quiet_restartUdp (n.assignSession src old) throws
  unfold newSource
  rw [ended] at same ⊢
  have same : SameTables (n.assignSession src old) m := same.toSameTables
  have peer := same.trans (quiet_callUdpSend m (.addPeer (n.session + 1) src)).toSameTables
  show Inverse (m.addSource (n.session + 1) src) ∧ src ∈ (m.callUdpSend _).srcs
  have free : n.session + 1 ∉ m.udpSrcs := by
    rw [same.udpSrcs]
    exact unused
  constructor
  · unfold addSource
    rw [if_neg free, same.udpSrcs]
    exact assigned.of_eq peer.srcs rfl (peer.issued ▸ List.Subset.refl _)
  · rw [peer.srcs]
    exact Map.mem_insert.mpr (.inl rfl)

/-- A source in the tables gets its time back. -/
theorem inverse_forwardUdp (inv : Inverse n) {src : Endpoint} (known : src ∈ n.srcs)
    (throws : Throws) (buf : Frame) : (n.forwardUdp throws src buf).Both Inverse := by
  obtain ⟨entry, found⟩ := Map.mem_iff.mp known
  unfold forwardUdp
  rw [source_of_lookup found]
  exact (quiet_addRequest _ _ _ _).mono fun _ quiet =>
    (inv.setTimeout found timeoutTicks).same quiet.toSameTables

theorem inverse_sendUdpData (inv : Inverse n) {throws : Throws} {src : Endpoint} {buf : Frame}
    (meets : n.FirstPacket src →
      ¬ n.UdpThrows throws ∧ n.session + 1 ≠ 0 ∧ n.session + 1 ∉ n.udpSrcs) :
    (n.sendUdpData throws src buf).Both Inverse := by
  unfold sendUdpData
  by_cases first : (n.source src).session = 0
  · obtain ⟨runs, nonzero, unused⟩ := meets first
    rw [if_pos first]
    have made := @inverse_newSource n inv throws src (n.source src)
      (inv.firstPacket_iff.mp first) runs nonzero unused
    exact made.andThen_of (fun _ both => both.1) fun m both =>
      inverse_forwardUdp both.1 both.2 throws buf
  · rw [if_neg first]
    have known : src ∈ n.srcs := by
      by_contra absent
      exact first (inv.firstPacket_iff.mpr (Map.notMem_iff.mp absent))
    exact inverse_forwardUdp inv known throws buf

theorem inverse_addResponse (inv : Inverse n) {throws : Throws} {relay : RelayId} {buf : Frame}
    (meets : buf.cmd = .dataUdp → n.type = .localTransparent → buf.session ∈ n.udpSrcs) :
    (n.addResponse throws relay buf).Both Inverse := by
  have noted : Inverse { n with answered := n.answered ++ [(relay, buf)] } :=
    inv.of_eq rfl rfl (List.Subset.refl _)
  have quiet {m : Node} (quiet : Quiet { n with answered := n.answered ++ [(relay, buf)] } m) :
      Inverse m := noted.same quiet.toSameTables
  unfold addResponse
  simp only
  split
  · exact (quiet_responseDataTcp _ throws buf).mono fun _ => quiet
  · rename_i udp
    split
    · rename_i transparent
      have sent := quiet_localTransparentSendUdp
        { n with answered := n.answered ++ [(relay, buf)] } throws buf
      refine sent.andThen_of (fun _ => quiet) fun m same => inverse_touchSource (quiet same) ?_
      rw [same.udpSrcs]
      exact meets udp transparent
    · exact (sameTables_remoteServerSendUdp _ throws buf).mono fun _ => noted.same
    · exact noted
  · exact (sameTables_remoteServerStartTcp _ throws buf).mono fun _ => noted.same
  · exact quiet (quiet_responseStopTcp _ buf)
  · exact noted

theorem inverse_addLocalRawTcp (inv : Inverse n) (throws : Throws) (r : RelayId) :
    (n.addLocalRawTcp throws r).Both Inverse := by
  unfold addLocalRawTcp
  simp only
  split
  · exact inv.of_eq rfl rfl (List.Subset.refl _)
  · refine (quiet_startRawTcp _ throws r _).mono fun m quiet => ?_
    exact inv.of_eq quiet.srcs quiet.udpSrcs
      (quiet.issued ▸ List.subset_append_left _ _)

theorem inverse_tick (inv : Inverse n) : Inverse n.tick := by
  refine tick_rule (inv.same (quiet_sslTimeout n).toSameTables) (fun inv _ _ => ?_) (fun {m} _ => ?_)
    (fun {m src entry} inv found => ?_) (fun inv _ => ?_) fun inv _ => ?_
  · exact (inv.same (quiet_stopManager _).toSameTables).of_eq rfl rfl (List.Subset.refl _)
  · exact (Inverse.clear m).same (quiet_callUdpSend _ _).toSameTables
  · unfold visitSource
    split
    · exact (inv.eraseSource found).same (quiet_callUdpSend _ _).toSameTables
    · exact inv.setTimeout found _
  · exact inv.same (quiet_visitRelay _ _ _).toSameTables
  · exact inv.of_eq rfl rfl (List.Subset.refl _)

/-- **One step** under the condition keeps the tables inverse. -/
theorem inverse_step {a : NodeAction} (inv : Inverse n) (meets : n.TablesMeet a)
    (stepped : n.step a = some m) : Inverse m := by
  cases stepIs_of_step stepped with
  | accept _ | udpPacket _ | release _ | relay _ _ =>
    exact inv.of_eq rfl rfl (List.Subset.refl _)
  | tick _ => exact inverse_tick inv
  | @manager throws task strand queue =>
    have inv : Inverse { n with strand } := inv.of_eq rfl rfl (List.Subset.refl _)
    have meets : n.TablesMeetTask throws task := meets task (by rw [queue]; rfl)
    cases task with
    | addRequest relay buf =>
      exact inv.same (quiet_addRequest { n with strand } _ _ _).toSameTables
    | addResponse relay buf => exact inverse_addResponse inv meets
    | addLocalRawTcp relay => exact inverse_addLocalRawTcp inv throws relay
    | sendUdpData src buf => exact inverse_sendUdpData inv meets

/-- **The UDP tables are inverse** in every state of a local manager reached by steps
that meet the condition. -/
theorem udpTables_inverse {type : ServerType}
    (run : Reach step TablesMeet (initLocal type) n) : Inverse n :=
  run.invariant (Inverse.clear (initLocal type)) fun _ inv meets stepped =>
    inverse_step inv meets stepped

/-- A first packet is handled and the timer runs. -/
theorem udpTables_inverse_packet :
    ∃ n, Reachable step (initLocal .localTransparent) n ∧
      n.udpSrcs.lookup 2 = some ⟨.v4 #v[10, 0, 0, 1], 5000⟩ ∧ Inverse n := by
  have run := @Reach.of_isSome _ _ step TablesMeet (initLocal .localTransparent) _
    [.udpPacket ⟨.v4 #v[10, 0, 0, 1], 5000⟩ (some ⟨.v4 #v[8, 8, 8, 8], 53⟩) (some [1]),
      .manager {}, .tick] (by decide +kernel)
  exact ⟨_, run.reachable, by decide +kernel, udpTables_inverse run⟩

/-- A reply for a session that was never handed out. -/
def strayReply : Frame := ⟨77, .dataUdp, udpHead (some default) ++ [7]⟩

/-- The first packet of a source starts the ssl connection, which brings the reply. -/
def strayReplyRun : List NodeAction :=
  [.udpPacket (.ipv4 10 0 0 1 5000) (some (.ipv4 8 8 8 8 53)) (some [1]),
    .manager {}, .relay 1 (.startup true), .relay 1 (.startup true), .relay 1 (.startup true),
    .relay 1 (.arrive (.stream strayReply.head.bytes)), .relay 1 .read,
    .relay 1 (.arrive (.stream strayReply.payload)), .relay 1 .read, .manager {}]

/-- **A stray reply corrupts the tables**: its session leads to a default endpoint
that never sent a packet and whose own session is 0. -/
theorem udpTables_strayReply :
    ∃ n, Reachable step (initLocal .localTransparent) n ∧
      n.udpSrcs.lookup 77 = some default ∧ n.srcs.lookup default = some ⟨0, timeoutTicks⟩ ∧
      ¬ Inverse n := by
  refine ⟨_, .of_isSome strayReplyRun (by decide +kernel), by decide +kernel,
    by decide +kernel, fun inv => ?_⟩
  obtain ⟨entry, found, session⟩ := (inv.inverse default 77).mpr (by decide +kernel)
  have stored : some entry = some ⟨0, timeoutTicks⟩ := found.symm.trans (by decide +kernel)
  cases stored
  exact absurd session (by decide)

end Node

end SslSocks
