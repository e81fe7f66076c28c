import SslSocks.IdleTimer
import SslSocks.Lib.Countdown
import SslSocks.NodeMoves

/-!
# What is idle goes

The timer counts down the relays in `_relays`, the UDP sources and, on the remote side, the ssl
relay; `reset_timeout` and the packets of a source give them `TIMEOUT` rounds again. So a
session, a source or a connection that nothing resets is gone after `TIMEOUT` rounds
(`sessions_expire`, `sources_expire`, `manager_expires`), whatever else happens between them.
-/

namespace SslSocks

open Lib

namespace Relay

variable {r : Relay}

/-- `timeout_down` of a relay that has time left afterwards. -/
theorem timeoutDown_running (running : r.timeoutDown.2 ≠ 0) :
    0 < r.timeoutDown.1.timeout ∧ r.timeout = r.timeoutDown.1.timeout + 1 := by
  unfold timeoutDown at running ⊢
  split
  · rename_i zero
    rw [if_pos zero] at running
    exact absurd rfl running
  · rename_i some
    rw [if_neg some] at running
    split
    · rename_i last
      rw [if_pos last] at running
      exact absurd rfl running
    · show 0 < r.timeout - 1 ∧ r.timeout = r.timeout - 1 + 1
      omega

theorem timeout_call_le (r : Relay) (c : RelayCall) : (r.call c).timeout ≤ r.timeout := by
  by_cases counts : c = .timeoutDown
  · subst counts
    show r.timeoutDown.1.timeout ≤ r.timeout
    by_cases running : r.timeoutDown.2 = 0
    · rw [timeoutDown_expired running]
      exact Nat.zero_le _
    · have down := timeoutDown_running running
      omega
  · exact Nat.le_of_eq (timeout_call counts)

end Relay

namespace Node

variable {n m : Node} {s : UInt32} {src : Endpoint} {ls : List Dealing}

/-! ## The counters -/

/-- The time of the session in `_relays`; a null pointer has none left. -/
def sessionTime (s : UInt32) (n : Node) : Option Nat :=
  (n.relays.lookup s).map fun relay => relay.elim 0 fun r => (n.objs r).timeout

def sourceTime (src : Endpoint) (n : Node) : Option Nat :=
  (n.srcs.lookup src).map UdpTimeout.timeout

/-- The time of the connection of a manager that is not stopped. -/
def managerTime (n : Node) : Option Nat :=
  if n.state = .stop then none else n.ssl.map fun k => (n.objs k).timeout

/-! ## A round of the timer -/

theorem sessionTime_of_lookup {r : RelayId} (there : n.relays.lookup s = some (some r)) :
    sessionTime s n = some (n.objs r).timeout := by
  unfold sessionTime
  rw [there]
  rfl

theorem sessionTime_eq_none : sessionTime s n = none ↔ s ∉ n.relays := by
  unfold sessionTime
  rw [Option.map_eq_none_iff, Map.notMem_iff]

theorem sourceTime_eq_none : sourceTime src n = none ↔ src ∉ n.srcs := by
  unfold sourceTime
  rw [Option.map_eq_none_iff, Map.notMem_iff]

/-- The loop over `_relays` visits the session once. -/
theorem counts_sweepRelays
    (once : ∀ {s s' r}, n.relays.lookup s = some (some r) → n.relays.lookup s' = some (some r) →
      s = s') : Counts (sessionTime s) n n.sweepRelays := by
  intro time there
  cases found : n.relays.lookup s with
  | none =>
    have gone : n.sweepRelays.relays.lookup s = none :=
      Map.sweep_invariant (P := fun m : Node => m.relays.lookup s = none) found
        fun {m k v} still visited => by
          have other : s ≠ k := by
            rintro rfl
            cases found.symm.trans visited
          exact (relays_visitRelay_of_ne other).trans still
    unfold sessionTime at there
    rw [gone] at there
    cases there
  | some relay =>
    have another {k : UInt32} {v : Option RelayId} {r : RelayId} (other : k ≠ s)
        (visited : n.relays.lookup k = some v) (same : relay = some r) : v ≠ some r := fun eq =>
      other (once (eq ▸ visited) (same ▸ found))
    have done : n.sweepRelays.relays.lookup s = none ∨ ∃ r, relay = some r ∧
        n.sweepRelays.relays.lookup s = some (some r) ∧ 0 < (n.sweepRelays.objs r).timeout ∧
          (n.objs r).timeout = (n.sweepRelays.objs r).timeout + 1 := by
      refine Map.sweep_focus
        (P := fun m : Node => m.relays.lookup s = some relay ∧
          ∀ r, relay = some r → m.objs r = n.objs r)
        (Q := fun m : Node => m.relays.lookup s = none ∨ ∃ r, relay = some r ∧
          m.relays.lookup s = some (some r) ∧ 0 < (m.objs r).timeout ∧
            (n.objs r).timeout = (m.objs r).timeout + 1)
        found ⟨found, fun _ _ => rfl⟩ ?_ ?_ ?_
      · rintro m k v other visited ⟨still, same⟩
        refine ⟨(relays_visitRelay_of_ne (Ne.symm other)).trans still, fun r isRelay => ?_⟩
        exact (objs_visitRelay_of_ne (another other visited isRelay)).trans (same r isRelay)
      · rintro m ⟨still, same⟩
        have erased {m : Node} : (m.relays.erase s).lookup s = none := by
          rw [Map.lookup_erase, if_pos rfl]
        cases relay with
        | none => exact .inl erased
        | some r =>
          unfold visitRelay
          simp only
          split
          · exact .inl erased
          · rename_i running
            have down := Relay.timeoutDown_running running
            rw [same r rfl] at down
            refine .inr ⟨r, rfl, still, ?_⟩
            have counted : (m.call r .timeoutDown).objs r = (n.objs r).timeoutDown.1 := by
              rw [objs_call, if_pos rfl, same r rfl]
              rfl
            rw [counted]
            exact down
      · rintro m k v other visited (gone | ⟨r, isRelay, still, time⟩)
        · exact .inl ((relays_visitRelay_of_ne (Ne.symm other)).trans gone)
        · refine .inr ⟨r, isRelay, (relays_visitRelay_of_ne (Ne.symm other)).trans still, ?_⟩
          rw [objs_visitRelay_of_ne (another other visited isRelay)]
          exact time
    rcases done with gone | ⟨r, rfl, still, positive, down⟩
    · unfold sessionTime at there
      rw [gone] at there
      cases there
    · rw [sessionTime_of_lookup still] at there
      cases there
      rw [sessionTime_of_lookup found, down]
      exact ⟨positive, rfl⟩

/-- The part of a round before the loop over `_relays`, when the manager is not stopped. -/
theorem beforeRelays (n : Node) : ∃ m : Node, m.relays = n.relays ∧
    (∀ r, (m.objs r).timeout = (n.sslTimeout.objs r).timeout) ∧
    (¬ (n.sslExpires ∧ n.type = .remoteServer) → n.tick = m.sweepRelays.endTimer) := by
  have start : (if n.sslExpires then n.sslTimeout.clearSources else n.sslTimeout) =
      n.sslTimeout.clearSources ∨
      (if n.sslExpires then n.sslTimeout.clearSources else n.sslTimeout) = n.sslTimeout := by
    split
    · exact .inl rfl
    · exact .inr rfl
  have calm := fun r => calm_sources n _ r start
  exact ⟨_, (calm 0).2, fun r => (calm r).1.timeout, fun goes => if_neg goes⟩

theorem counts_tick_session (wf : WellFormed n) : Counts (sessionTime s) n n.tick := by
  obtain ⟨m, relays, times, ticks⟩ := beforeRelays n
  by_cases ends : n.sslExpires ∧ n.type = .remoteServer
  · intro time there
    have empty : n.tick.relays = ∅ := by
      unfold tick
      rw [if_pos ends]
      rfl
    unfold sessionTime at there
    rw [empty, Map.lookup_empty] at there
    cases there
  · rw [ticks ends]
    obtain ⟨endRelays, endObjs⟩ := endTimer_eq m.sweepRelays
    intro time there
    have swept : sessionTime s m.sweepRelays = some time := by
      unfold sessionTime at there ⊢
      rw [endRelays, endObjs] at there
      exact there
    obtain ⟨positive, was⟩ := counts_sweepRelays
      (fun first second => wf.relays_inj (relays ▸ first) (relays ▸ second)) time swept
    refine ⟨positive, ?_⟩
    rw [← was]
    unfold sessionTime
    rw [relays]
    cases found : n.relays.lookup s with
    | none => rfl
    | some relay =>
      cases relay with
      | none => rfl
      | some r =>
        -- a relay in `_relays` is not the ssl relay, which was counted before
        have other : n.ssl ≠ some r := fun current =>
          (wf.relays found).2.1 (wf.ssl current).2
        have same := times r
        rw [objs_sslTimeout_of_ne other] at same
        exact congrArg some same.symm

/-- The loop over `_srcs` visits the source once. -/
theorem counts_sweepSources (n : Node) (src : Endpoint) :
    Counts (sourceTime src) n n.sweepSources := by
  intro time there
  have frame {m : Node} {e : Endpoint} {entry : UdpTimeout} (other : e ≠ src) :
      (m.visitSource e entry).srcs.lookup src = m.srcs.lookup src :=
    srcs_visitSource_of_ne (Ne.symm other)
  cases found : n.srcs.lookup src with
  | none =>
    have gone : n.sweepSources.srcs.lookup src = none :=
      Map.sweep_invariant (P := fun m : Node => m.srcs.lookup src = none) found
        fun {m e entry} still visited => by
          have other : e ≠ src := by
            rintro rfl
            cases found.symm.trans visited
          exact (frame other).trans still
    unfold sourceTime at there
    rw [gone] at there
    cases there
  | some entry =>
    have done : ∀ e, n.sweepSources.srcs.lookup src = some e →
        0 < e.timeout ∧ entry.timeout = e.timeout + 1 := by
      refine Map.sweep_focus (P := fun _ : Node => True)
        (Q := fun m : Node => ∀ e, m.srcs.lookup src = some e →
          0 < e.timeout ∧ entry.timeout = e.timeout + 1)
        found trivial (fun _ _ _ => trivial) ?_ ?_
      · intro m _ e after
        unfold visitSource at after
        split at after
        · rw [(quiet_callUdpSend _ _).srcs] at after
          exact absurd rfl (Map.of_lookup_erase after).1
        · rename_i running
          replace after : (m.srcs.insert src { entry with timeout := entry.timeout - 1 }).lookup src =
            some e := after
          rw [Map.lookup_insert_self] at after
          cases after
          show 0 < entry.timeout - 1 ∧ entry.timeout = entry.timeout - 1 + 1
          omega
      · intro m e entry' other _ after e' still
        rw [frame other] at still
        exact after e' still
    unfold sourceTime at there
    obtain ⟨e, still, rfl⟩ := Option.map_eq_some_iff.mp there
    obtain ⟨positive, down⟩ := done e still
    refine ⟨positive, ?_⟩
    unfold sourceTime
    rw [found, ← down]
    rfl

theorem counts_tick_source (localSide : n.type ≠ .remoteServer) :
    Counts (sourceTime src) n n.tick := by
  have goes : ¬ (n.sslExpires ∧ n.type = .remoteServer) := fun both => localSide both.2
  intro time there
  have kept (m : Node) : m.sweepRelays.endTimer.srcs = m.srcs := by
    have swept : m.sweepRelays.srcs = m.srcs :=
      Map.sweep_invariant (P := fun k : Node => k.srcs = m.srcs) rfl
        fun {k s relay} same _ => (quiet_visitRelay k s relay).srcs.trans same
    unfold endTimer
    split <;> exact swept
  unfold tick at there
  rw [if_neg goes] at there
  unfold sourceTime at there
  rw [kept] at there
  by_cases expires : n.sslExpires
  · -- the sources were cleared
    rw [if_pos expires] at there
    obtain ⟨_, was⟩ := counts_sweepSources n.sslTimeout.clearSources src time there
    have cleared : n.sslTimeout.clearSources.srcs = ∅ := (quiet_callUdpSend _ _).srcs
    unfold sourceTime at was
    rw [cleared, Map.lookup_empty] at was
    cases was
  · rw [if_neg expires] at there
    obtain ⟨positive, was⟩ := counts_sweepSources n.sslTimeout src time there
    refine ⟨positive, ?_⟩
    unfold sourceTime at was ⊢
    rw [(quiet_sslTimeout n).srcs] at was
    exact was

/-- A round leaves `_ssl`. -/
theorem ssl_tick (n : Node) : n.tick.ssl = n.ssl := by
  have sent (m : Node) (c : RelayCall) : (m.callUdpSend c).ssl = m.ssl := by
    unfold callUdpSend
    split <;> rfl
  refine tick_rule (P := fun m => m.ssl = n.ssl) ?_ (fun {m} same _ _ => ?_)
    (fun {m} same => (sent _ _).trans same) (fun {m src entry} same _ => ?_)
    (fun {m s relay} same _ => ?_) fun same _ => same
  · unfold sslTimeout
    split <;> rfl
  · show (m.relays.sweep (fun n _ relay => relay.elim n fun r => n.call r .stopRelay) m).ssl = _
    refine Map.sweep_invariant (P := fun k : Node => k.ssl = n.ssl) same fun {k s relay} same _ => ?_
    cases relay <;> exact same
  · unfold visitSource
    split
    · exact (sent _ _).trans same
    · exact same
  · unfold visitRelay
    split
    · exact same
    · split <;> exact same

/-- A round that does not stop the manager, once the ssl relay was counted. -/
structure SslCounted (n : Node) (k : RelayId) (m : Node) : Prop where
  state : m.state = n.state
  relays : ∀ {s r}, m.relays.lookup s = some (some r) → n.relays.lookup s = some (some r)
  time : (m.objs k).timeout = (n.objs k).timeoutDown.1.timeout

theorem SslCounted.delPeer {k : RelayId} (counted : SslCounted n k m) (s : UInt32) :
    SslCounted n k (m.callUdpSend (.delPeer s)) := by
  obtain ⟨calm, relays⟩ := calm_delPeer m s k
  have same : (m.callUdpSend (.delPeer s)).state = m.state := by
    unfold callUdpSend
    split <;> rfl
  refine ⟨same.trans counted.state, fun there => ?_, calm.timeout.trans counted.time⟩
  rw [relays] at there
  exact counted.relays there

theorem sslCounted_tick (wf : WellFormed n) {k : RelayId} (current : n.ssl = some k)
    (goes : ¬ (n.sslExpires ∧ n.type = .remoteServer)) (remote : n.type = .remoteServer) :
    SslCounted n k n.tick := by
  refine tick_rule ?_ (fun {m} _ _ expires => absurd ⟨expires, remote⟩ goes) (fun {m} counted => ?_)
    (fun {m src entry} counted _ => ?_) (fun {m s relay} counted visited => ?_) fun counted _ => ?_
  · have counts : n.sslTimeout = n.call k .timeoutDown := by
      unfold sslTimeout
      rw [current]
    rw [counts]
    refine ⟨rfl, id, ?_⟩
    rw [objs_call, if_pos rfl]
    rfl
  · have cleared : SslCounted n k { m with udpSrcs := ∅, srcs := ∅ } :=
      ⟨counted.state, counted.relays, counted.time⟩
    exact cleared.delPeer 0
  · unfold visitSource
    split
    · have erased : SslCounted n k { m with
          udpSrcs := m.udpSrcs.erase entry.session
          srcs := m.srcs.erase src } :=
        ⟨counted.state, counted.relays, counted.time⟩
      exact erased.delPeer _
    · exact ⟨counted.state, counted.relays, counted.time⟩
  · have other : relay ≠ some k := by
      rintro rfl
      exact (wf.relays (counted.relays visited)).2.1 (wf.ssl current).2
    have same : (m.visitRelay s relay).state = m.state := by
      unfold visitRelay
      split
      · rfl
      · split <;> rfl
    refine ⟨same.trans counted.state, fun there => ?_, ?_⟩
    · exact counted.relays ((quiet_visitRelay m s relay).relays there)
    · rw [objs_visitRelay_of_ne other]
      exact counted.time
  · exact ⟨counted.state, counted.relays, counted.time⟩

theorem counts_tick_manager (wf : WellFormed n) (remote : n.type = .remoteServer) :
    Counts managerTime n n.tick := by
  intro time there
  by_cases ends : n.sslExpires ∧ n.type = .remoteServer
  · have stopped : n.tick.state = .stop := by
      unfold tick
      rw [if_pos ends]
      rfl
    unfold managerTime at there
    rw [if_pos stopped] at there
    cases there
  · cases current : n.ssl with
    | none =>
      unfold managerTime at there
      rw [ssl_tick, current] at there
      split at there <;> cases there
    | some k =>
      have counted := sslCounted_tick wf current ends remote
      have running : (n.objs k).timeoutDown.2 ≠ 0 := by
        intro expired
        refine ends ⟨?_, remote⟩
        unfold sslExpires
        rw [current]
        exact decide_eq_true expired
      have down := Relay.timeoutDown_running running
      unfold managerTime at there ⊢
      rw [counted.state, ssl_tick, current] at there
      split at there
      · cases there
      · rename_i going
        rw [if_neg going, current]
        cases there
        show 0 < (n.tick.objs k).timeout ∧ some (n.objs k).timeout = some ((n.tick.objs k).timeout + 1)
        rw [counted.time, ← down.2]
        exact ⟨down.1, rfl⟩

/-! ## How much time there is -/

theorem timeout_make (relay : Relay) (known : ∀ r, r < n.next → (n.objs r).timeout ≤ timeoutTicks)
    (full : relay.timeout = timeoutTicks) (r : RelayId) (there : r < n.next + 1) :
    ((n.make relay).objs r).timeout ≤ timeoutTicks := by
  rw [objs_make]
  split
  · exact Nat.le_of_eq full
  · rename_i other
    exact known r (Nat.lt_of_le_of_ne (Nat.le_of_lt_succ there) other)

/-- The relays that were there, and those that are made. -/
theorem timeout_move (known : ∀ r, r < n.next → (n.objs r).timeout ≤ timeoutTicks)
    (move : Move n ls m) : ∀ r, r < m.next → (m.objs r).timeout ≤ timeoutTicks := by
  have called (a : RelayId) (c : RelayCall) (r : RelayId) (there : r < n.next) :
      ((n.call a c).objs r).timeout ≤ timeoutTicks := by
    rw [objs_call]
    split
    · rename_i same
      exact Nat.le_trans (Relay.timeout_call_le _ c) (known a (same ▸ there))
    · exact known r there
  have started (s : UInt32) : (n.newRawUdp s).startUdp.timeout = timeoutTicks :=
    Relay.timeout_call (r := n.newRawUdp s) (c := .startUdp) nofun
  cases move with
  | same same =>
    rw [same.next, same.objs]
    exact known
  | call | sendSsl | give => exact called _ _
  | newUdp isStarted =>
    refine timeout_make _ known ?_
    split
    · exact started 0
    · rfl
  | @makeUdp s _ => exact timeout_make _ known (started s)
  | newSsl => exact timeout_make n.newSslRelay known rfl
  | orphanUdp s => exact timeout_make (n.newRawUdp s) known rfl
  | makeTcp target => exact timeout_make (n.newRawTcp (some target)) known rfl
  | answer | list | slot | unlist | clear => exact known

theorem timeout_step {a : NodeAction} (wf : WellFormed n)
    (known : ∀ r, r < n.next → (n.objs r).timeout ≤ timeoutTicks) (stepped : n.step a = some m) :
    ∀ r, r < m.next → (m.objs r).timeout ≤ timeoutTicks := by
  have moved {ls : List Dealing} (path : Moves n ls m) :
      ∀ r, r < m.next → (m.objs r).timeout ≤ timeoutTicks :=
    path.invariant (P := fun m => ∀ r, r < m.next → (m.objs r).timeout ≤ timeoutTicks) known
      timeout_move
  rcases dealt_step wf stepped with dealt | outside
  · cases dealt with
    | silent path => exact moved path
    | kept _ _ path => exact moved path
    | given _ _ _ path => exact moved path
  · cases outside with
    | @accept dst _ => exact timeout_make (n.newAccepted dst) known rfl
    | udpPacket | release => exact known
    | @relay a ev relay outs callable handled =>
      intro r there
      show (Function.update n.objs a relay r).timeout ≤ timeoutTicks
      rw [Function.update_apply]
      split
      · obtain ⟨h, handle, rfl⟩ := Relay.step_eq_some.mp handled
        rcases (Relay.handles_of_handle handle).timeout with same | full
        · exact Nat.le_trans (Nat.le_of_eq same) (known a callable.1)
        · exact Nat.le_of_eq full
      · exact known r there

/-! ## The packets of a source -/

/-- The source that a handler of the manager gives its time back: that of a packet, or that of
a `DATA_UDP` to a transparent proxy. A session that is not in `_udp_srcs` is inserted there with
the default endpoint. -/
def renewed (n : Node) : ManagerTask → Option Endpoint
  | .sendUdpData src _ => some src
  | .addResponse _ buf =>
    if n.type = .localTransparent ∧ buf.cmd = .dataUdp then
      some ((n.udpSrcs.lookup buf.session).getD default)
    else none
  | _ => none

/-- The step handles a packet of the source, or one for it. -/
def Renews (src : Endpoint) (n : Node) : NodeAction → Prop
  | .manager _ => n.strand.head?.bind n.renewed = some src
  | _ => False

instance (src : Endpoint) (n : Node) (a : NodeAction) : Decidable (Renews src n a) := by
  cases a <;> unfold Renews <;> infer_instance

/-- The entry of the source is touched, and gets its full time or keeps what it has. -/
structure Touches (src : Endpoint) (n m : Node) : Prop where
  others : ∀ e, e ≠ src → m.srcs.lookup e = n.srcs.lookup e
  time : ∀ entry, m.srcs.lookup src = some entry →
    entry.timeout = timeoutTicks ∨ entry.timeout = (n.source src).timeout

theorem Touches.insert {a : Node} {entry : UdpTimeout}
    (others : ∀ e, e ≠ src → a.srcs.lookup e = n.srcs.lookup e)
    (time : entry.timeout = timeoutTicks ∨ entry.timeout = (n.source src).timeout)
    (srcs : m.srcs = a.srcs.insert src entry) : Touches src n m where
  others e other := by
    rw [srcs, Map.lookup_insert, if_neg other]
    exact others e other
  time after there := by
    rw [srcs, Map.lookup_insert_self] at there
    cases there
    exact time

theorem Touches.same {k : Node} (touches : Touches src n m) (srcs : k.srcs = m.srcs) :
    Touches src n k := by
  refine ⟨fun e other => ?_, fun entry there => ?_⟩ <;> rw [srcs] at *
  · exact touches.others e other
  · exact touches.time entry there

theorem touches_sendUdpData (throws : Throws) (src : Endpoint) (buf : Frame) :
    (n.sendUdpData throws src buf).Both (Touches src n) := by
  have forward {m : Node} (others : ∀ e, e ≠ src → m.srcs.lookup e = n.srcs.lookup e) :
      (m.forwardUdp throws src buf).Both (Touches src n) := by
    have full : Touches src n { m with
        srcs := m.srcs.insert src { m.source src with timeout := timeoutTicks } } :=
      .insert others (.inl rfl) rfl
    exact (quiet_addRequest _ _ _ _).mono fun _ quiet => full.same quiet.srcs
  unfold sendUdpData
  split
  · have assigned : Touches src n (n.assignSession src (n.source src)) := by
      have srcs : (n.assignSession src (n.source src)).srcs =
          n.srcs.insert src { n.source src with session := n.session + 1 } := rfl
      refine .insert (a := n) (fun _ _ => rfl) (.inr ?_) srcs
      rfl
    have made := (quiet_restartUdp (n.assignSession src (n.source src)) throws).mono
      fun _ quiet => assigned.same quiet.srcs
    refine Fallible.Both.andThen ?_ fun m touches => forward touches.others
    exact made.andThen fun m touches => touches.same (quiet_callUdpSend m _).srcs
  · exact forward fun _ _ => rfl

/-- **A handler of the manager** leaves the sources alone, but for one that it renews. -/
theorem touches_runTask (n : Node) (throws : Throws) (task : ManagerTask) :
    (n.runTask throws task).Both fun m =>
      m.srcs = n.srcs ∨ ∃ src, n.renewed task = some src ∧ Touches src n m := by
  cases task with
  | addRequest relay buf => exact .inl (quiet_addRequest n _ _ _).srcs
  | addLocalRawTcp relay =>
    show (n.addLocalRawTcp throws relay).Both _
    unfold addLocalRawTcp
    simp only
    split
    · exact .inl rfl
    · exact (quiet_startRawTcp _ throws relay _).mono fun m quiet => .inl quiet.srcs
  | sendUdpData src buf =>
    exact (touches_sendUdpData throws src buf).mono fun m touches => .inr ⟨src, rfl, touches⟩
  | addResponse k buf =>
    show (n.addResponse throws k buf).Both _
    unfold addResponse
    simp only
    split
    · exact (quiet_responseDataTcp _ throws buf).mono fun _ quiet => .inl quiet.srcs
    · rename_i isData
      split
      · rename_i transparent
        refine (quiet_localTransparentSendUdp _ throws buf).andThen_of
          (fun _ quiet => .inl quiet.srcs) fun m quiet =>
            .inr ⟨(n.udpSrcs.lookup buf.session).getD default, ?_, ?_⟩
        · simp only [renewed]
          rw [if_pos ⟨transparent, isData⟩]
        · let client := (n.udpSrcs.lookup buf.session).getD default
          have srcs : (m.touchSource buf.session).srcs =
              m.srcs.insert client { m.source client with timeout := timeoutTicks } := by
            unfold touchSource
            rw [show m.udpSrcs = n.udpSrcs from quiet.udpSrcs]
          refine .insert (a := m) (fun e _ => ?_) (.inl ?_) srcs
          · rw [quiet.srcs]
          · rfl
      · exact (sameTables_remoteServerSendUdp _ throws buf).mono fun _ same => .inl same.srcs
      · exact .inl rfl
    · exact (sameTables_remoteServerStartTcp _ throws buf).mono fun _ same => .inl same.srcs
    · exact .inl (quiet_responseStopTcp _ buf).srcs
    · exact .inl rfl

/-- Between the rounds the time of a source is set by its packets alone. -/
theorem unset_step {a : NodeAction} (other : a ≠ .tick) (idle : ¬ n.Renews src a)
    (stepped : n.step a = some m) : Unset (sourceTime src) n m := by
  suffices same : m.srcs.lookup src = n.srcs.lookup src by
    unfold Unset sourceTime
    rw [same]
    exact fun _ => id
  cases stepIs_of_step stepped with
  | accept _ | udpPacket _ | release _ | relay _ _ => exact rfl
  | tick _ => exact absurd rfl other
  | @manager throws task strand queue =>
    rcases touches_runTask { n with strand } throws task with same | ⟨renewed, isRenewed, touches⟩
    · rw [same]
    · refine touches.others src ?_
      rintro rfl
      unfold Renews at idle
      rw [queue] at idle
      exact idle isRenewed

/-! ## No more than `TIMEOUT` -/

/-- No source has more time. -/
def SourcesInTime (n : Node) : Prop :=
  ∀ src entry, n.srcs.lookup src = some entry → entry.timeout ≤ timeoutTicks

theorem SourcesInTime.same (inTime : SourcesInTime n) (srcs : m.srcs = n.srcs) :
    SourcesInTime m := by
  intro src entry there
  rw [srcs] at there
  exact inTime src entry there

theorem SourcesInTime.insert (inTime : SourcesInTime n) {entry : UdpTimeout}
    (time : entry.timeout ≤ timeoutTicks) (srcs : m.srcs = n.srcs.insert src entry) :
    SourcesInTime m := by
  intro e other there
  rw [srcs, Map.lookup_insert] at there
  split at there
  · cases there
    exact time
  · exact inTime e other there

theorem SourcesInTime.source (inTime : SourcesInTime n) (src : Endpoint) :
    (n.source src).timeout ≤ timeoutTicks := by
  unfold Node.source
  cases found : n.srcs.lookup src with
  | none => exact Nat.zero_le _
  | some entry => exact inTime src entry found

theorem SourcesInTime.touched (inTime : SourcesInTime n) (touches : Touches src n m) :
    SourcesInTime m := by
  intro e entry there
  by_cases same : e = src
  · subst same
    rcases touches.time entry there with full | before
    · exact Nat.le_of_eq full
    · exact before ▸ inTime.source e
  · rw [touches.others e same] at there
    exact inTime e entry there

theorem inTime_tick (inTime : SourcesInTime n) : SourcesInTime n.tick := by
  refine tick_rule (inTime.same (quiet_sslTimeout n).srcs) (fun {m} inTime _ _ => ?_)
    (fun {m} _ => ?_) (fun {m src entry} inTime found => ?_) (fun {m s relay} inTime _ => ?_)
    fun inTime _ => inTime
  · exact inTime.same (quiet_stopManager m).srcs
  · have cleared : SourcesInTime { m with udpSrcs := ∅, srcs := ∅ } := fun _ _ there => by
      replace there : (∅ : Map Endpoint UdpTimeout).lookup _ = some _ := there
      rw [Map.lookup_empty] at there
      cases there
    exact cleared.same (quiet_callUdpSend _ _).srcs
  · unfold visitSource
    split
    · have erased : SourcesInTime { m with
          udpSrcs := m.udpSrcs.erase entry.session
          srcs := m.srcs.erase src } := fun e other there =>
        inTime e other (Map.of_lookup_erase there).2
      exact erased.same (quiet_callUdpSend _ _).srcs
    · exact inTime.insert (Nat.le_trans (Nat.sub_le _ _) (inTime src entry found)) rfl
  · exact inTime.same (quiet_visitRelay m s relay).srcs

theorem inTime_step {a : NodeAction} (inTime : SourcesInTime n) (stepped : n.step a = some m) :
    SourcesInTime m := by
  cases stepIs_of_step stepped with
  | accept _ | udpPacket _ | release _ | relay _ _ => exact inTime
  | tick _ => exact inTime_tick inTime
  | @manager throws task strand queue =>
    have popped : SourcesInTime { n with strand } := inTime
    rcases touches_runTask { n with strand } throws task with same | ⟨src, _, touches⟩
    · exact popped.same same
    · exact popped.touched touches

/-! ## Runs -/

theorem timeout_reach {C : Node → NodeAction → Prop} {n₀ : Node} (starts : Starts n₀)
    (run : Reach step C n₀ n) : ∀ r, r < n.next → (n.objs r).timeout ≤ timeoutTicks := by
  refine run.invariant (P := fun n => ∀ r, r < n.next → (n.objs r).timeout ≤ timeoutTicks) ?_
    fun before known _ stepped => timeout_step (starts.sound before).wf known stepped
  intro r _
  cases starts <;> exact Nat.le_refl _

theorem inTime_reach {C : Node → NodeAction → Prop} {n₀ : Node} (starts : Starts n₀)
    (run : Reach step C n₀ n) : SourcesInTime n := by
  refine run.invariant ?_ fun _ inTime _ stepped => inTime_step inTime stepped
  intro src entry there
  cases starts <;> cases there

/-- **An idle session goes**: one whose relay nothing gave its time back is not in `_relays`
after `TIMEOUT` rounds. -/
theorem sessions_expire {C : Node → NodeAction → Prop} {n₀ : Node} (starts : Starts n₀)
    (run : Reach step C n₀ n) {k : Nat} (s : UInt32)
    (idle : Unwound step .tick (sessionTime s) n k m) (long : timeoutTicks ≤ k) :
    s ∉ m.relays := by
  apply sessionTime_eq_none.mp
  refine idle.expired (P := WellFormed) (starts.sound run).wf
    (fun wf stepped => wellFormed_step wf stepped) (fun {t u} wf ticked => ?_) ?_ (by decide) long
  · cases stepIs_of_step ticked with
    | tick _ => exact counts_tick_session wf
  · intro time there
    unfold sessionTime at there
    obtain ⟨relay, found, rfl⟩ := Option.map_eq_some_iff.mp there
    cases relay with
    | none => exact Nat.zero_le _
    | some r => exact timeout_reach starts run r ((starts.sound run).wf.relays found).1.1

/-- A connection is accepted, and nothing comes from its client. -/
theorem sessions_expire_accepted : ∃ n m, Reachable step (initLocal .localServer) n ∧
    1 ∈ n.relays ∧ Reachable step n m ∧ 1 ∉ m.relays := by
  have run := @Reach.of_isSome _ _ step anyStep (initLocal .localServer) _
    [.accept (.ipv4 8 8 8 8 53), .manager {}] (by decide +kernel)
  have other : ServerType.localServer ≠ .remoteServer := by decide
  have idle : Unwound step .tick (sessionTime 1) (Option.get (runFrom step anyStep
      (initLocal .localServer) [.accept (.ipv4 8 8 8 8 53), .manager {}]) (by decide +kernel))
      timeoutTicks _ := .of_isSome (C := anyStep) (by decide +kernel)
  exact ⟨_, _, run, by decide +kernel, idle.reachable,
    sessions_expire (.localSide other) run 1 idle (Nat.le_refl _)⟩

/-- **An idle UDP source goes**: one of which no packet is handled between the rounds, and for
which no `DATA_UDP` is, is not in `_srcs` after `TIMEOUT` rounds. -/
theorem sources_expire {C : Node → NodeAction → Prop} {type : ServerType}
    (localSide : type ≠ .remoteServer) (run : Reach step C (initLocal type) n) {k : Nat}
    (src : Endpoint) (idle : Rounds step .tick (fun n a => ¬ n.Renews src a) n k m)
    (long : timeoutTicks ≤ k) : src ∉ m.srcs := by
  have starts := Starts.localSide localSide
  have isLocal : n.type ≠ .remoteServer := by
    rw [(grows_reach starts.wellFormed run).type]
    exact localSide
  apply sourceTime_eq_none.mp
  refine (idle.unwound unset_step).expired (P := fun n => WellFormed n ∧ n.type ≠ .remoteServer)
    ⟨(starts.sound run).wf, isLocal⟩ (fun both stepped => ?_) (fun {t u} both ticked => ?_) ?_
    (by decide) long
  · have one : Reach step anyStep _ _ := Reach.refl.tail trivial stepped
    refine ⟨wellFormed_step both.1 stepped, ?_⟩
    rw [(grows_reach both.1 one).type]
    exact both.2
  · cases stepIs_of_step ticked with
    | tick _ => exact counts_tick_source both.2
  · intro time there
    unfold sourceTime at there
    obtain ⟨entry, found, rfl⟩ := Option.map_eq_some_iff.mp there
    exact inTime_reach starts run src entry found

/-- A packet from a client of the network. -/
def packetFrom (a b c d : UInt8) (port : UInt16) : NodeAction :=
  .udpPacket (.ipv4 a b c d port) (some (.ipv4 8 8 8 8 53)) (some [1])

/-- The ssl relay connects and sends its messages, and another client has one. -/
def meanwhile : List NodeAction :=
  List.replicate 3 (.relay 1 (.startup true)) ++
    [.relay 1 .task, .relay 1 (.startSend 0), packetFrom 10 0 0 2 6000, .manager {}]

/-- A client sends one packet and goes, and the other one stays. -/
theorem sources_expire_packet : ∃ n m, Reachable step (initLocal .localTransparent) n ∧
    Endpoint.ipv4 10 0 0 1 5000 ∈ n.srcs ∧ Reachable step n m ∧
    Endpoint.ipv4 10 0 0 1 5000 ∉ m.srcs ∧ Endpoint.ipv4 10 0 0 2 6000 ∈ m.srcs := by
  have run := @Reach.of_isSome _ _ step anyStep (initLocal .localTransparent) _
    [packetFrom 10 0 0 1 5000, .manager {}] (by decide +kernel)
  have other : ServerType.localTransparent ≠ .remoteServer := by decide
  have idle := @Rounds.of_isSome _ _ step .tick
    (fun n a => ¬ n.Renews (.ipv4 10 0 0 1 5000) a) (Option.get (runFrom step anyStep
      (initLocal .localTransparent) [packetFrom 10 0 0 1 5000, .manager {}]) (by decide +kernel))
    _ _ (List.replicate 5 .tick ++ meanwhile ++ List.replicate (timeoutTicks - 5) .tick)
    (by decide +kernel)
  exact ⟨_, _, run, by decide +kernel, idle.reachable,
    sources_expire other run _ idle (by decide), by decide +kernel⟩

theorem connected_step {a : NodeAction} (wf : WellFormed n) (connected : n.ssl ≠ none)
    (stepped : n.step a = some m) : m.ssl ≠ none := by
  have moved {ls : List Dealing} (path : Moves n ls m) : m.ssl ≠ none := by
    refine path.invariant (P := fun m => m.ssl ≠ none) connected fun {a b ls} connected move => ?_
    cases move with
    | same same => exact same.ssl ▸ connected
    | newSsl => exact nofun
    | _ => exact connected
  rcases dealt_step wf stepped with dealt | outside
  · cases dealt with
    | silent path => exact moved path
    | kept _ _ path => exact moved path
    | given _ _ _ path => exact moved path
  · cases outside <;> exact connected

/-- **An idle connection ends its manager**: a remote manager whose ssl relay nothing gave its
time back is stopped after `TIMEOUT` rounds. -/
theorem manager_expires {C : Node → NodeAction → Prop} (run : Reach step C initRemote n) {k : Nat}
    (idle : Unwound step .tick managerTime n k m) (long : timeoutTicks ≤ k) : m.state = .stop := by
  have starts := Starts.remote
  have isRemote : n.type = .remoteServer := (grows_reach starts.wellFormed run).type
  have connected : n.ssl ≠ none := by
    refine run.invariant (P := fun n => n.ssl ≠ none) nofun fun before connected _ stepped => ?_
    exact connected_step (starts.sound before).wf connected stepped
  have keep {t u : Node} {a : NodeAction}
      (all : WellFormed t ∧ t.type = .remoteServer ∧ t.ssl ≠ none) (stepped : t.step a = some u) :
      WellFormed u ∧ u.type = .remoteServer ∧ u.ssl ≠ none := by
    obtain ⟨wf, remote, connected⟩ := all
    have one : Reach step anyStep t u := Reach.refl.tail trivial stepped
    exact ⟨wellFormed_step wf stepped, (grows_reach wf one).type.trans remote,
      connected_step wf connected stepped⟩
  have start : WellFormed n ∧ n.type = .remoteServer ∧ n.ssl ≠ none :=
    ⟨(starts.sound run).wf, isRemote, connected⟩
  have counts {t u : Node} (all : WellFormed t ∧ t.type = .remoteServer ∧ t.ssl ≠ none)
      (ticked : t.step .tick = some u) : Counts managerTime t u := by
    cases stepIs_of_step ticked with
    | tick _ => exact counts_tick_manager all.1 all.2.1
  have gone : managerTime m = none := by
    refine idle.expired start keep counts (fun time there => ?_) (by decide) long
    unfold managerTime at there
    split at there
    · cases there
    · obtain ⟨k, current, rfl⟩ := Option.map_eq_some_iff.mp there
      exact timeout_reach starts run k ((starts.sound run).wf.ssl current).1
  have still := (idle.time start keep counts).1.2.2
  unfold managerTime at gone
  split at gone
  · rename_i stopped
    exact stopped
  · exact absurd (Option.map_eq_none_iff.mp gone) still

theorem manager_expires_silent : ∃ m, Reachable step initRemote m ∧ m.state = .stop := by
  have idle := @Unwound.of_isSome _ _ step .tick managerTime initRemote timeoutTicks anyStep _
    (by decide +kernel)
  exact ⟨_, idle.reachable, manager_expires (Reach.refl (C := anyStep)) idle (Nat.le_refl _)⟩

end Node

end SslSocks
