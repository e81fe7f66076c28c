import SslSocks.NodeLedger
import SslSocks.NodeWalk

/-!
# The countdown of the timer and the traffic of the relays

`Relay.Moves` are the events by which payload goes through a socket, and `Relay.Resets` those
that come to `reset_timeout`: `start_send` takes a message, a raw_tcp goes on with a read, an
ssl relay has read a whole message. `Handles.timeout_eq` says that a handler sets the counter
back at these and leaves it alone at all others. A raw_udp that receives, `impl_local_relay`
and the progress of a long read or write are of the first kind only; and on the remote side
the end of the ssl relay's time ends all relays.

`Watched` adds to a node, for each relay, the rounds of the timer since the last event of
either kind, and to its steps those by which `impl_local_relay` reads and writes between two
completions. `CountersMeet` asks that in each round with payload there was a `reset_timeout`
too, and that the ssl relay of a remote manager does not run out before its relays.
`idleTimer_spares` shows that a round then stops or removes only relays whose payload has not
moved for `TIMEOUT` rounds, this one included.
-/

namespace SslSocks

open Lib

namespace Relay

variable {r r' : Relay} {alive : Bool} {ev : RelayEvent} {outs : List RelayOut}

/-- The event reads a byte of payload from a socket or writes one to it. The header of a
message on the ssl connection is none, and neither is the SOCKS5 negotiation. -/
def Moves (r : Relay) : RelayEvent → Bool
  | .arrive arrival =>
    r.reading &&
      match arrival, r.ssl.reader with
      | .stream _, .header => r.kind ≠ .ssl
      | .stream _, .payload _ _ => true
      | .datagram _ bytes, _ => !bytes.isEmpty
  | .take count =>
    match r.sending, r.bufs with
    | some (.stream rest), buf :: _ => rest.length < count + buf.payload.length
    | _, _ => false
  | .transmit =>
    match r.sending with
    | some (.datagram _ (some window) false) => !window.isEmpty
    | _ => false
  -- what `impl_local_relay` moves before it completes is a step of its own in `Watched`
  | .direct _ ok => ok
  | _ => false

/-- The handler comes to `reset_timeout`. -/
def Resets (r : Relay) (alive : Bool) : RelayEvent → Bool
  | .startSend _ => r.state = .init && r.bufs ≠ []
  | .sent _ => r.state ≠ .stop && r.bufs.tail ≠ []
  | .read =>
    match r.arrived with
    | some (.stream bytes) =>
      if r.kind = .ssl then
        match r.ssl.reader.feed bytes with
        | .message _ => true
        | _ => false
      else alive
    | _ => false
  | _ => false

/-- The calls of `stop_relay` that have not run. -/
def stopsAsked (r : Relay) : Nat := r.inbox.count .stopRelay + r.ssl.stops

/-! ## The counter in a relay's own handlers and in calls -/

theorem timeout_stopHere (r : Relay) : r.stopHere.timeout = r.timeout := by
  rcases stopHere_cases r with ⟨_, same⟩ | ⟨_, ⟨_, same⟩ | ⟨_, same⟩⟩ <;> rw [same]

theorem timeout_stopTask (r : Relay) : r.stopTask.timeout = r.timeout := by
  rcases stopTask_cases r with ⟨_, same⟩ | ⟨_, same⟩ <;> rw [same]

/-- The loop sets the counter back when there is a message to send. -/
theorem SendLoop.timeout_eq (loop : SendLoop r r') :
    r'.timeout = if r.state ≠ .stop ∧ r.bufs ≠ [] then timeoutTicks else r.timeout := by
  have taken {buf : Frame} {rest : List Frame} (bufs : r.bufs = buf :: rest)
      (running : r.state ≠ .stop) : r.state ≠ .stop ∧ r.bufs ≠ [] :=
    ⟨running, bufs ▸ List.cons_ne_nil buf rest⟩
  cases loop with
  | empty bufs => rw [if_neg fun both => both.2 bufs]
  | stopped _ state => rw [if_neg fun both => both.1 state]
  | stream bufs running => rw [if_pos (taken bufs running)]
  | datagram _ _ _ bufs running => rw [if_pos (taken bufs running)]
  | threw _ _ bufs running =>
    rw [if_pos (taken bufs running)]
    exact timeout_stopHere _

/-- **A handler and the counter**: it is set back at `reset_timeout`, and nowhere else. -/
theorem Handles.timeout_eq (handled : Handles alive r ev r' outs) :
    r'.timeout = if r.Resets alive ev then timeoutTicks else r.timeout := by
  cases handled with
  | stopTask => exact timeout_stopTask _
  | sendError | readError | startupThrew | requestBad | directFailed =>
    exact timeout_stopHere _
  | startIdle _ other =>
    rw [if_neg]
    simp [Resets, other]
  | startSend _ init loop =>
    rw [loop.timeout_eq]
    simp [Resets, init]
  | sent _ loop =>
    rw [loop.timeout_eq]
    simp [Resets]
  | readRaw arrived _ raw alive =>
    rw [if_pos]
    simp [Resets, arrived, raw, alive]
  | readRawDead arrived _ raw dead =>
    rw [if_neg]
    simp [Resets, arrived, raw, dead]
  | readMessage arrived _ ssl message | readMessageDead arrived _ ssl message =>
    rw [if_pos]
    simp [Resets, arrived, ssl, message]
  | readMore arrived _ ssl more | readOverrun arrived _ ssl more =>
    rw [if_neg]
    simp [Resets, arrived, ssl, more]
  | readThrew arrived _ ssl threw =>
    rw [if_neg (by simp [Resets, arrived, ssl, threw])]
    exact timeout_stopHere _
  | readDatagram arrived | readDatagramDead arrived =>
    rw [if_neg]
    simp [Resets, arrived]
  | _ => rfl

theorem Handles.timeout (handled : Handles alive r ev r' outs) :
    r'.timeout = r.timeout ∨ r'.timeout = timeoutTicks := by
  rw [handled.timeout_eq]
  split
  · exact .inr rfl
  · exact .inl rfl

theorem timeout_call {c : RelayCall} (other : c ≠ .timeoutDown) :
    (r.call c).timeout = r.timeout := by
  cases c with
  | timeoutDown => exact absurd rfl other
  | stopRelay =>
    show r.stopRelay.timeout = r.timeout
    unfold stopRelay
    split <;> rfl
  | startUdp =>
    show r.startUdp.timeout = r.timeout
    unfold startUdp
    split <;> rfl
  | sendData | addPeer | delPeer | begin | emit | startRead => rfl

/-- `timeout_down` of a relay with time left. -/
theorem timeoutDown_of_le (time : 2 ≤ r.timeout) :
    r.timeoutDown = ({ r with timeout := r.timeout - 1 }, r.timeout - 1) := by
  unfold timeoutDown
  rw [if_neg (by omega), if_neg (by omega)]

theorem timeoutDown_ne_zero (time : 2 ≤ r.timeout) : r.timeoutDown.2 ≠ 0 := by
  rw [timeoutDown_of_le time]
  show r.timeout - 1 ≠ 0
  omega

end Relay

namespace Node

variable {n m : Node} {r : RelayId}

/-! ## The counters in the manager's handlers -/

/-- The relays made before have the time they had, and new ones have theirs. -/
structure SameTimes (n m : Node) : Prop where
  next : n.next ≤ m.next
  timeout : ∀ {r}, r < n.next → (m.objs r).timeout = (n.objs r).timeout
  full : ∀ {r}, n.next ≤ r → r < m.next → (m.objs r).timeout = timeoutTicks

/-- No relay is made. -/
theorem SameTimes.of_next (next : m.next = n.next)
    (timeout : ∀ {r}, r < n.next → (m.objs r).timeout = (n.objs r).timeout) : SameTimes n m :=
  ⟨Nat.le_of_eq next.symm, timeout, fun {r} new known =>
    absurd (next ▸ known : r < n.next) (Nat.not_lt.mpr new)⟩

theorem sameTimes_walk : Walk SameTimes where
  trans := fun {n m k} first second => by
    refine ⟨Nat.le_trans first.next second.next, fun known => ?_, fun {r} new known => ?_⟩
    · exact (second.timeout (Nat.lt_of_lt_of_le known first.next)).trans (first.timeout known)
    · by_cases between : r < m.next
      · exact (second.timeout between).trans (first.full new between)
      · exact second.full (Nat.not_lt.mp between) known
  same := fun objs next => .of_next next fun {r} _ => by rw [objs]
  call := fun n a c other => by
    refine .of_next rfl fun {r} _ => ?_
    rw [objs_call]
    split
    · rename_i same
      rw [same, Relay.timeout_call other]
    · rfl
  make := fun n relay full => by
    refine ⟨Nat.le_succ _, fun {r} known => by rw [objs_make_of_lt _ known], fun {r} new known => ?_⟩
    obtain rfl : r = n.next := Nat.le_antisymm (Nat.le_of_lt_succ known) new
    rw [objs_make, if_pos rfl]
    exact full

/-! ## A round of the timer, for one relay -/

/-- The round leaves the relay in its place and does not call its `stop_relay`. -/
structure Spared (n m : Node) (r : RelayId) : Prop where
  relays : ∀ {s}, n.relays.lookup s = some (some r) → m.relays.lookup s = some (some r)
  stops : (m.objs r).stopsAsked = (n.objs r).stopsAsked

/-- The relay has the time and the calls of `stop_relay` that it had. -/
structure Calm (n m : Node) (r : RelayId) : Prop where
  timeout : (m.objs r).timeout = (n.objs r).timeout
  stops : (m.objs r).stopsAsked = (n.objs r).stopsAsked

theorem Calm.trans {k : Node} (first : Calm n m r) (second : Calm m k r) : Calm n k r :=
  ⟨second.timeout.trans first.timeout, second.stops.trans first.stops⟩

theorem Calm.of_eq (same : m.objs r = n.objs r) : Calm n m r := by
  constructor <;> rw [same]

theorem calm_delPeer (n : Node) (s : UInt32) (r : RelayId) :
    Calm n (n.callUdpSend (.delPeer s)) r ∧ (n.callUdpSend (.delPeer s)).relays = n.relays := by
  unfold callUdpSend
  split
  · exact ⟨.of_eq rfl, rfl⟩
  · rename_i u _
    refine ⟨?_, rfl⟩
    by_cases same : r = u
    · subst same
      have posted : (n.call r (.delPeer s)).objs r = (n.objs r).post (.delPeer s) := by
        rw [objs_call, if_pos rfl]
        rfl
      constructor
      · rw [posted]
        rfl
      · rw [posted]
        simp [Relay.stopsAsked, Relay.post]
    · exact .of_eq (objs_call_of_ne _ same)

theorem calm_sweepSources (n : Node) (r : RelayId) :
    Calm n n.sweepSources r ∧ n.sweepSources.relays = n.relays := by
  refine Map.sweep_invariant (P := fun m : Node => Calm n m r ∧ m.relays = n.relays)
    ⟨.of_eq rfl, rfl⟩ fun {m src entry} both _ => ?_
  obtain ⟨calm, same⟩ := both
  unfold visitSource
  split
  · have sent := calm_delPeer { m with
      udpSrcs := m.udpSrcs.erase entry.session, srcs := m.srcs.erase src } entry.session r
    exact ⟨calm.trans ⟨sent.1.timeout, sent.1.stops⟩, sent.2.trans same⟩
  · exact ⟨calm.trans (.of_eq rfl), same⟩

/-- A relay that is not in `_relays` is not stopped with it. -/
theorem objs_stopManager (absent : ∀ s, n.relays.lookup s ≠ some (some r)) :
    n.stopManager.objs r = n.objs r := by
  show (n.relays.sweep (fun n _ relay => relay.elim n fun r => n.call r .stopRelay) n).objs r = _
  refine Map.sweep_invariant (P := fun m : Node => m.objs r = n.objs r) rfl
    fun {m s relay} same found => ?_
  cases relay with
  | none => exact same
  | some a =>
    have other : r ≠ a := by
      rintro rfl
      exact absent s found
    exact (objs_call_of_ne _ other).trans same

/-- The visit of another relay. -/
theorem objs_visitRelay_of_ne {s : UInt32} {relay : Option RelayId} (other : relay ≠ some r) :
    (n.visitRelay s relay).objs r = n.objs r := by
  unfold visitRelay
  split
  · rfl
  · rename_i a
    have ne : r ≠ a := fun same => other (same ▸ rfl)
    split
    · exact objs_call_of_ne _ ne
    · exact objs_call_of_ne _ ne

theorem objs_sweepRelays (absent : ∀ s, n.relays.lookup s ≠ some (some r)) :
    n.sweepRelays.objs r = n.objs r := by
  refine Map.sweep_invariant (P := fun m : Node => m.objs r = n.objs r) rfl
    fun {m s relay} same found => ?_
  exact (objs_visitRelay_of_ne fun eq => absent s (eq ▸ found)).trans same

/-- The loop over `_relays` counts the time of a relay down by one. -/
theorem spared_sweepRelays {s : UInt32} (there : n.relays.lookup s = some (some r))
    (once : ∀ s', n.relays.lookup s' = some (some r) → s' = s) (time : 2 ≤ (n.objs r).timeout) :
    n.sweepRelays.relays.lookup s = some (some r) ∧
      (n.sweepRelays.objs r).stopsAsked = (n.objs r).stopsAsked ∧
      (n.sweepRelays.objs r).timeout + 1 = (n.objs r).timeout := by
  have another {k : UInt32} {v : Option RelayId} (other : k ≠ s) (found : n.relays.lookup k = some v) :
      v ≠ some r := fun eq => other (once k (eq ▸ found))
  refine Map.sweep_focus
    (P := fun m : Node => m.relays.lookup s = some (some r) ∧ m.objs r = n.objs r)
    (Q := fun m : Node => m.relays.lookup s = some (some r) ∧
      (m.objs r).stopsAsked = (n.objs r).stopsAsked ∧
      (m.objs r).timeout + 1 = (n.objs r).timeout) there ⟨there, rfl⟩ ?_ ?_ ?_
  · rintro m k v other found ⟨still, same⟩
    exact ⟨(relays_visitRelay_of_ne (Ne.symm other)).trans still,
      (objs_visitRelay_of_ne (another other found)).trans same⟩
  · rintro m ⟨still, same⟩
    have left : 2 ≤ (m.objs r).timeout := same ▸ time
    have visited : m.visitRelay s (some r) = m.call r .timeoutDown :=
      if_neg (Relay.timeoutDown_ne_zero left)
    have counted : (m.call r .timeoutDown).objs r =
        { n.objs r with timeout := (n.objs r).timeout - 1 } := by
      rw [objs_call, if_pos rfl, Relay.call, Relay.timeoutDown_of_le left, same]
    rw [visited, counted]
    refine ⟨still, rfl, ?_⟩
    show (n.objs r).timeout - 1 + 1 = (n.objs r).timeout
    omega
  · rintro m k v other found ⟨still, stops, timeout⟩
    rw [objs_visitRelay_of_ne (another other found)]
    exact ⟨(relays_visitRelay_of_ne (Ne.symm other)).trans still, stops, timeout⟩

/-- The ssl relay that runs out has no time left. -/
theorem sslExpires_ne (time : 2 ≤ (n.objs r).timeout) (expires : n.sslExpires) :
    n.ssl ≠ some r := by
  intro current
  unfold sslExpires at expires
  rw [current] at expires
  exact Relay.timeoutDown_ne_zero time (of_decide_eq_true expires)

theorem objs_sslTimeout_of_ne (other : n.ssl ≠ some r) : n.sslTimeout.objs r = n.objs r := by
  unfold sslTimeout
  split
  · rfl
  · rename_i k current
    refine objs_call_of_ne _ ?_
    rintro rfl
    exact other current

theorem relays_sslTimeout (n : Node) : n.sslTimeout.relays = n.relays := by
  unfold sslTimeout
  split <;> rfl

theorem endTimer_eq (n : Node) : n.endTimer.relays = n.relays ∧ n.endTimer.objs = n.objs := by
  unfold endTimer
  split <;> exact ⟨rfl, rfl⟩

/-- The part of a round between the count of the ssl relay and the loop over `_relays`. -/
theorem calm_sources (n m : Node) (r : RelayId)
    (start : m = n.sslTimeout.clearSources ∨ m = n.sslTimeout) :
    Calm n.sslTimeout m.sweepSources r ∧ m.sweepSources.relays = n.relays := by
  have cleared : Calm n.sslTimeout m r ∧ m.relays = n.relays := by
    rcases start with rfl | rfl
    · have sent := calm_delPeer { n.sslTimeout with udpSrcs := ∅, srcs := ∅ } 0 r
      exact ⟨⟨sent.1.timeout, sent.1.stops⟩, sent.2.trans (relays_sslTimeout n)⟩
    · exact ⟨.of_eq rfl, relays_sslTimeout n⟩
  have swept := calm_sweepSources m r
  exact ⟨cleared.1.trans swept.1, swept.2.trans cleared.2⟩

/-- **A round and a relay with time left**: it stays where it is and is not stopped, unless
the manager is stopped for its ssl relay, and its counter goes down by one at most. -/
theorem spared_tick (wf : WellFormed n) (time : 2 ≤ (n.objs r).timeout)
    (safe : n.type = .remoteServer → n.sslExpires → ∀ s, n.relays.lookup s ≠ some (some r)) :
    Spared n n.tick r ∧ (n.objs r).timeout ≤ (n.tick.objs r).timeout + 1 := by
  unfold tick
  by_cases ends : n.sslExpires ∧ n.type = .remoteServer
  · rw [if_pos ends]
    have absent := safe ends.2 ends.1
    have kept : n.sslTimeout.stopManager.objs r = n.objs r := by
      refine (objs_stopManager ?_).trans (objs_sslTimeout_of_ne (sslExpires_ne time ends.1))
      rw [relays_sslTimeout]
      exact absent
    refine ⟨⟨fun {s} there => absurd there (absent s), ?_⟩, ?_⟩
    · show (n.sslTimeout.stopManager.objs r).stopsAsked = _
      rw [kept]
    · show _ ≤ (n.sslTimeout.stopManager.objs r).timeout + 1
      rw [kept]
      omega
  · rw [if_neg ends]
    have start : (if n.sslExpires then n.sslTimeout.clearSources else n.sslTimeout) =
        n.sslTimeout.clearSources ∨
        (if n.sslExpires then n.sslTimeout.clearSources else n.sslTimeout) = n.sslTimeout := by
      split
      · exact .inl rfl
      · exact .inr rfl
    obtain ⟨⟨timeout, stops⟩, relays⟩ := calm_sources n _ r start
    generalize (if n.sslExpires then n.sslTimeout.clearSources else n.sslTimeout).sweepSources = m
      at timeout stops relays
    obtain ⟨endRelays, endObjs⟩ := endTimer_eq m.sweepRelays
    by_cases ssl : n.ssl = some r
    · -- the ssl relay was counted before, and is not in `_relays`
      have counted : n.sslTimeout.objs r =
          { n.objs r with timeout := (n.objs r).timeout - 1 } := by
        unfold sslTimeout
        rw [ssl]
        show (n.call r .timeoutDown).objs r = _
        rw [objs_call, if_pos rfl, Relay.call, Relay.timeoutDown_of_le time]
      have absent (s : UInt32) : n.relays.lookup s ≠ some (some r) := fun there =>
        (wf.relays there).2.1 (wf.ssl ssl).2
      have swept := objs_sweepRelays (n := m) (r := r) (relays ▸ absent)
      rw [counted] at timeout stops
      refine ⟨⟨fun {s} there => absurd there (absent s), ?_⟩, ?_⟩
      · rw [endObjs, swept, stops]
        rfl
      · rw [endObjs, swept, timeout]
        show (n.objs r).timeout ≤ (n.objs r).timeout - 1 + 1
        omega
    · rw [objs_sslTimeout_of_ne ssl] at timeout stops
      by_cases there : ∃ s, n.relays.lookup s = some (some r)
      · obtain ⟨s, there⟩ := there
        obtain ⟨still, sweptStops, sweptTime⟩ := spared_sweepRelays (n := m) (s := s) (relays ▸ there)
          (fun s' there' => wf.relays_inj (relays ▸ there') there) (timeout ▸ time)
        refine ⟨⟨fun {s'} there' => ?_, ?_⟩, ?_⟩
        · rw [wf.relays_inj there' there, endRelays, still]
        · rw [endObjs, sweptStops, stops]
        · rw [endObjs]
          omega
      · have absent (s : UInt32) : n.relays.lookup s ≠ some (some r) := fun found =>
          there ⟨s, found⟩
        have swept := objs_sweepRelays (n := m) (r := r) (relays ▸ absent)
        refine ⟨⟨fun {s} found => absurd found (absent s), ?_⟩, ?_⟩
        · rw [endObjs, swept, stops]
        · rw [endObjs, swept, timeout]
          omega

/-- A round takes one from a counter at most. -/
theorem timeout_tick (wf : WellFormed n) (known : r < n.next) :
    (n.objs r).timeout ≤ (n.tick.objs r).timeout + 1 := by
  by_cases time : 2 ≤ (n.objs r).timeout
  · by_cases ends : n.sslExpires ∧ n.type = .remoteServer
    · have counted : n.sslTimeout.objs r = n.objs r :=
        objs_sslTimeout_of_ne (sslExpires_ne time ends.1)
      have stopped := (sameTimes_walk.stopManager n.sslTimeout).timeout
        (next_sslTimeout n ▸ known : r < n.sslTimeout.next)
      have ended : (n.tick.objs r).timeout = (n.sslTimeout.stopManager.objs r).timeout := by
        unfold tick
        rw [if_pos ends]
      rw [ended, stopped, counted]
      exact Nat.le_succ _
    · exact (spared_tick wf time fun remote expires => absurd ⟨expires, remote⟩ ends).2
  · omega

end Node

/-! ## Runs with the rounds since a relay's events -/

/-- A node, and for each relay the rounds of the timer since a byte of its payload moved,
`none` if none has; and those since its last `reset_timeout`, or since it was made. -/
structure Watched where
  node : Node
  quiet : RelayId → Option Nat := fun _ => none
  rest : RelayId → Nat := fun _ => 0

inductive WatchedAction
  | node (a : NodeAction)
  /-- Bytes go through a socket of `impl_local_relay`, whose await goes on or has not yet
  come to its handler. -/
  | carried (r : RelayId)

namespace Watched

def watchQuiet (w : Watched) : NodeAction → RelayId → Option Nat
  | .tick => fun r => (w.quiet r).map (· + 1)
  | .relay r ev =>
    if (w.node.objs r).Moves ev then Function.update w.quiet r (some 0) else w.quiet
  | _ => w.quiet

def watchRest (w : Watched) : NodeAction → RelayId → Nat
  | .tick => fun r => if r < w.node.next then w.rest r + 1 else 0
  | .relay r ev =>
    if (w.node.objs r).Resets w.node.alive ev then Function.update w.rest r 0 else w.rest
  | _ => w.rest

def step (w : Watched) : WatchedAction → Option Watched
  | .node a => (w.node.step a).map fun node => ⟨node, w.watchQuiet a, w.watchRest a⟩
  | .carried r =>
    if r < w.node.next ∧
        ((w.node.objs r).tcp.toClient ≠ .off ∨ (w.node.objs r).tcp.toRemote ≠ .off) then
      some { w with quiet := Function.update w.quiet r (some 0) }
    else none

/-- The condition on a step. At a round of the timer, a relay whose payload moved since the
round before has also come to `reset_timeout` since then, or was made since then; and when
the ssl relay of a remote manager has not for `TIMEOUT` rounds, this one included, then
neither have the relays of `_relays` that have moved payload. -/
def CountersMeet (w : Watched) : WatchedAction → Prop
  | .node .tick =>
    (∀ r, r < w.node.next → w.quiet r = some 0 → w.rest r = 0) ∧
    (w.node.type = .remoteServer → ∀ k ∈ w.node.ssl, timeoutTicks ≤ w.rest k + 1 →
      ∀ relay ∈ w.node.relays.values, ∀ r ∈ relay,
        w.quiet r = none ∨ timeoutTicks ≤ w.rest r + 1)
  | _ => True

instance (w : Watched) : DecidablePred w.CountersMeet
  | .node .tick => inferInstanceAs (Decidable (_ ∧ _))
  | .node (.accept _) | .node (.udpPacket _ _ _) | .node (.manager _) | .node .release
  | .node (.relay _ _) | .carried _ => isTrue trivial

variable {w w' : Watched} {n₀ n m : Node}

theorem step_node {a : NodeAction} :
    w.step (.node a) = some w' ↔
      w.node.step a = some w'.node ∧ w'.quiet = w.watchQuiet a ∧ w'.rest = w.watchRest a := by
  show (w.node.step a).map _ = _ ↔ _
  constructor
  · intro stepped
    obtain ⟨m, enabled, rfl⟩ := Option.map_eq_some_iff.mp stepped
    exact ⟨enabled, rfl, rfl⟩
  · rintro ⟨enabled, quiet, rest⟩
    rw [enabled, ← quiet, ← rest]
    rfl

theorem step_carried {r : RelayId} (stepped : w.step (.carried r) = some w') :
    r < w.node.next ∧ w' = { w with quiet := Function.update w.quiet r (some 0) } := by
  obtain ⟨on, same⟩ := Option.ite_none_right_eq_some.mp stepped
  exact ⟨on.1, (Option.some.inj same).symm⟩

/-- The node of a watched run has a run. -/
theorem reach_node {C : Watched → WatchedAction → Prop} {w₀ : Watched}
    (run : Reach step C w₀ w) : Reachable Node.step w₀.node w.node := by
  refine run.project Watched.node fun {t a u} _ _ stepped => ?_
  cases a with
  | node a => exact Reach.refl.tail trivial (step_node.mp stepped).1
  | carried r =>
    obtain ⟨_, rfl⟩ := step_carried stepped
    exact .refl

/-- Every run of a node can be watched. -/
theorem reach_watched (run : Reachable Node.step n₀ n) :
    ∃ quiet rest, Reachable step { node := n₀ } ⟨n, quiet, rest⟩ := by
  induction run with
  | refl => exact ⟨_, _, .refl⟩
  | tail _ _ enabled ih =>
    obtain ⟨quiet, rest, watched⟩ := ih
    exact ⟨_, _, watched.tail trivial (step_node.mpr ⟨enabled, rfl, rfl⟩)⟩

/-- The counter of a relay is full less the rounds since it was set back, at most. -/
structure Counted (w : Watched) : Prop where
  left : ∀ {r}, r < w.node.next → timeoutTicks ≤ (w.node.objs r).timeout + w.rest r
  unmade : ∀ {r}, w.node.next ≤ r → w.rest r = 0

/-- In the rounds since the payload of a relay moved there was a `reset_timeout`, unless it
moved in this one. -/
structure Rested (w : Watched) : Prop where
  known : ∀ {r j}, w.quiet r = some j → r < w.node.next
  rest : ∀ {r j}, w.quiet r = some j → 0 < j → w.rest r ≤ j

/-- Between the rounds the counter is set back with the history, and new relays have their
time. -/
theorem counted_node {a : NodeAction} (wf : w.node.WellFormed) (counted : w.Counted)
    (stepped : w.step (.node a) = some w') : w'.Counted := by
  obtain ⟨enabled, _, watched⟩ := step_node.mp stepped
  obtain ⟨m, quiet, rest⟩ := w'
  obtain rfl : rest = w.watchRest a := watched
  -- a step that is no round and changes no counter of an old relay
  have same (times : Node.SameTimes w.node m) : Counted ⟨m, quiet, w.rest⟩ := by
    refine ⟨fun {r} known => ?_, fun {r} new => counted.unmade (Nat.le_trans times.next new)⟩
    show timeoutTicks ≤ (m.objs r).timeout + w.rest r
    by_cases old : r < w.node.next
    · rw [times.timeout old]
      exact counted.left old
    · rw [times.full (Nat.not_lt.mp old) known]
      exact Nat.le_add_right _ _
  cases Node.stepIs_of_step enabled with
  | @accept dst _ =>
    have made := Node.sameTimes_walk.make w.node (w.node.newAccepted dst) rfl
    exact same ⟨made.next, made.timeout, made.full⟩
  | udpPacket _ | release _ => exact same (.of_next rfl fun _ => rfl)
  | @manager throws task strand queue =>
    have done := Node.sameTimes_walk.runTask { w.node with strand } throws task
    exact same ⟨done.next, done.timeout, done.full⟩
  | tick _ =>
    refine ⟨fun {r} known => ?_, fun {r} new => ?_⟩
    · have old : r < w.node.next := Node.next_tick w.node ▸ known
      have before := counted.left old
      have down := Node.timeout_tick wf old
      show timeoutTicks ≤ (w.node.tick.objs r).timeout +
        if r < w.node.next then w.rest r + 1 else 0
      rw [if_pos old]
      omega
    · have unmade : w.node.next ≤ r := Node.next_tick w.node ▸ new
      exact if_neg (Nat.not_lt.mpr unmade)
  | @relay a ev relay outs known handled =>
    obtain ⟨h, done, rfl⟩ := Relay.step_eq_some.mp handled
    have timeout : (h.note outs).timeout = _ := (Relay.handles_of_handle done).timeout_eq
    refine ⟨fun {r} old => ?_, fun {r} new => ?_⟩
    · show timeoutTicks ≤ (Function.update w.node.objs a (h.note outs) r).timeout +
        (if (w.node.objs a).Resets w.node.alive ev then Function.update w.rest a 0 else w.rest) r
      have before := counted.left old
      by_cases other : r = a
      · subst other
        rw [Function.update_self, timeout]
        split
        · exact Nat.le_add_right _ _
        · exact before
      · rw [Function.update_of_ne other]
        split
        · rw [Function.update_of_ne other]
          exact before
        · exact before
    · have other : r ≠ a := Nat.ne_of_gt (Nat.lt_of_lt_of_le known new)
      show (if (w.node.objs a).Resets w.node.alive ev then Function.update w.rest a 0
        else w.rest) r = 0
      split
      · rw [Function.update_of_ne other]
        exact counted.unmade new
      · exact counted.unmade new

theorem counted_step {a : WatchedAction} (wf : w.node.WellFormed) (counted : w.Counted)
    (stepped : w.step a = some w') : w'.Counted := by
  cases a with
  | node a => exact counted_node wf counted stepped
  | carried r =>
    obtain ⟨_, rfl⟩ := step_carried stepped
    exact ⟨counted.left, counted.unmade⟩

theorem rested_node {a : NodeAction} (rested : w.Rested) (meets : w.CountersMeet (.node a))
    (stepped : w.step (.node a) = some w') : w'.Rested := by
  obtain ⟨enabled, quieted, watched⟩ := step_node.mp stepped
  obtain ⟨m, quiet, rest⟩ := w'
  obtain rfl : rest = w.watchRest a := watched
  obtain rfl : quiet = w.watchQuiet a := quieted
  have same (next : w.node.next ≤ m.next) : Rested ⟨m, w.quiet, w.rest⟩ :=
    ⟨fun moved => Nat.lt_of_lt_of_le (rested.known moved) next, rested.rest⟩
  cases Node.stepIs_of_step enabled with
  | accept _ => exact same (Nat.le_succ _)
  | udpPacket _ | release _ => exact same (Nat.le_refl _)
  | @manager throws task strand queue =>
    have done := Node.sameTimes_walk.runTask { w.node with strand } throws task
    exact same done.next
  | tick _ =>
    refine ⟨fun {r j'} moved => ?_, fun {r j'} moved _ => ?_⟩
    · obtain ⟨j, before, _⟩ := Option.map_eq_some_iff.mp moved
      show r < w.node.tick.next
      rw [Node.next_tick]
      exact rested.known before
    · obtain ⟨j, before, rfl⟩ := Option.map_eq_some_iff.mp moved
      have known := rested.known before
      show (if r < w.node.next then w.rest r + 1 else 0) ≤ j + 1
      rw [if_pos known]
      rcases Nat.eq_zero_or_pos j with rfl | later
      · rw [meets.1 r known before]
      · exact Nat.succ_le_succ (rested.rest before later)
  | @relay a ev relay outs known handled =>
    have less (r : RelayId) : w.watchRest (.relay a ev) r ≤ w.rest r := by
      show (if _ then Function.update w.rest a 0 else w.rest) r ≤ _
      split
      · rw [Function.update_apply]
        split
        · exact Nat.zero_le _
        · exact Nat.le_refl _
      · exact Nat.le_refl _
    -- the rounds since an event are those before, unless it is the event now
    have before {r j} (moved : w.watchQuiet (.relay a ev) r = some j) :
        w.quiet r = some j ∨ r = a ∧ j = 0 := by
      have eq : (if (w.node.objs a).Moves ev then Function.update w.quiet a (some 0)
          else w.quiet) r = some j := moved
      split at eq
      · by_cases other : r = a
        · subst other
          rw [Function.update_self] at eq
          cases eq
          exact .inr ⟨rfl, rfl⟩
        · rw [Function.update_of_ne other] at eq
          exact .inl eq
      · exact .inl eq
    refine ⟨fun {r j} moved => ?_, fun {r j} moved later => ?_⟩
    · rcases before moved with old | ⟨rfl, _⟩
      · exact rested.known old
      · exact known
    · rcases before moved with old | ⟨_, rfl⟩
      · exact Nat.le_trans (less r) (rested.rest old later)
      · exact absurd later (Nat.lt_irrefl 0)

theorem rested_step {a : WatchedAction} (rested : w.Rested) (meets : w.CountersMeet a)
    (stepped : w.step a = some w') : w'.Rested := by
  cases a with
  | node a => exact rested_node rested meets stepped
  | carried a =>
    obtain ⟨known, rfl⟩ := step_carried stepped
    -- the relay of the bytes has them now, and the others are as they were
    refine ⟨fun {r j} moved => ?_, fun {r j} moved later => ?_⟩ <;>
      replace moved : Function.update w.quiet a (some 0) r = some j := moved <;>
      rw [Function.update_apply] at moved <;> split at moved
    · rename_i same
      exact same ▸ known
    · exact rested.known moved
    · cases moved
      exact absurd later (Nat.lt_irrefl 0)
    · exact rested.rest moved later

/-- An ssl relay that runs out has not come to `reset_timeout` for that long. -/
theorem Counted.sslExpires (counted : w.Counted) (wf : w.node.WellFormed)
    (expires : w.node.sslExpires) : ∃ k ∈ w.node.ssl, timeoutTicks ≤ w.rest k + 1 := by
  cases current : w.node.ssl with
  | none =>
    rw [Node.sslExpires, current] at expires
    cases expires
  | some k =>
    refine ⟨k, rfl, ?_⟩
    have left := counted.left (wf.ssl current).1
    have last : ¬ 2 ≤ (w.node.objs k).timeout := fun time =>
      Node.sslExpires_ne time expires current
    omega

theorem counted_start (starts : Node.Starts n₀) : Counted { node := n₀ } := by
  refine ⟨fun {r} _ => ?_, fun _ => rfl⟩
  cases starts <;> exact Nat.le_refl _

/-- **The timer spares relays whose payload moves**: in every run under the condition, a
round of the timer that removes a relay from `_relays` or calls its `stop_relay` comes when
no byte of its payload has moved for `TIMEOUT` rounds, this one included. -/
theorem idleTimer_spares (starts : Node.Starts n₀)
    (run : Reach step CountersMeet { node := n₀ } w) (meets : w.CountersMeet (.node .tick))
    {r : RelayId} (stops : ¬ Node.Spared w.node w.node.tick r) :
    ∀ j, w.quiet r = some j → timeoutTicks ≤ j + 1 := by
  have wf : w.node.WellFormed := Node.wellFormed_reach starts.wellFormed (reach_node run)
  have counted : w.Counted := run.invariant (counted_start starts)
    fun {t a t'} before counted _ stepped =>
      counted_step (Node.wellFormed_reach starts.wellFormed (reach_node before)) counted stepped
  have rested : w.Rested := run.invariant ⟨nofun, nofun⟩
    fun {t a t'} _ rested meets stepped => rested_step rested meets stepped
  intro j moved
  have known := rested.known moved
  have rest : w.rest r ≤ j := by
    rcases Nat.eq_zero_or_pos j with rfl | later
    · exact Nat.le_of_eq (meets.1 r known moved)
    · exact rested.rest moved later
  by_contra soon
  have left := counted.left known
  refine stops (Node.spared_tick wf (by omega) fun remote expires s there => ?_).1
  obtain ⟨k, current, out⟩ := counted.sslExpires wf expires
  rcases meets.2 remote k current out (some r) (Map.mem_values.mpr ⟨s, there⟩) r rfl with
    never | last
  · rw [moved] at never
    cases never
  · omega

/-- The client of a blocked session says nothing for three rounds, sends a byte, and then
nothing more. -/
def quietRun : List NodeAction :=
  [.accept default, .manager {}, .relay 1 (.arrive (.stream [5, 1, 0])), .relay 1 (.startup true),
    .relay 1 (.startup true), .relay 1 (.arrive (.stream [5, 1, 0, 1, 8, 8, 8, 8, 0, 53])),
    .relay 1 (.request true), .relay 1 (.startup true), .tick, .tick, .tick,
    .relay 1 (.arrive (.stream [7])), .relay 1 .read] ++ List.replicate (timeoutTicks - 1) .tick

/-- The counter is set back by the byte: the raw_tcp is stopped in the ninth round behind it. -/
theorem idleTimer_spares_quiet :
    ∃ w, Reachable step { node := .initLocal .localServer } w ∧ w.quiet 1 = some 8 ∧
      ¬ Node.Spared w.node w.node.tick 1 ∧ timeoutTicks ≤ 8 + 1 := by
  have localSide : ServerType.localServer ≠ .remoteServer := by decide
  have ended {w : Watched} (run : Reach step CountersMeet { node := .initLocal .localServer } w)
      (meets : w.CountersMeet (.node .tick)) (moved : w.quiet 1 = some 8)
      (asked : (w.node.tick.objs 1).stopsAsked ≠ (w.node.objs 1).stopsAsked) :
      ¬ Node.Spared w.node w.node.tick 1 ∧ timeoutTicks ≤ 8 + 1 := by
    have stops : ¬ Node.Spared w.node w.node.tick 1 := fun spared => asked spared.stops
    exact ⟨stops, idleTimer_spares (.localSide localSide) run meets stops 8 moved⟩
  have run := @Reach.of_isSome _ _ step CountersMeet { node := .initLocal .localServer } _
    (quietRun.map .node) (by decide +kernel)
  refine ⟨_, run.reachable, ?_, ended run ?_ ?_ ?_⟩ <;> decide +kernel

/-- A SOCKS5 client connects to a host that is not blocked, and data goes to it directly
in every round. -/
def directMade : List NodeAction :=
  [.accept default, .manager {}, .relay 1 (.arrive (.stream [5, 1, 0])), .relay 1 (.startup true),
    .relay 1 (.startup true), .relay 1 (.arrive (.stream [5, 1, 0, 1, 8, 8, 8, 8, 0, 53])),
    .relay 1 (.request false), .relay 1 (.startup true), .relay 1 (.startup true)]

def directMoves : List WatchedAction := [.carried 1, .node (.relay 1 (.direct true true))]

def directRun : List WatchedAction :=
  directMade.map .node ++
    (List.replicate (timeoutTicks - 1) (directMoves ++ [.node .tick])).flatten ++ directMoves

/-- A message makes a raw_udp of the remote side. -/
def udpMade : List NodeAction :=
  [.relay 0 (.startup true), .relay 0 (.startSend 0),
    .relay 0 (.arrive (.stream (Frame.mk 5 .dataUdp (parseAddr default)).head.bytes)),
    .relay 0 .read, .relay 0 (.arrive (.stream (parseAddr default))), .relay 0 .read, .manager {}]

/-- A datagram is received and goes on to the other end, in one round. -/
def udpReceives : List NodeAction :=
  [.relay 1 (.arrive (.datagram default [7])), .relay 1 .read, .manager {}, .relay 0 .task,
    .relay 0 (.startSend 0), .relay 0 (.take 36), .relay 0 (.sent 0)]

def receiverRun : List WatchedAction :=
  (udpMade ++ (List.replicate (timeoutTicks - 1) (udpReceives ++ [NodeAction.tick])).flatten ++
    udpReceives).map .node

/-- **The timer ends relays that move data**: `impl_local_relay` sets no counter back, and
the round after the last read stops the raw_tcp and takes it out of `_relays`. Neither does
`impl_start_recv`, and a raw_udp of the remote side that received in every round goes the
same way, while the ssl relay that sends its datagrams on has its full time. -/
theorem idleTimer_endsDirect :
    (∃ w, Reachable step { node := .initLocal .localServer } w ∧ w.node.timer ∧
      w.quiet 1 = some 0 ∧ w.node.relays.lookup 1 = some (some 1) ∧
      w.node.tick.relays.lookup 1 = none ∧ .stopRelay ∈ (w.node.tick.objs 1).inbox) ∧
    ∃ w, Reachable step { node := .initRemote } w ∧ w.node.timer ∧
      w.quiet 1 = some 0 ∧ (w.node.objs 1).kind = .rawUdp ∧
      (w.node.objs 0).timeout = timeoutTicks ∧ w.node.relays.lookup 5 = some (some 1) ∧
      w.node.tick.relays.lookup 5 = none ∧ .stopRelay ∈ (w.node.tick.objs 1).inbox := by
  refine ⟨⟨_, .of_isSome directRun (by decide +kernel), ?_⟩,
    ⟨_, .of_isSome receiverRun (by decide +kernel), ?_⟩⟩
  · exact ⟨by decide +kernel, by decide +kernel, by decide +kernel, by decide +kernel,
      by decide +kernel⟩
  · exact ⟨by decide +kernel, by decide +kernel, by decide +kernel, by decide +kernel,
      by decide +kernel, by decide +kernel, by decide +kernel⟩

end Watched

end SslSocks
