import SslSocks.RelaySteps
import SslSocks.Lib.Transition

/-!
# `RELAY_STOP`

What a step does to a stopped relay. `Relay.Revives` names the steps that take a
relay out of `RELAY_STOP`, start its read loop or open a socket again: the tail of
`start_send` and the continuations of the start-up coroutines assign `state`
without asking whether it is `RELAY_STOP`. Every other step leaves a stopped relay
stopped (`act_staysStopped`), and so does every run of such steps
(`staysStopped_of_reach`).
-/

namespace SslSocks

open Lib

namespace Relay

/-- The steps that revive a stopped relay:
* the switch to `RELAY_INIT` that ends `raw_udp::start_relay` and
  `impl_start_transparent`;
* the completion of the last send of the queue, after which `start_send` sets
  `RELAY_INIT`;
* a resolve that succeeds, after which a connect opens the closed socket;
* a connect, a handshake or the direct connection that succeeds;
* a blocked request;
* the start functions, on a relay whose read loop does not run. -/
def Revives (r : Relay) : RelayAction → Prop
  | .event _ .task => r.inbox.head? = some .startInit
  | .event _ (.sent _) => r.bufs.length ≤ 1
  | .event _ (.startup true) =>
    match r.startup with
    | .resolve => r.sock = false
    | .connect => r.kind ≠ .ssl
    | .directResolve => r.tcp.sockRemote = false
    | .directConnect | .handshake => True
    | _ => False
  | .event alive (.request blocked) =>
    alive ∧ blocked ∧ ∃ buf, r.arrived = some (.stream buf) ∧ AcceptsRequest buf
  | .call .startRead => r.reading = false
  | .call .startUdp => r.type = .remoteServer ∧ r.reading = false
  | _ => False

/-- The request that was read is one that `impl_start_local` accepts. -/
instance (r : Relay) :
    Decidable (∃ buf, r.arrived = some (.stream buf) ∧ AcceptsRequest buf) :=
  match r.arrived with
  | none | some (.datagram _ _) => isFalse (by simp)
  | some (.stream buf) =>
    have accepts : Decidable (AcceptsRequest buf) := inferInstanceAs (Decidable (_ ∧ _ ∧ _))
    decidable_of_iff (AcceptsRequest buf) (by simp)

instance (r : Relay) : DecidablePred r.Revives
  | .event _ .task => inferInstanceAs (Decidable (_ = _))
  | .event _ (.sent _) => inferInstanceAs (Decidable (_ ≤ _))
  | .event _ (.startup true) =>
    match startup : r.startup with
    | .resolve => decidable_of_iff (r.sock = false) (by simp [Revives, startup])
    | .connect => decidable_of_iff (r.kind ≠ .ssl) (by simp [Revives, startup])
    | .directResolve => decidable_of_iff (r.tcp.sockRemote = false) (by simp [Revives, startup])
    | .directConnect | .handshake => isTrue (by simp [Revives, startup])
    | .idle | .greeting | .greetingReply | .request | .okReply =>
      isFalse (by simp [Revives, startup])
  | .event _ (.request _) => inferInstanceAs (Decidable (_ ∧ _ ∧ _))
  | .call .startRead => inferInstanceAs (Decidable (_ = _))
  | .call .startUdp => inferInstanceAs (Decidable (_ ∧ _))
  | .event _ .stop | .event _ .closed | .event _ (.startSend _) | .event _ (.take _)
  | .event _ .transmit | .event _ .sendError | .event _ (.arrive _) | .event _ .read
  | .event _ .readError | .event _ (.startup false) | .event _ (.direct _ _)
  | .call (.sendData _) | .call .stopRelay | .call .timeoutDown | .call (.addPeer _ _)
  | .call (.delPeer _) | .call (.begin _) | .call (.emit _) => isFalse id

/-- From `r` on the relay is stopped, has accepted nothing, and has neither started
its read loop nor opened a socket. -/
structure StaysStopped (r r' : Relay) : Prop where
  state : r'.state = .stop
  accepted : r'.log.accepted = r.log.accepted
  reading : r'.reading → r.reading
  sock : r'.sock → r.sock
  sockRemote : r'.tcp.sockRemote → r.tcp.sockRemote

variable {r r' r'' : Relay}

theorem StaysStopped.refl (stopped : r.state = .stop) : StaysStopped r r :=
  ⟨stopped, rfl, id, id, id⟩

theorem StaysStopped.trans (first : StaysStopped r r') (second : StaysStopped r' r'') :
    StaysStopped r r'' where
  state := second.state
  accepted := second.accepted.trans first.accepted
  reading := first.reading ∘ second.reading
  sock := first.sock ∘ second.sock
  sockRemote := first.sockRemote ∘ second.sockRemote

theorem StaysStopped.note {outs : List RelayOut} :
    StaysStopped r (r'.note outs) ↔ StaysStopped r r' :=
  ⟨fun ⟨state, accepted, reading, sock, sockRemote⟩ =>
      ⟨state, accepted, reading, sock, sockRemote⟩,
    fun ⟨state, accepted, reading, sock, sockRemote⟩ =>
      ⟨state, accepted, reading, sock, sockRemote⟩⟩

theorem StaysStopped.stopTask (stays : StaysStopped r r') : StaysStopped r r'.stopTask := by
  unfold Relay.stopTask
  split
  · rw [if_pos stays.state]
    exact stays
  · exact ⟨rfl, stays.accepted, stays.reading, nofun, stays.sockRemote⟩

theorem StaysStopped.stopHere (stays : StaysStopped r r') : StaysStopped r r'.stopHere := by
  unfold Relay.stopHere
  split
  · obtain ⟨state, accepted, reading, sock, sockRemote⟩ := stays
    exact ⟨state, accepted, reading, sock, sockRemote⟩
  · exact stays.stopTask

/-- The loop of `start_send` gives up when there is something left to send, and
revives the relay when there is not. -/
theorem SendLoop.staysStopped (stays : StaysStopped r r') (loop : SendLoop r' r'') :
    StaysStopped r r'' ↔ r'.bufs ≠ [] := by
  cases loop with
  | empty bufs => exact iff_of_false (fun stays => nomatch stays.state) (not_not.mpr bufs)
  | stopped bufs _ => exact iff_of_true stays bufs
  | stream _ going | datagram _ _ _ _ going | threw _ _ _ going =>
    exact absurd stays.state going

/-- A call from the manager's strand. -/
theorem call_staysStopped (stopped : r.state = .stop) (c : RelayCall) :
    StaysStopped r (r.call c) ↔ ¬ r.Revives (.call c) := by
  have refl := StaysStopped.refl stopped
  cases c with
  | sendData _ | addPeer _ _ | delPeer _ | begin _ | emit _ =>
    exact iff_of_true ⟨stopped, rfl, id, id, id⟩ id
  | stopRelay =>
    refine iff_of_true ?_ id
    show StaysStopped r r.stopRelay
    unfold stopRelay
    split <;> exact ⟨stopped, rfl, id, id, id⟩
  | timeoutDown =>
    refine iff_of_true ?_ id
    show StaysStopped r r.timeoutDown.1
    unfold timeoutDown stopRelay
    split
    · exact refl
    · split
      · split <;> exact ⟨stopped, rfl, id, id, id⟩
      · exact ⟨stopped, rfl, id, id, id⟩
  | startRead =>
    refine ⟨fun stays off => ?_, fun on => ⟨stopped, rfl, fun _ => ?_, id, id⟩⟩
    · exact absurd (stays.reading rfl) (Bool.eq_false_iff.mp off)
    · exact Bool.of_not_eq_false on
  | startUdp =>
    show StaysStopped r r.startUdp ↔ _
    unfold startUdp
    split
    · rename_i remote
      refine ⟨fun stays off => ?_, fun on => ⟨stopped, rfl, fun _ => ?_, id, id⟩⟩
      · exact absurd (stays.reading rfl) (Bool.eq_false_iff.mp off.2)
      · exact Bool.of_not_eq_false fun off => on ⟨remote, off⟩
    · rename_i localSide
      exact iff_of_true ⟨stopped, rfl, id, id, id⟩ fun revives => localSide revives.1

/-- **One step on a stopped relay.** It stays as it is exactly when the step is
none of those that revive it. -/
theorem act_staysStopped {a : RelayAction} (stopped : r.state = .stop)
    (stepped : r.act a = some r') : StaysStopped r r' ↔ ¬ r.Revives a := by
  cases a with
  | call c =>
    cases stepped
    exact call_staysStopped stopped c
  | event alive ev =>
    obtain ⟨h, outs, handled, rfl⟩ := act_event.mp stepped
    rw [StaysStopped.note]
    cases handles_of_handle handled with
    | dropped inbox _ | stopTask inbox | addPeer inbox | delPeer inbox =>
      refine iff_of_true ?_ ?_
      · first
          | exact ⟨stopped, rfl, id, id, id⟩
          | exact StaysStopped.stopTask ⟨stopped, rfl, id, id, id⟩
      · simp only [Revives, inbox, List.head?_cons, Option.some.injEq, reduceCtorEq,
          not_false_eq_true]
    | pushed _ going => exact absurd stopped going
    | startInit inbox =>
      refine iff_of_false (fun stays => nomatch stays.state) (not_not.mpr ?_)
      simp only [Revives, inbox, List.head?_cons]
    | sslStop _ => exact iff_of_true ⟨rfl, rfl, id, id, id⟩ id
    | closed _ => exact iff_of_true ⟨stopped, rfl, id, nofun, id⟩ id
    | startSend _ init _ => exact absurd (stopped.symm.trans init) nofun
    | sent _ loop =>
      refine (SendLoop.staysStopped ?_ loop).trans ?_
      · exact ⟨stopped, rfl, id, id, id⟩
      · show r.bufs.tail ≠ [] ↔ ¬ r.bufs.length ≤ 1
        rw [ne_eq, ← List.length_eq_zero_iff, List.length_tail]
        omega
    | startIdle _ _ | take _ _ _ _ | transmit _ _ | arrive _ _ _ _ | readRaw _ _ _ _
    | readRawDead _ _ _ _ | readMore _ _ _ _ | readMessage _ _ _ _ _ | readOverrun _ _ _ _
    | readDatagram _ _ _ | readDatagramDead _ _ _ | direct _ _ =>
      exact iff_of_true ⟨stopped, rfl, id, id, id⟩ id
    | readMessageDead _ _ _ _ _ => exact iff_of_true ⟨stopped, rfl, nofun, id, id⟩ id
    | sendError _ | startupThrew _ _ | directFailed _ _ =>
      exact iff_of_true (StaysStopped.stopHere ⟨stopped, rfl, id, id, id⟩) id
    | readThrew _ _ _ _ | readError _ _ =>
      exact iff_of_true (StaysStopped.stopHere ⟨stopped, rfl, nofun, id, id⟩) id
    | greeting startup _ | greetingReply startup | okReply startup =>
      refine iff_of_true ⟨stopped, rfl, id, id, id⟩ ?_
      simp only [Revives, startup, not_false_eq_true]
    | connectSsl startup _ ssl =>
      refine iff_of_true ⟨stopped, rfl, id, id, id⟩ ?_
      simp only [Revives, startup, ssl, ne_eq, not_true_eq_false, not_false_eq_true]
    | connectRaw startup _ raw =>
      refine iff_of_false (fun stays => nomatch stays.state) ?_
      simp only [Revives, startup, raw, ne_eq, not_false_eq_true, not_true_eq_false]
    | directConnect startup | handshake startup =>
      refine iff_of_false (fun stays => nomatch stays.state) ?_
      simp only [Revives, startup, not_true_eq_false, not_false_eq_true]
    | resolve startup =>
      simp only [Revives, startup]
      refine ⟨fun stays off => ?_, fun on => ⟨stopped, rfl, id, fun _ => ?_, id⟩⟩
      · exact absurd (stays.sock rfl) (Bool.eq_false_iff.mp off)
      · exact Bool.of_not_eq_false on
    | directResolve startup =>
      simp only [Revives, startup]
      refine ⟨fun stays off => ?_, fun on => ⟨stopped, rfl, id, id, fun _ => ?_⟩⟩
      · exact absurd (stays.sockRemote rfl) (Bool.eq_false_iff.mp off)
      · exact Bool.of_not_eq_false on
    | requestBad _ arrived rejects =>
      refine iff_of_true (StaysStopped.stopHere ⟨stopped, rfl, id, id, id⟩) ?_
      simp only [Revives, arrived, Option.some.injEq, Arrival.stream.injEq, exists_eq_left',
        rejects, and_false, not_false_eq_true]
    | requestBlocked _ arrived accepts isBlocked isAlive =>
      refine iff_of_false (fun stays => nomatch stays.state) (not_not.mpr ?_)
      exact ⟨isAlive, isBlocked, _, arrived, accepts⟩
    | requestDead _ _ _ _ dead =>
      refine iff_of_true ⟨stopped, rfl, id, id, id⟩ fun revives => ?_
      exact absurd revives.1 (Bool.eq_false_iff.mp dead)
    | requestDirect _ _ _ direct =>
      refine iff_of_true ⟨stopped, rfl, id, id, id⟩ fun revives => ?_
      exact absurd revives.2.1 (Bool.eq_false_iff.mp direct)

/-- **A stopped relay stays stopped** in every run without a step that revives it. -/
theorem relayStop_absorbing (stopped : r.state = .stop)
    (run : Reach act (fun r a => ¬ r.Revives a) r r') : StaysStopped r r' :=
  run.invariant (StaysStopped.refl stopped) fun _ stays meets stepped =>
    stays.trans ((act_staysStopped stays.state stepped).mpr meets)

/-- A relay stopped while it resolves the name it shall connect to. -/
def stoppedInResolve : Relay :=
  { kind := .rawTcp, type := .remoteServer, session := 1, state := .stop, startup := .resolve }

/-- The resolve fails and the message that still came is dropped. -/
theorem relayStop_absorbing_resolve :
    StaysStopped stoppedInResolve
      { stoppedInResolve with
        startup := .idle
        inbox := []
        log.given := [⟨1, .dataTcp, [7]⟩]
        log.emitted := [⟨1, .stopTcp, []⟩] } := by
  have failed : Reach act (fun r a => ¬ r.Revives a) stoppedInResolve
      { stoppedInResolve with startup := .idle, log.emitted := [⟨1, .stopTcp, []⟩] } :=
    Reach.refl.tail (a := .event true (.startup false)) id rfl
  have given := failed.tail (a := .call (.sendData ⟨1, .dataTcp, [7]⟩)) id rfl
  have dropped := given.tail (a := .event true .task) nofun rfl
  exact relayStop_absorbing rfl dropped

/-- **A stopped relay is revived.** The manager stops a raw_tcp of the remote side
while it resolves the name; it connects, is in `RELAY_INIT` and reads. And a
raw_tcp stopped while a write is under way is in `RELAY_INIT` after the write. -/
theorem relayStop_revived :
    (∃ stopped revived : Relay,
      Reachable act { kind := .rawTcp, type := .remoteServer } stopped ∧
        stopped.state = .stop ∧ Reachable act stopped revived ∧
        revived.state = .init ∧ revived.sock = true ∧ revived.reading = true) ∧
    ∃ stopped revived : Relay,
      Reachable act { kind := .rawTcp, type := .remoteServer } stopped ∧
        stopped.state = .stop ∧ Reachable act stopped revived ∧ revived.state = .init := by
  constructor
  · exact ⟨_, _, .of_isSome [.call (.begin 1), .call .stopRelay, .event true .task] (by decide),
      by decide,
      .of_isSome [.event true (.startup true), .event true (.startup true)] (by decide),
      by decide, by decide, by decide⟩
  · exact ⟨_, _, .of_isSome
        [.call (.begin 1), .event true (.startup true), .event true (.startup true),
          .event true (.startSend 5), .call (.sendData ⟨1, .dataTcp, [7]⟩), .event true .task,
          .event true (.startSend 5), .event true (.take 1), .call .stopRelay,
          .event true .task] (by decide),
      by decide, .of_isSome [.event true (.sent 5)] (by decide), by decide⟩

end Relay

end SslSocks
