import SslSocks.SendQueue

/-!
# Every message once, in order, and nobody waits for ever

`Placed` locates the messages passed to `internal_send_data` in those pushed by
`send_data`: they are the ones before the queue, and its head while a send is under way;
after a failed send they are still a prefix. `Woken` is the wake-up rule: in `RELAY_INIT`
a queue that is not empty has a `start_send` to come. `Attended` is its sibling for
`RELAY_START`: a message is being sent, or the relay is about to stop. `sendQueue_once` puts
these together with the fact that a send begins only when none is under way.
-/

namespace SslSocks

open Lib

namespace Relay

variable {r r' : Relay} {alive : Bool} {ev : RelayEvent} {outs : List RelayOut}

/-! ## Where the queue stands -/

/-- The messages passed on, by what the queue does. -/
inductive Placed (r : Relay) : Prop
  | waiting : r.sending = none → r.log.accepted = r.log.passed ++ r.bufs → Placed r
  | busy {before rest : List Frame} {buf : Frame} :
    r.sending ≠ none → r.bufs = buf :: rest → r.log.accepted = before ++ r.bufs →
    r.log.passed = before ++ [buf] → Placed r
  | stuck : Stuck r → r.log.passed <+: r.log.accepted → Placed r

theorem Placed.begins (placed : Placed r) : r.log.passed <+: r.log.accepted := by
  cases placed with
  | waiting _ accepted =>
    rw [accepted]
    exact List.prefix_append _ _
  | busy _ bufs accepted passed =>
    rw [accepted, passed, bufs]
    exact (List.prefix_append_right_inj _).mpr ⟨_, rfl⟩
  | stuck _ begins => exact begins

/-- The queue and what went through it. -/
structure SamePlace (r r' : Relay) : Prop where
  bufs : r'.bufs = r.bufs
  accepted : r'.log.accepted = r.log.accepted
  passed : r'.log.passed = r.log.passed

theorem samePlace_stopHere (r : Relay) : SamePlace r r.stopHere :=
  ⟨(sameQueue_stopHere r).bufs, (sameQueue_stopHere r).accepted, (idles_stopHere r).passed⟩

/-- A step that does not touch the queue; a stuck queue has its own lemma. -/
theorem Placed.of_same (placed : Placed r) (same : SamePlace r r')
    (busy : r'.sending = none ↔ r.sending = none) (stuck : Stuck r → Stuck r') : Placed r' := by
  cases placed with
  | waiting none accepted =>
    refine .waiting (busy.mpr none) ?_
    rw [same.accepted, same.passed, same.bufs]
    exact accepted
  | busy sends bufs accepted passed =>
    refine .busy (fun none => sends (busy.mp none)) (same.bufs.trans bufs) ?_
      (same.passed.trans passed)
    rw [same.accepted, same.bufs]
    exact accepted
  | stuck isStuck begins =>
    refine .stuck (stuck isStuck) ?_
    rw [same.passed, same.accepted]
    exact begins

/-- The loop passes on the head of a queue of which nothing is under way. -/
theorem SendLoop.placed (loop : SendLoop r r') (none : r.sending = none) (late : ¬ r.Early)
    (accepted : r.log.accepted = r.log.passed ++ r.bufs) : Placed r' := by
  cases loop with
  | empty | stopped => exact .waiting none accepted
  | stream bufs | datagram _ _ _ bufs => exact .busy nofun bufs accepted rfl
  | @threw buf rest udp sock bufs running kind _ _ =>
    -- `internal_send_data` threw before its await: the relay stops with it
    have passed : (r.log.passed ++ [buf]) <+: r.log.accepted := by
      rw [accepted, bufs]
      exact (List.prefix_append_right_inj _).mpr ⟨rest, rfl⟩
    rcases stopHere_cases { r with
        timeout := timeoutTicks, sock, udp, log.passed := r.log.passed ++ [buf] } with
      ⟨ssl, _⟩ | ⟨_, ⟨stopped, _⟩ | ⟨bound, same⟩⟩
    · exact absurd (kind.symm.trans ssl) nofun
    · exact absurd stopped running
    · rw [same]
      exact .stuck ⟨.inl rfl, none, late⟩ passed

/-- **One handler** and the place of the queue. -/
theorem Handles.placed (handled : Handles alive r ev r' outs) (starts : StartsOnce r)
    (placed : Placed r) : Placed r' := by
  by_cases isStuck : Stuck r
  · obtain ⟨stuck, idles⟩ := handled.stuck isStuck
    refine .stuck stuck ?_
    rw [idles.passed]
    exact placed.begins.trans idles.accepted
  · have same {a : Relay} (same : SamePlace r a) (sending : a.sending = r.sending) : Placed a :=
      placed.of_same same (by rw [sending]) fun stuck => absurd stuck isStuck
    have stop {a : Relay} (place : SamePlace r a) (sending : a.sending = r.sending) :
        Placed a.stopHere := by
      have stopped := samePlace_stopHere a
      exact same ⟨stopped.bufs.trans place.bufs, stopped.accepted.trans place.accepted,
        stopped.passed.trans place.passed⟩ ((stopHere_sending a).trans sending)
    cases handled with
    | @pushed buf inbox _ _ =>
      cases placed with
      | waiting none accepted =>
        refine .waiting none ?_
        show r.log.accepted ++ [buf] = r.log.passed ++ (r.bufs ++ [buf])
        rw [accepted, List.append_assoc]
      | @busy before rest head sends bufs accepted passed =>
        refine @Placed.busy _ before (rest ++ [buf]) head sends ?_ ?_ passed
        · show r.bufs ++ [buf] = _
          rw [bufs, List.cons_append]
        · show r.log.accepted ++ [buf] = before ++ (r.bufs ++ [buf])
          rw [accepted, List.append_assoc]
      | stuck stuck _ => exact absurd stuck isStuck
    | @stopTask inbox _ =>
      rcases stopTask_cases { r with inbox } with ⟨_, isStopped⟩ | ⟨bound, isStopped⟩ <;>
        rw [isStopped] <;> exact same ⟨rfl, rfl, rfl⟩ rfl
    | startSend _ init loop =>
      obtain ⟨late, none⟩ := starts.ready init
      cases placed with
      | waiting _ accepted => exact loop.placed none late accepted
      | busy sends => exact absurd none sends
      | stuck stuck _ => exact absurd stuck isStuck
    | @take count rest sending _ _ _ =>
      refine placed.of_same ⟨rfl, rfl, rfl⟩ ?_ fun stuck => absurd stuck isStuck
      rw [sending]
      exact iff_of_false nofun nofun
    | transmit sending _ =>
      refine placed.of_same ⟨rfl, rfl, rfl⟩ ?_ fun stuck => absurd stuck isStuck
      rw [sending]
      exact iff_of_false nofun nofun
    | sent sending loop =>
      have sends : r.sending ≠ none := by
        rcases sending with stream | ⟨dst, window, datagram⟩
        · rw [stream]
          exact nofun
        · rw [datagram]
          exact nofun
      cases placed with
      | waiting none => exact absurd none sends
      | @busy before rest buf _ bufs accepted passed =>
        refine loop.placed rfl (starts.sending sends) ?_
        show r.log.accepted = r.log.passed ++ r.bufs.tail
        rw [accepted, passed, bufs, List.tail_cons, List.append_cons]
      | stuck stuck _ => exact absurd stuck isStuck
    | sendError sends =>
      obtain ⟨stuck, _, _, passed, accepted⟩ := starts.fail sends
      refine .stuck stuck ?_
      rw [passed]
      exact placed.begins.trans accepted
    | readThrew | readError | startupThrew | requestBad | directFailed =>
      exact stop ⟨rfl, rfl, rfl⟩ rfl
    | _ => exact same ⟨rfl, rfl, rfl⟩ rfl

theorem Calls.placed {c : RelayCall} (called : Calls r c r') (proper : r.Proper (.call c))
    (placed : Placed r) : Placed r' := by
  have stuck : Stuck r → Stuck r' := fun stuck => (called.stuck proper stuck).1
  cases called <;> exact placed.of_same ⟨rfl, rfl, rfl⟩ Iff.rfl stuck

theorem Born.placed (born : r.Born) : Placed r := by
  refine .waiting born.sending ?_
  rw [born.log, born.bufs]
  rfl

theorem Lives.placed (lives : r.Lives) : Placed r :=
  lives.invariant Born.placed (fun _ placed proper called => called.placed proper placed)
    fun lives placed handled =>
      (handled.placed lives.startsOnce placed).of_same ⟨rfl, rfl, rfl⟩ Iff.rfl
        fun ⟨state, sending, late⟩ => ⟨state, sending, late⟩

/-! ## The wake-up rule -/

/-- In `RELAY_INIT` a queue that is not empty has a `start_send` to come. -/
def Woken (r : Relay) : Prop := r.state = .init → r.bufs ≠ [] → 0 < r.activations

theorem woken_stopHere (woken : Woken r) : Woken r.stopHere := by
  rcases stopHere_cases r with ⟨_, same⟩ | ⟨_, ⟨_, same⟩ | ⟨bound, same⟩⟩ <;> rw [same]
  · exact woken
  · exact woken
  · intro init
    cases init

/-- The loop comes back to `RELAY_INIT` with an empty queue only. -/
theorem SendLoop.woken (loop : SendLoop r r') (state : r.state ≠ .init) : Woken r' := by
  cases loop with
  | empty bufs => exact fun _ some => absurd bufs some
  | threw =>
    apply woken_stopHere
    exact fun init => absurd init state
  | _ => exact fun init => absurd init state

theorem Handles.woken (handled : Handles alive r ev r' outs) (starts : StartsOnce r)
    (woken : Woken r) : Woken r' := by
  cases handled with
  | @pushed buf inbox _ _ =>
    intro init _
    have isInit : r.state = .init := init
    show 0 < if r.state = .init ∧ r.bufs = [] then r.activations + 1 else r.activations
    by_cases empty : r.bufs = []
    · rw [if_pos ⟨isInit, empty⟩]
      omega
    · rw [if_neg fun both => empty both.2]
      exact woken isInit empty
  | @stopTask inbox _ =>
    rcases stopTask_cases { r with inbox } with ⟨_, isStopped⟩ | ⟨bound, isStopped⟩ <;>
      rw [isStopped]
    · exact woken
    · intro init
      cases init
  | sslStop =>
    intro init
    cases init
  | startInit | directConnect | connectRaw | handshake | requestBlocked =>
    exact fun _ _ => Nat.succ_pos _
  | startIdle _ other => exact fun init => absurd init other
  | startSend _ _ loop => exact loop.woken nofun
  | sent sending loop =>
    apply loop.woken
    intro init
    obtain ⟨_, none⟩ := starts.ready init
    rcases sending with stream | ⟨dst, window, datagram⟩
    · exact absurd (stream.symm.trans none) nofun
    · exact absurd (datagram.symm.trans none) nofun
  | sendError | readThrew | readError | startupThrew | requestBad | directFailed =>
    exact woken_stopHere woken
  | _ => exact woken

theorem Calls.woken {c : RelayCall} (called : Calls r c r') (woken : Woken r) : Woken r' := by
  cases called <;> exact woken

theorem Born.woken (born : r.Born) : Woken r := fun init => by
  rw [born.state] at init
  cases init

theorem Lives.woken (lives : r.Lives) : Woken r :=
  lives.invariant Born.woken (fun _ woken _ called => called.woken woken)
    fun lives woken handled => handled.woken lives.startsOnce woken

/-! ## Nobody waits in `RELAY_START` -/

/-- In `RELAY_START` a message is being sent, or a send has failed and the spawned
`ssl_relay::stop_relay` is to come. -/
def Attended (r : Relay) : Prop :=
  r.state = .start → r.sending = none → r.kind = .ssl ∧ 0 < r.ssl.stops

theorem attended_of_ne (other : r.state ≠ .start) : Attended r := fun start =>
  absurd start other

/-- A relay that stops itself is attended: a raw relay stops at once. -/
theorem attended_stopHere (r : Relay) : Attended r.stopHere := by
  rcases stopHere_cases r with ⟨ssl, same⟩ | ⟨_, ⟨stopped, same⟩ | ⟨bound, same⟩⟩ <;> rw [same]
  · exact fun _ _ => ⟨ssl, Nat.succ_pos _⟩
  · exact attended_of_ne (stopped ▸ nofun)
  · exact attended_of_ne nofun

theorem SendLoop.attended (loop : SendLoop r r') : Attended r' := by
  cases loop with
  | empty => exact attended_of_ne nofun
  | stopped _ state => exact attended_of_ne (state ▸ nofun)
  | stream | datagram => exact fun _ none => nomatch none
  | threw => exact attended_stopHere _

theorem Handles.attended (handled : Handles alive r ev r' outs) (attended : Attended r) :
    Attended r' := by
  cases handled with
  | @stopTask inbox _ =>
    rcases stopTask_cases { r with inbox } with ⟨_, isStopped⟩ | ⟨bound, isStopped⟩ <;>
      rw [isStopped]
    · exact attended
    · exact attended_of_ne nofun
  | sslStop | startInit | directConnect | connectRaw | handshake | requestBlocked =>
    exact attended_of_ne nofun
  | startSend _ _ loop | sent _ loop => exact loop.attended
  | take | transmit => exact fun _ none => nomatch none
  | sendError | readThrew | readError | startupThrew | requestBad | directFailed =>
    exact attended_stopHere _
  | _ => exact attended

theorem Calls.attended {c : RelayCall} (called : Calls r c r') (attended : Attended r) :
    Attended r' := by
  cases called with
  | stopSsl =>
    intro start none
    obtain ⟨ssl, stops⟩ := attended start none
    exact ⟨ssl, Nat.lt_succ_of_lt stops⟩
  | _ => exact attended

theorem Born.attended (born : r.Born) : Attended r :=
  attended_of_ne (born.state ▸ nofun)

theorem Lives.attended (lives : r.Lives) : Attended r :=
  lives.invariant Born.attended (fun _ attended _ called => called.attended attended)
    fun _ attended handled => handled.attended attended

/-! ## One send at a time -/

/-- The step gives at most one message to `internal_send_data`, and none while another is
under way there, unless it is the step that ends that. -/
def PassesOne (r : Relay) (a : RelayAction) (r' : Relay) : Prop :=
  r'.log.passed = r.log.passed ∨
    ∃ buf, r'.log.passed = r.log.passed ++ [buf] ∧
      (r.sending = none ∨ ∃ alive done, a = .event alive (.sent done))

theorem SendLoop.passed (loop : SendLoop r r') :
    r'.log.passed = r.log.passed ∨ ∃ buf, r'.log.passed = r.log.passed ++ [buf] := by
  cases loop with
  | empty | stopped => exact .inl rfl
  | stream | datagram => exact .inr ⟨_, rfl⟩
  | @threw buf => exact .inr ⟨buf, (idles_stopHere _).passed⟩

theorem Handles.passesOne (handled : Handles alive r ev r' outs) (starts : StartsOnce r) :
    PassesOne r (.event alive ev) r' := by
  have stop {a : Relay} (passed : a.log.passed = r.log.passed) :
      a.stopHere.log.passed = r.log.passed := (idles_stopHere a).passed.trans passed
  cases handled with
  | @stopTask inbox _ =>
    left
    rcases stopTask_cases { r with inbox } with ⟨_, isStopped⟩ | ⟨bound, isStopped⟩ <;>
      rw [isStopped]
  | startSend _ init loop =>
    rcases loop.passed with same | ⟨buf, one⟩
    · exact .inl same
    · exact .inr ⟨buf, one, .inl (starts.ready init).2⟩
  | sent _ loop =>
    rcases loop.passed with same | ⟨buf, one⟩
    · exact .inl same
    · exact .inr ⟨buf, one, .inr ⟨_, _, rfl⟩⟩
  | sendError | readThrew | readError | startupThrew | requestBad | directFailed =>
    exact .inl (stop rfl)
  | _ => exact .inl rfl

/-- **The send queue.** At any time in the life of a relay the messages passed to
`internal_send_data` are a prefix of those pushed, and while a send is under way the last of
them is the head of the queue. A queue that is not empty has a `start_send` to come in
`RELAY_INIT`, and in `RELAY_START` a send is under way or a stop is to come. No step begins a
send beside another. -/
theorem sendQueue_once (lives : r.Lives) :
    r.log.passed <+: r.log.accepted ∧
      (r.sending ≠ none → ∃ before buf rest, r.bufs = buf :: rest ∧
        r.log.accepted = before ++ r.bufs ∧ r.log.passed = before ++ [buf]) ∧
      (r.state = .init → r.bufs ≠ [] → 0 < r.activations) ∧
      (r.state = .start → r.bufs ≠ [] →
        r.sending ≠ none ∨ r.kind = .ssl ∧ 0 < r.ssl.stops) ∧
      ∀ a r', r.act a = some r' → PassesOne r a r' := by
  refine ⟨lives.placed.begins, fun sends => ?_, lives.woken, fun start _ => ?_,
    fun a r' stepped => ?_⟩
  · cases lives.placed with
    | waiting none => exact absurd none sends
    | busy _ bufs accepted passed => exact ⟨_, _, _, bufs, accepted, passed⟩
    | stuck stuck => exact absurd stuck.sending sends
  · by_cases none : r.sending = none
    · exact .inr (lives.attended start none)
    · exact .inl none
  · cases a with
    | call c =>
      have called := calls_call r c
      have next : r.call c = r' := Option.some.inj stepped
      rw [next] at called
      cases called <;> exact .inl rfl
    | event alive ev =>
      obtain ⟨h, outs, handled, rfl⟩ := act_event.mp stepped
      exact (handles_of_handle handled).passesOne lives.startsOnce

/-- A raw_tcp of the remote side, as it is made. -/
def newTcp : Relay := { kind := .rawTcp, type := .remoteServer }

def someMessage (b : UInt8) : Frame := ⟨2, .dataTcp, [b]⟩

/-- Two messages wait for the connection. A third comes while the first is sent, and the
queue runs empty. A fourth asks for a `start_send`, which begins behind the push of a
fifth. -/
def someQueue : List RelayAction :=
  [.call (.sendData (someMessage 1)), .call (.sendData (someMessage 2)),
    .event true .task, .event true .task, .event true (.startup true),
    .event true (.startup true), .event true (.startSend 0),
    .call (.sendData (someMessage 3)), .event true .task,
    .event true (.take 1), .event true (.sent 0), .event true (.take 1), .event true (.sent 0),
    .event true (.take 1), .event true (.sent 0),
    .call (.sendData (someMessage 4)), .event true .task,
    .call (.sendData (someMessage 5)), .event true .task, .event true (.startSend 0)]

/-- At its end the fourth message is under way, and the fifth waits for it. -/
theorem sendQueue_once_run : ∃ r, r.state = .start ∧
    r.log.passed = [someMessage 1, someMessage 2, someMessage 3, someMessage 4] ∧
    r.bufs = [someMessage 4, someMessage 5] ∧ r.log.passed <+: r.log.accepted ∧
    (r.sending ≠ none → ∃ before buf rest, r.bufs = buf :: rest ∧
      r.log.accepted = before ++ r.bufs ∧ r.log.passed = before ++ [buf]) ∧
    (r.state = .init → r.bufs ≠ [] → 0 < r.activations) ∧
    (r.state = .start → r.bufs ≠ [] →
      r.sending ≠ none ∨ r.kind = .ssl ∧ 0 < r.ssl.stops) ∧
    ∀ a r', r.act a = some r' → PassesOne r a r' := by
  have born : newTcp.Born := ⟨⟨rfl, rfl, rfl, rfl, rfl, rfl, rfl, rfl, rfl, rfl, rfl⟩, rfl⟩
  have begun : (newTcp.begin 2).Lives := born.lives.call (c := .begin 2) ⟨rfl, born⟩
  have run := @Reach.of_isSome _ _ act Anytime (newTcp.begin 2) _ someQueue (by decide +kernel)
  exact ⟨_, by decide +kernel, by decide +kernel, by decide +kernel,
    sendQueue_once (begun.run run)⟩

end Relay

end SslSocks
