import SslSocks.IdleTimer
import SslSocks.ManagerStop
import SslSocks.NodeMoves
import SslSocks.NodeRoutes
import SslSocks.RelayStop
import SslSocks.SendQueue

/-!
# No relay is lost

The timer, `STOP_TCP` and `stop_manager` reach a raw relay through `_relays` or `_udp_send`.
A relay leaves these when it is stopped, when its `stop_relay` is posted, or when
`timeout_down` returns 0; and a counter that is 0 was brought there by a `timeout_down` that
posted `stop_relay`. So a relay that nothing reaches any more is stopped or will be
(`none_lost`), unless one that was stopped is revived. `stop_reaches_all` is the case of a
stopped remote manager: none of its relays is left.
-/

namespace SslSocks

open Lib

namespace Relay

variable {r r' : Relay} {alive : Bool} {ev : RelayEvent} {outs : List RelayOut}

/-! ## A relay that leaves -/

theorem stopTask_stopped (r : Relay) : r.stopTask.state = .stop := by
  rcases stopTask_cases r with ⟨stopped, same⟩ | ⟨bound, same⟩ <;> rw [same]
  exact stopped

/-- A posted `stop_relay` stays posted until it runs. -/
theorem Handles.stopRelay_posted (handled : Handles alive r ev r' outs)
    (posted : .stopRelay ∈ r.inbox) : r'.Leaving := by
  have kept {a : Relay} (inbox : a.inbox = r.inbox) : a.Leaving := .inr (inbox ▸ posted)
  have popped {task : RelayTask} {inbox : List RelayTask} {a : Relay}
      (queue : r.inbox = task :: inbox) (other : task ≠ .stopRelay) (isInbox : a.inbox = inbox) :
      a.Leaving := by
    right
    rw [queue] at posted
    rw [isInbox]
    exact (List.mem_cons.mp posted).resolve_left fun same => other same.symm
  cases handled with
  | dropped queue | pushed queue => exact popped queue nofun rfl
  | startInit queue | addPeer queue | delPeer queue => exact popped queue nofun rfl
  | stopTask => exact .inl (stopTask_stopped _)
  | startSend _ _ loop | sent _ loop => exact kept loop.keepsStartup.inbox
  | sendError | readThrew | readError | startupThrew | requestBad | directFailed =>
    exact kept (keepsStartup_stopHere _).inbox
  | _ => exact kept rfl

/-- A relay goes on leaving through a handler that does not revive it. -/
theorem Leaving.step (leaving : r.Leaving) (stepped : r.step alive ev = some (r', outs))
    (stays : r.state = .stop → ¬ r.Revives (.event alive ev)) : r'.Leaving := by
  rcases leaving with stopped | posted
  · left
    have acted : r.act (.event alive ev) = some r' := by
      rw [Relay.act, stepped]
      rfl
    exact ((act_staysStopped stopped acted).mpr (stays stopped)).state
  · obtain ⟨h, handled, rfl⟩ := step_eq_some.mp stepped
    exact (handles_of_handle handled).stopRelay_posted posted

/-- A counter that is 0 belongs to a relay that leaves. -/
def Timed (r : Relay) : Prop := r.timeout = 0 → r.Leaving

theorem Timed.call (timed : r.Timed) (raw : r.kind ≠ .ssl) (c : RelayCall) :
    (r.call c).Timed := by
  intro zero
  by_cases counts : c = .timeoutDown
  · subst counts
    show r.timeoutDown.1.Leaving
    replace zero : r.timeoutDown.1.timeout = 0 := zero
    unfold timeoutDown at zero ⊢
    split
    · rename_i expired
      exact timed expired
    · rename_i some
      rw [if_neg some] at zero
      split
      · exact leaving_stopRelay raw
      · rename_i more
        rw [if_neg more] at zero
        exact absurd zero more
  · rw [timeout_call counts] at zero
    exact (timed zero).call

theorem Timed.step (timed : r.Timed) (stepped : r.step alive ev = some (r', outs))
    (stays : r.state = .stop → ¬ r.Revives (.event alive ev)) : r'.Timed := by
  intro zero
  have before : r.timeout = 0 := by
    obtain ⟨h, handled, rfl⟩ := step_eq_some.mp stepped
    rcases (handles_of_handle handled).timeout with same | full
    · exact same.symm.trans zero
    · exact absurd (full.symm.trans zero) (by decide)
  exact (timed before).step stepped stays

theorem startUdp_timeout (r : Relay) : r.startUdp.timeout = r.timeout :=
  timeout_call (c := .startUdp) nofun

end Relay

namespace Node

variable {n m : Node} {ls : List Dealing}

/-! ## Who holds a relay -/

/-- `_relays` or `_udp_send` holds the relay. -/
def Held (n : Node) (r : RelayId) : Prop := n.Listed r ∨ n.udpSend = some r

/-- Every raw relay is held, leaves, or was never started. -/
structure NoneLost (n : Node) : Prop where
  relays : ∀ {r}, n.Raw r → n.Held r ∨ (n.objs r).Leaving ∨ (n.objs r).Born
  timed : ∀ {r}, n.Raw r → (n.objs r).Timed

theorem NoneLost.keep (none : NoneLost n) (objs : m.objs = n.objs) (next : m.next = n.next)
    (isHeld : ∀ {r}, n.Raw r → n.Held r → m.Held r ∨ (n.objs r).Leaving) : NoneLost m := by
  have raw {r : RelayId} (raw : m.Raw r) : n.Raw r := ⟨next ▸ raw.known, objs ▸ raw.kind⟩
  refine ⟨fun {r} isRaw => ?_, fun {r} isRaw => ?_⟩ <;> rw [objs]
  · rcases none.relays (raw isRaw) with held | left
    · exact (isHeld (raw isRaw) held).imp id .inl
    · exact .inr left
  · exact none.timed (raw isRaw)

theorem NoneLost.call (none : NoneLost n) {a : RelayId} {c : RelayCall}
    (held : n.Raw a → n.Held a) : NoneLost (n.call a c) := by
  have before {r : RelayId} (raw : (n.call a c).Raw r) : n.Raw r :=
    ⟨raw.known, objs_call_kind n a r c ▸ raw.kind⟩
  refine ⟨fun {r} raw => ?_, fun {r} raw => ?_⟩
  · by_cases same : r = a
    · exact .inl (same ▸ held (same ▸ before raw))
    · rw [objs_call_of_ne c same]
      exact none.relays (before raw)
  · rw [objs_call]
    split
    · rename_i same
      have isRaw := before raw
      subst same
      exact (none.timed isRaw).call isRaw.kind c
    · exact none.timed (before raw)

/-- A relay is made. -/
theorem NoneLost.make (none : NoneLost n) {relay : Relay} (next : m.next = n.next + 1)
    (objs : m.objs = (n.make relay).objs) (time : relay.timeout = timeoutTicks)
    (new : relay.kind ≠ .ssl → m.Held n.next ∨ relay.Born)
    (isHeld : ∀ {r}, n.Raw r → n.Held r → m.Held r ∨ (n.objs r).Leaving) : NoneLost m := by
  have split {r : RelayId} (raw : m.Raw r) :
      r = n.next ∧ m.objs r = relay ∨ n.Raw r ∧ m.objs r = n.objs r := by
    have there : m.objs r = if r = n.next then relay else n.objs r := by rw [objs, objs_make]
    by_cases same : r = n.next
    · rw [if_pos same] at there
      exact .inl ⟨same, there⟩
    · rw [if_neg same] at there
      have old := Nat.lt_of_le_of_ne (Nat.le_of_lt_succ (Nat.lt_of_lt_of_eq raw.known next)) same
      exact .inr ⟨⟨old, there ▸ raw.kind⟩, there⟩
  refine ⟨fun {r} raw => ?_, fun {r} raw => ?_⟩
  · rcases split raw with ⟨rfl, there⟩ | ⟨isRaw, there⟩
    · have kind := raw.kind
      rw [there] at kind ⊢
      exact (new kind).imp id .inr
    · rw [there]
      rcases none.relays isRaw with held | left
      · exact (isHeld isRaw held).imp id .inl
      · exact .inr left
  · rcases split raw with ⟨_, there⟩ | ⟨isRaw, there⟩ <;> rw [there]
    · intro zero
      exact absurd (time.symm.trans zero) (by decide)
    · exact none.timed isRaw

/-- What another relay in a place of `_relays` leaves there. -/
theorem listed_over (s : UInt32) (entry : Option RelayId) {r : RelayId} (listed : n.Listed r) :
    Listed { n with relays := n.relays.insert s entry } r ∨ n.relays.lookup s = some (some r) := by
  obtain ⟨s', there⟩ := listed
  by_cases same : s = s'
  · exact .inr (same ▸ there)
  · refine .inl ⟨s', ?_⟩
    show (n.relays.insert s entry).lookup s' = _
    rw [Map.lookup_insert, if_neg fun is => same is.symm]
    exact there

theorem held_over {s : UInt32} {a r : RelayId} (vacant : n.Vacant s) (isHeld : n.Held r)
    (udpSend : m.udpSend = n.udpSend) (relays : m.relays = n.relays.insert s (some a)) :
    m.Held r ∨ (n.objs r).Leaving := by
  rcases isHeld with listed | current
  · rcases listed_over s (some a) listed with still | there
    · obtain ⟨s', there⟩ := still
      exact .inl (.inl ⟨s', relays ▸ there⟩)
    · exact .inr (vacant r there)
  · exact .inl (.inr (udpSend.trans current))

/-- **A move loses no relay.** -/
theorem noneLost_move (kinds : Kinds n) (none : NoneLost n) (move : Move n ls m) : NoneLost m := by
  cases move with
  | same same =>
    refine none.keep same.objs same.next fun _ held => .inl ?_
    unfold Held Listed
    rw [same.relays, same.udpSend]
    exact held
  | answer => exact none.keep rfl rfl fun _ held => .inl held
  | @call r c tracked =>
    refine none.call fun raw => ?_
    rcases tracked with listed | current | current
    · exact .inl listed
    · exact absurd (kinds.ssl current).2 raw.kind
    · exact .inr current
  | sendSsl current => exact none.call fun raw => absurd (kinds.ssl current).2 raw.kind
  | give place => exact none.call fun _ => place
  | newSsl =>
    exact none.make rfl rfl rfl (fun kind => absurd rfl kind) fun _ held => .inl held
  | newUdp started stopped =>
    refine none.make rfl rfl ?_ (fun _ => .inl (.inr rfl)) fun {r} _ held => ?_
    · split
      · exact Relay.startUdp_timeout _
      · rfl
    · rcases held with listed | current
      · exact .inl (.inl listed)
      · unfold udpSendStopped at stopped
        rw [current] at stopped
        exact .inr (.inl (of_decide_eq_true stopped))
  | orphanUdp s =>
    exact none.make rfl rfl rfl (fun _ => .inr (newRawUdp_born n s)) fun _ held => .inl held
  | @makeUdp s vacant =>
    refine none.make rfl rfl (Relay.startUdp_timeout _)
      (fun _ => .inl (.inl (listed_self _ s n.next))) fun _ held => ?_
    exact held_over (a := n.next) vacant held rfl rfl
  | @makeTcp s target vacant =>
    refine none.make rfl rfl rfl (fun _ => .inl (.inl (listed_self _ s n.next))) fun _ held => ?_
    exact held_over (a := n.next) vacant held rfl rfl
  | @list s r dst free =>
    refine none.keep rfl rfl fun _ held => held_over (s := s) (a := r) (fun a there => ?_) held rfl rfl
    exact absurd (Map.mem_of_lookup there) free
  | @slot s free =>
    refine none.keep rfl rfl fun {a} _ held => .inl ?_
    rcases held with listed | current
    · rcases listed_over s Option.none listed with still | there
      · exact .inl still
      · exact absurd (Map.mem_of_lookup there) free
    · exact .inr current
  | @unlist s reason =>
    refine none.keep rfl rfl fun {a} raw held => ?_
    rcases held with listed | current
    · obtain ⟨s', there⟩ := listed
      by_cases same : s' = s
      · subst same
        right
        exact (reason a there).elim id (none.timed raw)
      · refine .inl (.inl ⟨s', ?_⟩)
        show (n.relays.erase s).lookup s' = _
        rw [Map.lookup_erase, if_neg same]
        exact there
    · exact .inl (.inr current)
  | clear leaving =>
    refine none.keep rfl rfl fun {a} _ held => ?_
    rcases held with listed | current
    · exact .inr (leaving a listed)
    · exact .inl (.inr current)

/-! ## Steps and runs -/

/-- The condition: a raw relay that is stopped is not revived. -/
def KeepsStopped (n : Node) : NodeAction → Prop
  | .relay r ev => (n.objs r).kind ≠ .ssl → (n.objs r).state = .stop →
    ¬ (n.objs r).Revives (.event n.alive ev)
  | _ => True

instance (n : Node) : DecidablePred n.KeepsStopped
  | .relay _ _ => inferInstanceAs (Decidable (_ → _ → ¬ _))
  | .accept _ | .udpPacket _ _ _ | .manager _ | .tick | .release => isTrue trivial

theorem noneLost_moves (kinds : Kinds n) (none : NoneLost n) (path : Moves n ls m) : NoneLost m :=
  (path.invariant (P := fun n => Kinds n ∧ NoneLost n) ⟨kinds, none⟩ fun both move =>
    ⟨kinds_move both.1 move, noneLost_move both.1 both.2 move⟩).2

theorem noneLost_step {a : NodeAction} (wf : WellFormed n) (none : NoneLost n)
    (meets : n.KeepsStopped a) (stepped : n.step a = some m) : NoneLost m := by
  rcases dealt_step wf stepped with dealt | outside
  · cases dealt with
    | silent path => exact noneLost_moves wf.kinds none path
    | kept _ _ path => exact noneLost_moves wf.kinds none path
    | given _ _ _ path => exact noneLost_moves wf.kinds none path
  · cases outside with
    | @accept dst _ =>
      exact none.make rfl rfl rfl (fun _ => .inr (newAccepted_born n dst)) fun _ held => .inl held
    | udpPacket | release => exact none.keep rfl rfl fun _ held => .inl held
    | @relay a ev relay outs callable handled =>
      have kind := (Relay.sameCalls_step handled).kind
      have elsewhere {r : RelayId} (other : r ≠ a) :
          Function.update n.objs a relay r = n.objs r := Function.update_of_ne other _ _
      have there : Function.update n.objs a relay a = relay := Function.update_self _ _ _
      -- the relay stays where it is held; one that has its own handlers was started
      refine ⟨fun {r} raw => ?_, fun {r} raw => ?_⟩ <;> obtain ⟨known, rawKind⟩ := raw <;>
        replace rawKind : (Function.update n.objs a relay r).kind ≠ .ssl := rawKind <;>
        by_cases same : r = a
      · show Held n r ∨ (Function.update n.objs a relay r).Leaving ∨
          (Function.update n.objs a relay r).Born
        subst same
        rw [there] at rawKind ⊢
        rw [kind] at rawKind
        rcases none.relays ⟨known, rawKind⟩ with held | leaving | born
        · exact .inl held
        · exact .inr (.inl (leaving.step handled (meets rawKind)))
        · obtain ⟨h, handle, _⟩ := Relay.step_eq_some.mp handled
          rw [born.handle_eq_none rawKind] at handle
          cases handle
      · show Held n r ∨ (Function.update n.objs a relay r).Leaving ∨
          (Function.update n.objs a relay r).Born
        rw [elsewhere same] at rawKind ⊢
        exact none.relays ⟨known, rawKind⟩
      · show (Function.update n.objs a relay r).Timed
        subst same
        rw [there] at rawKind ⊢
        rw [kind] at rawKind
        exact (none.timed ⟨known, rawKind⟩).step handled (meets rawKind)
      · show (Function.update n.objs a relay r).Timed
        rw [elsewhere same] at rawKind ⊢
        exact none.timed ⟨known, rawKind⟩

theorem noneLost_start {n₀ : Node} (starts : Starts n₀) : NoneLost n₀ := by
  cases starts with
  | localSide =>
    refine ⟨fun raw => ?_, fun _ zero => by cases zero⟩
    rw [Nat.lt_one_iff.mp raw.known]
    exact .inl (.inr rfl)
  | remote => exact ⟨fun raw => absurd rfl raw.kind, fun _ zero => by cases zero⟩

/-- What the condition of `managerStop` gives: a stopped manager has no session. -/
theorem emptied_reach (run : Reach step StopMeets initRemote n) (stopped : n.state = .stop) :
    n.Emptied := by
  refine (run.invariant (P := fun t => RemoteTasks t ∧ (t.state = .stop → t.Emptied))
    ⟨remoteTasks_initRemote, nofun⟩ fun _ before meets enabled => ?_).2 stopped
  obtain ⟨known, empties⟩ := before
  refine ⟨remoteTasks_step known enabled, fun stopped => ?_⟩
  rcases stopsWhole_step known enabled with same | empty
  · exact (idle_step known (empties (same.symm.trans stopped)) meets enabled).toEmptied
  · exact empty

theorem noneLost_reach {n₀ : Node} (starts : Starts n₀) (run : Reach step KeepsStopped n₀ n) :
    NoneLost n := by
  refine run.invariant (noneLost_start starts) fun before none meets stepped => ?_
  exact noneLost_step (starts.sound before).wf none meets stepped

/-- **No relay is lost.** In every run of a manager of any server type in which no stopped raw
relay is revived, each raw relay is in `_relays` or is `_udp_send`, or it is stopped or its
`stop_relay` is posted, or it was never started. -/
theorem none_lost {n₀ : Node} (starts : Starts n₀) (run : Reach step KeepsStopped n₀ n)
    {r : RelayId} (raw : n.Raw r) : n.Held r ∨ (n.objs r).Leaving ∨ (n.objs r).Born :=
  (noneLost_reach starts run).relays raw

/-- A session is started and stopped; its raw_tcp is let go of. -/
theorem none_lost_stopTcp : ∃ n, Reach step KeepsStopped initRemote n ∧
    n.relays.lookup 3 = none ∧ (n.objs 1).kind = .rawTcp ∧ (n.objs 1).startup = .resolve ∧
    (n.Held 1 ∨ (n.objs 1).Leaving ∨ (n.objs 1).Born) := by
  have run := @Reach.of_isSome _ _ step KeepsStopped initRemote _
    (.relay 0 (.startup true) :: bring (startOf [1, 8, 8, 8, 8, 0, 53]) ++
      bring ⟨3, .stopTcp, []⟩) (by decide +kernel)
  exact ⟨_, run, by decide +kernel, by decide +kernel, by decide +kernel,
    none_lost .remote run ⟨by decide +kernel, by decide +kernel⟩⟩

/-- **A stop reaches every relay.** When a remote manager is stopped, in a run in which it handles
no `START_TCP` and no `DATA_UDP` from then on (`StopMeets`) and in which no stopped raw relay is
revived (`KeepsStopped`), each of its raw relays is stopped, has its `stop_relay` posted or was
never started. -/
theorem stop_reaches_all (run : Reach step (fun n a => n.StopMeets a ∧ n.KeepsStopped a)
    initRemote n) (stopped : n.state = .stop) {r : RelayId} (raw : n.Raw r) :
    (n.objs r).Leaving ∨ (n.objs r).Born := by
  have made := made_reach run
  have empties := emptied_reach (run.mono fun both => both.1)
  have none := noneLost_reach .remote (run.mono fun both => both.2)
  refine (none.relays raw).resolve_left fun held => ?_
  rcases held with ⟨s, there⟩ | current
  · rw [(empties stopped).lookup] at there
    cases there
  · rw [made.udpSend] at current
    cases current

/-- The ssl relay expires while a session is there. -/
theorem stop_reaches_all_expiry : ∃ n, Reachable step initRemote n ∧ n.state = .stop ∧
    (n.objs 1).kind = .rawTcp ∧ (n.objs 1).startup = .resolve ∧
    ((n.objs 1).Leaving ∨ (n.objs 1).Born) := by
  have run := @Reach.of_isSome _ _ step (fun n a => n.StopMeets a ∧ n.KeepsStopped a) initRemote _
    (.relay 0 (.startup true) :: bring (startOf [1, 8, 8, 8, 8, 0, 53]) ++
      List.replicate timeoutTicks .tick) (by decide +kernel)
  exact ⟨_, run.reachable, by decide +kernel, by decide +kernel, by decide +kernel,
    stop_reaches_all run (by decide +kernel) ⟨by decide +kernel, by decide +kernel⟩⟩

end Node

end SslSocks
