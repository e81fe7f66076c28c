import SslSocks.RelaySteps
import SslSocks.Lib.Transition

/-!
# The life of a relay in its manager

The strand of a relay runs its handlers in any order, but the manager calls it in
few ways: a raw_tcp gets its session and starts once, right after it was made;
`impl_start_transparent` asks for the connection before it starts the read loop; a
raw_udp starts once. `Relay.Proper` names the calls that respect this, and
`Relay.Lives` the relays that come from a new one by such calls and any handlers.
-/

namespace SslSocks

open Lib

namespace Relay

/-- Nothing has happened to the relay. -/
structure Fresh (r : Relay) : Prop where
  state : r.state = .uninit
  bufs : r.bufs = []
  inbox : r.inbox = []
  activations : r.activations = 0
  sending : r.sending = none
  toClient : r.tcp.toClient = .off
  toRemote : r.tcp.toRemote = .off
  reading : r.reading = false
  arrived : r.arrived = none
  ssl : r.ssl = {}
  log : r.log = {}

/-- Where the start-up of a new relay stands: that of an `ssl_relay` runs. -/
def firstStartup (r : Relay) : Startup :=
  match r.kind, r.type with
  | .ssl, .remoteServer => .handshake
  | .ssl, _ => .resolve
  | _, _ => .idle

/-- A relay as it is made. -/
structure Born (r : Relay) : Prop extends Fresh r where
  startup : r.startup = r.firstStartup

/-- A new relay that has asked for its connection, in `impl_start_transparent`. -/
def Opened (r : Relay) : Prop :=
  Born { r with log := {} } ∧
    ∃ payload, r.log = { emitted := [⟨r.session, .startTcp, payload⟩] }

/-- A connect message that the other end can read. -/
def Connects (buf : Frame) : Prop :=
  buf.cmd = .startTcp ∧ buf.Fits ∧ (parseAddress buf.payload buf.payload.length).isOk

/-- The calls of a manager that are made when they should be. -/
def Proper (r : Relay) : RelayAction → Prop
  | .call (.begin _) => r.kind = .rawTcp ∧ r.Born
  | .call (.emit buf) =>
    r.kind = .rawTcp ∧ r.type = .localTransparent ∧ buf.session = r.session ∧
      (buf.cmd = .stopTcp ∧ buf.payload = [] ∨ r.Born ∧ Connects buf)
  | .call .startRead => r.kind = .rawTcp ∧ r.type = .localTransparent ∧ r.Opened
  | .call .startUdp => r.kind = .rawUdp ∧ r.Born
  | _ => True

/-- The actions that are proper at any time: all but the calls of a start. -/
def Anytime (_ : Relay) : RelayAction → Prop
  | .call (.begin _) | .call (.emit _) | .call .startRead | .call .startUdp => False
  | _ => True

instance : (r : Relay) → (a : RelayAction) → Decidable (r.Anytime a)
  | _, .call (.begin _) | _, .call (.emit _) | _, .call .startRead | _, .call .startUdp =>
    isFalse id
  | _, .call (.sendData _) | _, .call .stopRelay | _, .call .timeoutDown
  | _, .call (.addPeer _ _) | _, .call (.delPeer _) | _, .event _ _ => isTrue trivial

/-- A relay with its history. -/
def Lives (r : Relay) : Prop := ∃ born, Born born ∧ Reach act Proper born r

variable {r r' : Relay} {alive : Bool} {ev : RelayEvent} {outs : List RelayOut}

theorem Anytime.proper {a : RelayAction} (free : r.Anytime a) : r.Proper a := by
  cases a with
  | call c => cases c <;> first | exact free.elim | exact trivial
  | event => exact trivial

theorem Born.lives (born : r.Born) : r.Lives := ⟨r, born, .refl⟩

theorem Lives.act {a : RelayAction} (lives : r.Lives) (proper : r.Proper a)
    (stepped : r.act a = some r') : r'.Lives := by
  obtain ⟨born, isBorn, run⟩ := lives
  exact ⟨born, isBorn, run.tail proper stepped⟩

theorem Lives.call {c : RelayCall} (lives : r.Lives) (proper : r.Proper (.call c)) :
    (r.call c).Lives := lives.act proper rfl

theorem Lives.run (lives : r.Lives) (run : Reach Relay.act Anytime r r') : r'.Lives := by
  obtain ⟨born, isBorn, before⟩ := lives
  exact ⟨born, isBorn, before.trans (run.mono Anytime.proper)⟩

theorem Lives.step (lives : r.Lives) (stepped : r.step alive ev = some (r', outs)) :
    r'.Lives := by
  refine lives.act (a := .event alive ev) trivial ?_
  rw [Relay.act, stepped]
  rfl

/-- **The induction over the life of a relay.** What is known of all relays with a
history may be used of the one before the step. -/
theorem Lives.invariant {P : Relay → Prop} (lives : r.Lives) (born : ∀ {r}, Born r → P r)
    (call : ∀ {r c r'}, r.Lives → P r → r.Proper (.call c) → Calls r c r' → P r')
    (event : ∀ {r alive ev r' outs}, r.Lives → P r → Handles alive r ev r' outs →
      P (r'.note outs)) : P r := by
  obtain ⟨start, isBorn, run⟩ := lives
  refine run.invariant (born isBorn) fun {t a t'} before holds proper stepped => ?_
  have living : t.Lives := ⟨start, isBorn, before⟩
  cases a with
  | call c =>
    cases stepped
    exact call living holds proper (calls_call t c)
  | event alive ev =>
    obtain ⟨h, outs, handled, rfl⟩ := act_event.mp stepped
    exact event living holds (handles_of_handle handled)

/-! ## What the handlers leave to the manager -/

/-- The parts of a relay that only the manager sets. -/
structure SameCalls (r r' : Relay) : Prop where
  kind : r'.kind = r.kind
  type : r'.type = r.type
  session : r'.session = r.session
  given : r'.log.given = r.log.given
  stopCalled : r'.log.stopCalled = r.log.stopCalled
  late : r'.log.late = r.log.late

theorem SameCalls.stopTask (same : SameCalls r r') : SameCalls r r'.stopTask := by
  obtain ⟨kind, type, session, given, stopCalled, late⟩ := same
  unfold Relay.stopTask
  split
  · split <;> exact ⟨kind, type, session, given, stopCalled, late⟩
  · exact ⟨kind, type, session, given, stopCalled, late⟩

theorem SameCalls.stopHere (same : SameCalls r r') : SameCalls r r'.stopHere := by
  unfold Relay.stopHere
  split
  · obtain ⟨kind, type, session, given, stopCalled, late⟩ := same
    exact ⟨kind, type, session, given, stopCalled, late⟩
  · exact same.stopTask

theorem SendLoop.sameCalls {r'' : Relay} (loop : SendLoop r' r'') (same : SameCalls r r') :
    SameCalls r r'' := by
  obtain ⟨kind, type, session, given, stopCalled, late⟩ := same
  cases loop with
  | empty | stopped | stream | datagram => exact ⟨kind, type, session, given, stopCalled, late⟩
  | threw => exact SameCalls.stopHere ⟨kind, type, session, given, stopCalled, late⟩

theorem Handles.sameCalls (handled : Handles alive r ev r' outs) : SameCalls r r' := by
  cases handled with
  | stopTask => exact SameCalls.stopTask ⟨rfl, rfl, rfl, rfl, rfl, rfl⟩
  | sendError | readThrew | readError | startupThrew | requestBad | directFailed =>
    exact SameCalls.stopHere ⟨rfl, rfl, rfl, rfl, rfl, rfl⟩
  | startSend _ _ loop => exact loop.sameCalls ⟨rfl, rfl, rfl, rfl, rfl, rfl⟩
  | sent _ loop => exact loop.sameCalls ⟨rfl, rfl, rfl, rfl, rfl, rfl⟩
  | _ => exact ⟨rfl, rfl, rfl, rfl, rfl, rfl⟩

theorem sameCalls_step (stepped : r.step alive ev = some (r', outs)) : SameCalls r r' := by
  obtain ⟨h, handled, rfl⟩ := step_eq_some.mp stepped
  obtain ⟨kind, type, session, given, stopCalled, late⟩ := (handles_of_handle handled).sameCalls
  exact ⟨kind, type, session, given, stopCalled, late⟩

/-- A new raw relay has no handlers. -/
theorem Born.handle_eq_none (born : r.Born) (raw : r.kind ≠ .ssl) : r.handle alive ev = none := by
  have startup : r.startup = .idle := by
    rw [born.startup, firstStartup]
    split
    · rename_i ssl _
      exact absurd ssl raw
    · rename_i ssl _
      exact absurd ssl raw
    · rfl
  cases ev with
  | startup ok =>
    cases ok <;> simp only [handle, startupDone, startupThrew, startup, Option.map_none, true_or,
      ↓reduceIte]
  | direct toClient ok =>
    cases toClient <;> simp only [handle, directDone, born.toClient, born.toRemote, ↓reduceIte,
      Bool.false_eq_true]
  | _ =>
    simp [handle, born.inbox, born.ssl, born.activations, born.sending, awaitsRead, born.reading,
      startup, born.arrived]

/-! ## What the calls leave -/

theorem call_kind (r : Relay) (c : RelayCall) : (r.call c).kind = r.kind := by
  generalize calledIs : r.call c = r'
  have called := calls_call r c
  rw [calledIs] at called
  cases called <;> rfl

theorem call_state (r : Relay) (c : RelayCall) : (r.call c).state = r.state := by
  have called := calls_call r c
  generalize r.call c = r' at called
  cases called <;> rfl

theorem call_type (r : Relay) (c : RelayCall) : (r.call c).type = r.type := by
  generalize calledIs : r.call c = r'
  have called := calls_call r c
  rw [calledIs] at called
  cases called <;> rfl

theorem call_session (r : Relay) {c : RelayCall} (other : ∀ s, c ≠ .begin s) :
    (r.call c).session = r.session := by
  generalize calledIs : r.call c = r'
  have called := calls_call r c
  rw [calledIs] at called
  cases called with
  | begin => exact absurd rfl (other _)
  | _ => rfl

end Relay

end SslSocks
