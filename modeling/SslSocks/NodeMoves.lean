import SslSocks.Lib.Trace
import SslSocks.NodeLedger

/-!
# The moves of a manager's handlers

`Node.Part` says what a handler may do in one place; a `Move` says less about messages and
more about the relays: which call goes to which relay, why a relay enters `_relays`, `_ssl`
or `_udp_send` and why it leaves. A handler is a path of moves, whose labels are the message
that it answers and the relay that the message was given to: `dealt_step` shows that there is
one message at most and that it goes to one relay at most.
-/

namespace SslSocks

open Lib

namespace Relay

/-- The relay is stopped, or the handler of its `stop_relay` is posted. -/
def Leaving (r : Relay) : Prop := r.state = .stop ∨ .stopRelay ∈ r.inbox

variable {r : Relay}

theorem leaving_stopRelay (raw : r.kind ≠ .ssl) : (r.call .stopRelay).Leaving := by
  right
  have posted : (r.call .stopRelay).inbox = r.inbox ++ [.stopRelay] := by
    show r.stopRelay.inbox = _
    unfold Relay.stopRelay
    split
    · rename_i ssl
      exact absurd ssl raw
    · rfl
  rw [posted]
  exact List.mem_append_right _ List.mem_cons_self

theorem Leaving.call {c : RelayCall} (leaving : r.Leaving) :
    (r.call c).Leaving := by
  have called := calls_call r c
  generalize r.call c = r' at called
  rcases leaving with stopped | posted
  · left
    cases called <;> exact stopped
  · right
    cases called with
    | stopSsl | count | emit | begin => exact posted
    | _ => exact List.mem_append_left _ posted

/-- `timeout_down` returns the time that it leaves. -/
theorem timeoutDown_expired (expired : r.timeoutDown.2 = 0) : r.timeoutDown.1.timeout = 0 := by
  unfold timeoutDown at expired ⊢
  split
  · rename_i zero
    exact zero
  · rename_i some
    rw [if_neg some] at expired
    split
    · unfold stopRelay
      split <;> rfl
    · rename_i more
      rw [if_neg more] at expired
      exact absurd expired more

end Relay

namespace Node

/-- A message of an ssl relay is handled; a message is given to a raw relay. -/
inductive Dealing
  | answer (k : RelayId) (buf : Frame)
  | give (r : RelayId) (buf : Frame)
  deriving DecidableEq

/-- The relay is in `_relays`, `_ssl` or `_udp_send`. -/
def Tracked (n : Node) (r : RelayId) : Prop :=
  n.Listed r ∨ n.ssl = some r ∨ n.udpSend = some r

/-- A relay of the manager that is not an ssl_relay. -/
structure Raw (n : Node) (r : RelayId) : Prop where
  known : r < n.next
  kind : (n.objs r).kind ≠ .ssl

/-- What the moves speak of is the same. -/
structure SameRelays (n m : Node) : Prop where
  objs : m.objs = n.objs
  next : m.next = n.next
  type : m.type = n.type
  relays : m.relays = n.relays
  ssl : m.ssl = n.ssl
  udpSend : m.udpSend = n.udpSend
  answered : m.answered = n.answered

/-- Another relay may come to the session in `_relays`. -/
def Vacant (n : Node) (s : UInt32) : Prop :=
  ∀ r, n.relays.lookup s = some (some r) → (n.objs r).Leaving

/-- One thing that a handler does to relays, with what it shows. -/
inductive Move (n : Node) : List Dealing → Node → Prop
  | same {m : Node} : SameRelays n m → Move n [] m
  | answer (k : RelayId) (buf : Frame) :
    Move n [.answer k buf] { n with answered := n.answered ++ [(k, buf)] }
  | call {r : RelayId} {c : RelayCall} :
    n.Tracked r → (∀ buf, c ≠ .sendData buf) → Move n [] (n.call r c)
  | sendSsl {k : RelayId} {buf : Frame} : n.ssl = some k → Move n [] (n.call k (.sendData buf))
  | give {r : RelayId} {buf : Frame} :
    n.Listed r ∨ n.udpSend = some r → Move n [.give r buf] (n.call r (.sendData buf))
  | newSsl : n.sslDown → Move n [] { n.make n.newSslRelay with ssl := some n.next }
  /-- `start_local_udp`; `started` when `start_relay` does not throw. -/
  | newUdp (started : Bool) :
    n.udpSendStopped →
    Move n [] { n.make (if started then (n.newRawUdp 0).startUdp else n.newRawUdp 0) with
      udpSend := some n.next }
  | orphanUdp (s : UInt32) : Move n [] (n.make (n.newRawUdp s))
  | makeUdp {s : UInt32} :
    n.Vacant s →
    Move n [] { n.make (n.newRawUdp s).startUdp with relays := n.relays.insert s (some n.next) }
  | makeTcp {s : UInt32} (target : Host × String) :
    n.Vacant s →
    Move n [] { n.make (n.newRawTcp (some target)) with
      relays := n.relays.insert s (some n.next) }
  /-- `add_local_raw_tcp` lists an accepted connection. -/
  | list {s : UInt32} {r : RelayId} {dst : Endpoint} :
    s ∉ n.relays → r < n.next → n.objs r = n.newAccepted dst →
    Move n [] { n with relays := n.relays.insert s (some r) }
  /-- `_relays[session]` of a missing key. -/
  | slot {s : UInt32} : s ∉ n.relays → Move n [] { n with relays := n.relays.insert s none }
  | unlist {s : UInt32} :
    (∀ r, n.relays.lookup s = some (some r) → (n.objs r).Leaving ∨ (n.objs r).timeout = 0) →
    Move n [] { n with relays := n.relays.erase s }
  | clear : (∀ r, n.Listed r → (n.objs r).Leaving) → Move n [] { n with relays := ∅ }

/-- A path of moves. -/
abbrev Moves : Node → List Dealing → Node → Prop := Trace Move

variable {n m k : Node} {ls : List Dealing}

theorem SameRelays.refl (n : Node) : SameRelays n n := ⟨rfl, rfl, rfl, rfl, rfl, rfl, rfl⟩

theorem moves_same (same : SameRelays n m) : Moves n [] m := .single (.same same)

theorem moves_andThen {x : Fallible Node} {f : Node → Fallible Node} (first : x.Both (Moves n []))
    (second : ∀ m, Moves n [] m → (f m).Both (Moves m [])) : (x.andThen f).Both (Moves n []) :=
  Fallible.Both.andThen first fun m before => (second m before).mono fun _ => before.silent

/-! ## `add_request` and the start of a raw_tcp -/

theorem Listed.call {r a : RelayId} {c : RelayCall} (listed : n.Listed r) :
    (n.call a c).Listed r := listed

/-- `stop_manager` before it lets go of the relays. -/
structure Stopping (n m : Node) : Prop where
  path : Moves n [] m
  relays : m.relays = n.relays
  kind : ∀ r, (m.objs r).kind = (n.objs r).kind

theorem Stopping.visit (stopping : Stopping n m) {s : UInt32} {relay : Option RelayId}
    (there : n.relays.lookup s = some relay) :
    Stopping n (relay.elim m fun r => m.call r .stopRelay) := by
  cases relay with
  | none => exact stopping
  | some r =>
    have listed : m.Listed r := ⟨s, stopping.relays ▸ there⟩
    have called := stopping.path.tail (.call (c := .stopRelay) (.inl listed) nofun)
    exact ⟨called, stopping.relays, fun a => (objs_call_kind m r a _).trans (stopping.kind a)⟩

/-- `stop_manager` stops each relay of `_relays`, then lets go of all of them. -/
theorem moves_stopManager (raw : ∀ r, n.Listed r → (n.objs r).kind ≠ .ssl) :
    Moves n [] n.stopManager := by
  have start : Stopping n n := ⟨.refl, rfl, fun _ => rfl⟩
  have stopping := Map.sweep_invariant (P := Stopping n) (m := n.relays) start
    fun stopping there => stopping.visit there
  have leaving {s : UInt32} {r : RelayId} (there : n.relays.lookup s = some (some r)) :=
    Map.sweep_focus (P := Stopping n) (Q := fun m => Stopping n m ∧ (m.objs r).Leaving) there start
      (fun _ found before => before.visit found)
      (fun {m} before => by
        refine ⟨before.visit there, ?_⟩
        show ((m.call r .stopRelay).objs r).Leaving
        rw [objs_call, if_pos rfl]
        apply Relay.leaving_stopRelay
        rw [before.kind r]
        exact raw r ⟨s, there⟩)
      fun {m _ relay} _ found after => by
        refine ⟨after.1.visit found, ?_⟩
        cases relay with
        | none => exact after.2
        | some a =>
          show ((m.call a .stopRelay).objs r).Leaving
          rw [objs_call]
          split
          · rename_i same
            exact same ▸ after.2.call
          · exact after.2
  have cleared := stopping.path.tail (.clear fun r listed => by
    obtain ⟨s, there⟩ := listed
    rw [stopping.relays] at there
    exact (leaving there).2)
  exact cleared.tail (.same ⟨rfl, rfl, rfl, rfl, rfl, rfl, rfl⟩)

/-- Relays of the right kind stand in `_relays`, `_ssl` and `_udp_send`. -/
structure Kinds (n : Node) : Prop where
  ssl : ∀ {k}, n.ssl = some k → k < n.next ∧ (n.objs k).kind = .ssl
  udpSend : ∀ {u}, n.udpSend = some u → u < n.next ∧ (n.objs u).kind = .rawUdp
  listed : ∀ {r}, n.Listed r → r < n.next ∧ (n.objs r).kind ≠ .ssl

theorem WellFormed.kinds (wf : WellFormed n) : Kinds n where
  ssl := wf.ssl
  udpSend := wf.udpSend
  listed := fun ⟨_, there⟩ => ⟨(wf.relays there).1.1, (wf.relays there).2.1⟩

theorem kind_startUdp (n : Node) (s : UInt32) : (n.newRawUdp s).startUdp.kind = .rawUdp :=
  Relay.call_kind _ .startUdp

namespace Kinds

variable (kinds : Kinds n)

include kinds

/-- Relays of the same kinds, some of them no longer in `_relays`. -/
theorem fewer (objs : ∀ r, (m.objs r).kind = (n.objs r).kind) (next : m.next = n.next)
    (ssl : m.ssl = n.ssl) (udpSend : m.udpSend = n.udpSend)
    (listed : ∀ r, m.Listed r → n.Listed r) : Kinds m := by
  refine ⟨fun current => ?_, fun current => ?_, fun there => ?_⟩ <;> rw [objs, next]
  · exact kinds.ssl (ssl ▸ current)
  · exact kinds.udpSend (udpSend ▸ current)
  · exact kinds.listed (listed _ there)

theorem call (r : RelayId) (c : RelayCall) : Kinds (n.call r c) :=
  kinds.fewer (fun a => objs_call_kind n r a c) rfl rfl rfl fun _ => id

/-- A relay is made, and may take a place of its kind. -/
theorem make (relay : Relay) (next : m.next = n.next + 1) (objs : m.objs = (n.make relay).objs)
    (ssl : m.ssl = n.ssl ∨ m.ssl = some n.next ∧ relay.kind = .ssl)
    (udpSend : m.udpSend = n.udpSend ∨ m.udpSend = some n.next ∧ relay.kind = .rawUdp)
    (listed : ∀ r, m.Listed r → n.Listed r ∨ r = n.next ∧ relay.kind ≠ .ssl) : Kinds m := by
  have new : m.objs n.next = relay := by rw [objs, objs_make, if_pos rfl]
  have old {r : RelayId} (known : r < n.next) : m.objs r = n.objs r := by
    rw [objs, objs_make_of_lt relay known]
  refine ⟨fun {k} current => ?_, fun {u} current => ?_, fun {r} there => ?_⟩ <;> rw [next]
  · rcases ssl with same | ⟨made, kind⟩
    · obtain ⟨known, isSsl⟩ := kinds.ssl (same ▸ current)
      rw [old known]
      exact ⟨Nat.lt_succ_of_lt known, isSsl⟩
    · cases made.symm.trans current
      rw [new]
      exact ⟨Nat.lt_succ_self _, kind⟩
  · rcases udpSend with same | ⟨made, kind⟩
    · obtain ⟨known, isUdp⟩ := kinds.udpSend (same ▸ current)
      rw [old known]
      exact ⟨Nat.lt_succ_of_lt known, isUdp⟩
    · cases made.symm.trans current
      rw [new]
      exact ⟨Nat.lt_succ_self _, kind⟩
  · rcases listed r there with before | ⟨rfl, kind⟩
    · obtain ⟨known, raw⟩ := kinds.listed before
      rw [old known]
      exact ⟨Nat.lt_succ_of_lt known, raw⟩
    · rw [new]
      exact ⟨Nat.lt_succ_self _, kind⟩

end Kinds

theorem listed_insert {s : UInt32} {r a : RelayId}
    (there : Listed { n with relays := n.relays.insert s (some a) } r) : n.Listed r ∨ r = a := by
  obtain ⟨s', there⟩ := there
  replace there : (n.relays.insert s (some a)).lookup s' = some (some r) := there
  rw [Map.lookup_insert] at there
  split at there
  · cases there
    exact .inr rfl
  · exact .inl ⟨s', there⟩

theorem listed_erase {s : UInt32} {r : RelayId}
    (there : Listed { n with relays := n.relays.erase s } r) : n.Listed r := by
  obtain ⟨s', there⟩ := there
  exact ⟨s', (Map.of_lookup_erase there).2⟩

theorem kinds_move (kinds : Kinds n) (move : Move n ls m) : Kinds m := by
  cases move with
  | same same =>
    refine kinds.fewer (fun r => ?_) same.next same.ssl same.udpSend fun r there => ?_
    · rw [same.objs]
    · unfold Listed at there ⊢
      rw [same.relays] at there
      exact there
  | answer => exact kinds.fewer (fun _ => rfl) rfl rfl rfl fun _ => id
  | call | sendSsl | give => exact kinds.call _ _
  | newSsl =>
    exact kinds.make n.newSslRelay rfl rfl (.inr ⟨rfl, rfl⟩) (.inl rfl) fun _ => .inl
  | newUdp started =>
    refine kinds.make _ rfl rfl (.inl rfl) (.inr ⟨rfl, ?_⟩) fun _ => .inl
    split
    · exact kind_startUdp n 0
    · rfl
  | orphanUdp s =>
    exact kinds.make (n.newRawUdp s) rfl rfl (.inl rfl) (.inl rfl) fun _ => .inl
  | @makeUdp s _ =>
    refine kinds.make (n.newRawUdp s).startUdp rfl rfl (.inl rfl) (.inl rfl)
      fun r there => (listed_insert there).imp id fun new => ⟨new, ?_⟩
    rw [kind_startUdp]
    decide
  | @makeTcp s target _ =>
    refine kinds.make (n.newRawTcp (some target)) rfl rfl (.inl rfl) (.inl rfl)
      fun r there => (listed_insert there).imp id fun new => ⟨new, ?_⟩
    exact nofun
  | @list s r dst _ known new =>
    refine ⟨kinds.ssl, kinds.udpSend, fun there => ?_⟩
    rcases listed_insert there with old | rfl
    · exact kinds.listed old
    · refine ⟨known, ?_⟩
      show (n.objs _).kind ≠ .ssl
      rw [new]
      exact nofun
  | @slot s _ =>
    refine kinds.fewer (fun _ => rfl) rfl rfl rfl fun r there => ?_
    obtain ⟨s', there⟩ := there
    replace there : (n.relays.insert s none).lookup s' = some (some r) := there
    rw [Map.lookup_insert] at there
    split at there
    · cases there
    · exact ⟨s', there⟩
  | unlist _ => exact kinds.fewer (fun _ => rfl) rfl rfl rfl fun _ => listed_erase
  | clear _ =>
    refine kinds.fewer (fun _ => rfl) rfl rfl rfl fun r there => ?_
    obtain ⟨s, there⟩ := there
    replace there : (∅ : Map UInt32 (Option RelayId)).lookup s = some (some r) := there
    rw [Map.lookup_empty] at there
    cases there

theorem kinds_moves (kinds : Kinds n) (path : Moves n ls m) : Kinds m :=
  path.invariant kinds kinds_move

theorem moves_requested {relay : Option RelayId} {buf : Frame}
    (requested : Requested relay buf n m) : Moves n [] m := by
  cases requested with
  | @sent k current _ =>
    have sent : Moves n [] (n.call k (.sendData buf)) := .single (.sendSsl current)
    exact sent.silent (moves_same ⟨rfl, rfl, rfl, rfl, rfl, rfl, rfl⟩)
  | made down _ =>
    have new : Moves n [] { n.make n.newSslRelay with ssl := some n.next } := .single (.newSsl down)
    have sent := new.tail (@Move.sendSsl _ n.next buf rfl)
    have objs : (n.make (n.newSslRelay.sendData buf)).objs =
        ((n.make n.newSslRelay).call n.next (.sendData buf)).objs :=
      congrArg Node.objs (make_call n n.newSslRelay (.sendData buf)).symm
    exact sent.silent (moves_same ⟨objs, rfl, rfl, rfl, rfl, rfl, rfl⟩)
  | lost _ => exact moves_same ⟨rfl, rfl, rfl, rfl, rfl, rfl, rfl⟩

/-- `add_request`; on the local side `_relays` stays as it is. -/
theorem moves_addRequest (kinds : Kinds n) (throws : Bool) (relay : Option RelayId)
    (buf : Frame) : (n.addRequest throws relay buf).Both fun m => Moves n [] m ∧
      (n.type ≠ .remoteServer → m.relays = n.relays ∧ m.type = n.type) := by
  refine (requested_addRequest n throws relay buf).mono fun last ended => ?_
  obtain ⟨m, requested, rfl | ⟨remote, rfl⟩⟩ := ended
  · exact ⟨moves_requested requested, fun _ => ⟨requested.relays, requested.type⟩⟩
  · have path := moves_requested requested
    have stopped := moves_stopManager fun r listed => ((kinds_moves kinds path).listed listed).2
    exact ⟨path.silent stopped, fun localSide => absurd remote localSide⟩

/-- A path on the local side that leaves `_relays` as it is. -/
structure Keeping (n m : Node) : Prop where
  path : Moves n [] m
  relays : m.relays = n.relays
  type : m.type = n.type

theorem Keeping.call (keeping : Keeping n m) {r : RelayId} {c : RelayCall} (listed : n.Listed r)
    (quiet : ∀ buf, c ≠ .sendData buf) : Keeping n (m.call r c) := by
  have there : m.Listed r := by
    unfold Listed at listed ⊢
    rw [keeping.relays]
    exact listed
  exact ⟨keeping.path.tail (.call (.inl there) quiet), keeping.relays, keeping.type⟩

theorem Keeping.trans (first : Keeping n m) (second : Keeping m k) : Keeping n k :=
  ⟨first.path.silent second.path, second.relays.trans first.relays, second.type.trans first.type⟩

theorem keeping_relayRequest (kinds : Kinds n) (localSide : n.type ≠ .remoteServer)
    (throws : Bool) {r : RelayId} (listed : n.Listed r) (buf : Frame) :
    (n.relayRequest throws r buf).Both (Keeping n) := by
  have start : Keeping n n := ⟨.refl, rfl, rfl⟩
  have emitted := start.call (c := .emit buf) listed nofun
  refine (moves_addRequest (kinds_moves kinds emitted.path) throws (some r) buf).mono fun m both => ?_
  obtain ⟨path, same⟩ := both
  obtain ⟨relays, type⟩ := same localSide
  exact emitted.trans ⟨path, relays, type⟩

theorem keeping_tryStartTransparent (kinds : Kinds n) (localSide : n.type ≠ .remoteServer)
    (throws : Throws) {r : RelayId} (listed : n.Listed r) :
    (n.tryStartTransparent throws r).Both (Keeping n) := by
  unfold tryStartTransparent
  split
  · exact ⟨.refl, rfl, rfl⟩
  · exact (keeping_relayRequest kinds localSide _ listed _).andThen fun m keeping =>
      keeping.call listed nofun

theorem keeping_implStartTransparent (kinds : Kinds n) (localSide : n.type ≠ .remoteServer)
    (throws : Throws) {r : RelayId} (listed : n.Listed r) :
    (n.implStartTransparent throws r).Both (Keeping n) := by
  have tried := keeping_tryStartTransparent kinds localSide throws listed
  unfold implStartTransparent
  cases ended : n.tryStartTransparent throws r with
  | ok m =>
    rw [ended] at tried
    exact tried
  | error m =>
    rw [ended] at tried
    replace tried : Keeping n m := tried
    have there : m.Listed r := by
      unfold Listed at listed ⊢
      rw [tried.relays]
      exact listed
    have again := keeping_relayRequest (kinds_moves kinds tried.path) (tried.type ▸ localSide)
      throws.newSslAgain there ⟨(m.objs r).session, .stopTcp, []⟩
    exact (again.mono fun _ => tried.trans).andThen fun _ keeping => keeping.call listed nofun

theorem moves_startRawTcp (kinds : Kinds n) (throws : Throws) {r : RelayId} (listed : n.Listed r)
    (session : UInt32) : (n.startRawTcp throws r session).Both (Moves n []) := by
  have begun : Moves n [] (n.call r (.begin session)) := .single (.call (.inl listed) nofun)
  unfold startRawTcp
  simp only
  split
  · rename_i transparent
    have localSide : (n.call r (.begin session)).type ≠ .remoteServer := by
      rw [transparent]
      decide
    have started := keeping_implStartTransparent (kinds.call r _) localSide throws
      (Listed.call listed)
    exact started.mono fun _ keeping => begun.silent keeping.path
  · exact begun

theorem listed_self (n : Node) (s : UInt32) (r : RelayId) :
    Listed { n with relays := n.relays.insert s (some r) } r := ⟨s, Map.lookup_insert_self⟩

theorem moves_addLocalRawTcp (wf : WellFormed n) {throws : Throws} {r : RelayId}
    {strand : List ManagerTask} (queue : n.strand = .addLocalRawTcp r :: strand) :
    (addLocalRawTcp { n with strand } throws r).Both (Moves n []) := by
  obtain ⟨known, dst, new⟩ := wf.pending (queue ▸ List.mem_cons_self)
  unfold addLocalRawTcp
  simp only
  split
  · exact moves_same ⟨rfl, rfl, rfl, rfl, rfl, rfl, rfl⟩
  · rename_i vacant
    have listed : Moves n [] { n with relays := n.relays.insert n.session (some r) } :=
      .single (.list vacant known new)
    have counted := listed.silent (moves_same (m :=
      { n with
        strand
        session := n.session + 1
        allocated := n.allocated + 1
        relays := n.relays.insert n.session (some r)
        issued := n.issued ++ [Issue.tcp n.session r] }) ⟨rfl, rfl, rfl, rfl, rfl, rfl, rfl⟩)
    refine (moves_startRawTcp (kinds_moves wf.kinds counted) throws ?_ _).mono fun _ => counted.silent
    exact listed_self n n.session r

theorem moves_addRemoteRawTcp (kinds : Kinds n) (throws : Throws) {session : UInt32}
    (vacant : n.Vacant session) (target : Host × String) :
    (n.addRemoteRawTcp throws session target).Both (Moves n []) := by
  have made := Trace.single (Move.makeTcp target vacant)
  refine (moves_startRawTcp (kinds_moves kinds made) throws ?_ _).mono fun _ => made.silent
  exact listed_self _ session n.next

/-! ## `add_response` -/

theorem moves_relaySlot (n : Node) (session : UInt32) : Moves n [] (n.relaySlot session) := by
  unfold relaySlot
  split
  · exact .refl
  · rename_i vacant
    exact .single (.slot vacant)

/-- A raw_udp that is made and then started. -/
theorem objs_startUdp (n : Node) (s : UInt32) :
    (n.make (n.newRawUdp s).startUdp).objs =
      ((n.make (n.newRawUdp s)).call n.next .startUdp).objs :=
  congrArg Node.objs (make_call n (n.newRawUdp s) .startUdp).symm

theorem moves_startLocalUdp (throws : Throws) (stopped : n.udpSendStopped) :
    (n.startLocalUdp throws).Both (Moves n []) := by
  have made (started : Bool) := Trace.single (Move.newUdp started stopped)
  unfold startLocalUdp startRawUdp
  split
  · exact .refl
  · simp only
    split
    · exact made false
    · refine (made true).silent (moves_same ⟨?_, rfl, rfl, rfl, rfl, rfl, rfl⟩)
      exact (objs_startUdp n 0).symm

theorem moves_restartUdp (n : Node) (throws : Throws) :
    (n.restartUdp throws).Both (Moves n []) := by
  unfold restartUdp
  split
  · rename_i stopped
    exact moves_startLocalUdp throws stopped
  · exact .refl

theorem moves_callUdpSend {c : RelayCall} (quiet : ∀ buf, c ≠ .sendData buf) :
    Moves n [] (n.callUdpSend c) := by
  unfold callUdpSend
  split
  · exact moves_same ⟨rfl, rfl, rfl, rfl, rfl, rfl, rfl⟩
  · rename_i u current
    exact .single (.call (.inr (.inr current)) quiet)

/-- The message is given to one relay, or to none. -/
def GivesOne (buf : Frame) (n m : Node) : Prop :=
  Moves n [] m ∨ ∃ r, Moves n [.give r buf] m

theorem GivesOne.before {buf : Frame} (gives : GivesOne buf m k) (first : Moves n [] m) :
    GivesOne buf n k := gives.imp first.silent fun ⟨r, path⟩ => ⟨r, first.silent path⟩

theorem givesOne_localTransparentSendUdp (n : Node) (throws : Throws) (buf : Frame) :
    (n.localTransparentSendUdp throws buf).Both (GivesOne buf n) := by
  refine (moves_restartUdp n throws).andThen_of (fun _ => .inl) fun m path => ?_
  refine GivesOne.before ?_ path
  unfold callUdpSend
  split
  · exact .inl (moves_same ⟨rfl, rfl, rfl, rfl, rfl, rfl, rfl⟩)
  · rename_i u current
    exact .inr ⟨u, .single (.give (.inr current))⟩

theorem vacant_lookup {s : UInt32} (stopped : ∀ r, (n.relays.lookup s).join = some r →
    (n.objs r).Leaving) : n.Vacant s := by
  intro r there
  apply stopped
  rw [there]
  rfl

/-- `add_remote_raw_udp` for a vacant session; the new relay is then in `_relays`. -/
theorem moves_addRemoteRawUdp {session : UInt32} (throws : Throws) (vacant : n.Vacant session) :
    (∃ m, n.addRemoteRawUdp throws session = .error m ∧ Moves n [] m) ∨
      ∃ m, n.addRemoteRawUdp throws session = .ok m ∧ Moves n [] m ∧ m.Listed n.next := by
  have made := Trace.single (Move.makeUdp vacant)
  unfold addRemoteRawUdp startRawUdp
  split
  · exact .inl ⟨n, rfl, .refl⟩
  · simp only
    split
    · exact .inl ⟨_, rfl, .single (.orphanUdp session)⟩
    · refine .inr ⟨_, rfl, made.silent (moves_same ⟨?_, rfl, rfl, rfl, rfl, rfl, rfl⟩), ?_⟩
      · exact (objs_startUdp n session).symm
      · exact ⟨session, Map.lookup_insert_self⟩

theorem givesOne_remoteServerSendUdp (n : Node) (throws : Throws) (buf : Frame) :
    (n.remoteServerSendUdp throws buf).Both (GivesOne buf n) := by
  have slot := moves_relaySlot n buf.session
  unfold remoteServerSendUdp
  simp only
  generalize n.relaySlot buf.session = k at slot
  -- a new raw_udp takes the place in `_relays`
  have made (vacant : k.Vacant buf.session) :
      ((k.addRemoteRawUdp throws buf.session).andThen fun m =>
        .ok (m.call k.next (.sendData buf))).Both (GivesOne buf n) := by
    rcases moves_addRemoteRawUdp throws vacant with ⟨m, ended, path⟩ | ⟨m, ended, path, listed⟩
    · rw [ended]
      exact .inl (slot.silent path)
    · rw [ended]
      exact .inr ⟨k.next, (slot.silent path).tail (.give (.inl listed))⟩
  split
  · rename_i r there
    have isThere : k.relays.lookup buf.session = some (some r) := Option.join_eq_some_iff.mp there
    split
    · rename_i stopped
      refine made (vacant_lookup fun a found => ?_)
      cases there.symm.trans found
      exact .inl stopped
    · exact .inr ⟨r, slot.tail (.give (.inl ⟨_, isThere⟩))⟩
  · rename_i nobody
    refine made (vacant_lookup fun a found => ?_)
    cases nobody.symm.trans found

theorem moves_remoteServerStartTcp (kinds : Kinds n) (throws : Throws) (buf : Frame) :
    (n.remoteServerStartTcp throws buf).Both (Moves n []) := by
  have slot := moves_relaySlot n buf.session
  unfold remoteServerStartTcp
  simp only
  generalize n.relaySlot buf.session = k at slot
  -- the relay that is there is stopped first
  have vacant : Moves n [] ((k.relays.lookup buf.session).join.elim k fun r => k.call r .stopRelay) ∧
      Vacant ((k.relays.lookup buf.session).join.elim k fun r => k.call r .stopRelay)
        buf.session := by
    cases there : (k.relays.lookup buf.session).join with
    | none =>
      refine ⟨slot, vacant_lookup fun a found => ?_⟩
      cases there.symm.trans found
    | some r =>
      have listed : k.Listed r := ⟨_, Option.join_eq_some_iff.mp there⟩
      have silent (b : Frame) : RelayCall.stopRelay ≠ .sendData b := by
        intro same
        cases same
      refine ⟨slot.tail (.call (.inl listed) silent), vacant_lookup fun a found => ?_⟩
      cases there.symm.trans found
      show ((k.call r .stopRelay).objs r).Leaving
      rw [objs_call, if_pos rfl]
      exact Relay.leaving_stopRelay ((kinds_moves kinds slot).listed listed).2
  generalize (k.relays.lookup buf.session).join.elim k _ = stopped at vacant
  cases parseAddress buf.payload buf.payload.length with
  | error => exact vacant.1
  | ok target =>
    exact (moves_addRemoteRawTcp (kinds_moves kinds vacant.1) throws vacant.2 target).mono fun _ =>
      vacant.1.silent

/-- What a handler shows: at most the message that it answers, and the one relay that got it. -/
inductive Dealt (n m : Node) : Prop
  | silent : Moves n [] m → Dealt n m
  | kept (k : RelayId) (buf : Frame) : Moves n [.answer k buf] m → Dealt n m
  | given (k r : RelayId) (buf : Frame) : Moves n [.answer k buf, .give r buf] m → Dealt n m

theorem givesOne_responseDataTcp (kinds : Kinds n) (throws : Throws) (buf : Frame) :
    (n.responseDataTcp throws buf).Both (GivesOne buf n) := by
  unfold responseDataTcp
  split
  · exact .inl .refl
  · exact .inl (moves_same ⟨rfl, rfl, rfl, rfl, rfl, rfl, rfl⟩)
  · rename_i r there
    split
    · rename_i stopped
      have left : Moves n [] { n with relays := n.relays.erase buf.session } :=
        .single (.unlist fun a found => by
          cases there.symm.trans found
          exact .inl (.inl stopped))
      exact (moves_addRequest (kinds_moves kinds left) _ none _).mono fun m both =>
        .inl (left.silent both.1)
    · exact .inr ⟨r, .single (.give (.inl ⟨_, there⟩))⟩

theorem moves_responseStopTcp (kinds : Kinds n) (buf : Frame) : Moves n [] (n.responseStopTcp buf) := by
  unfold responseStopTcp
  split
  · exact .refl
  · exact moves_same ⟨rfl, rfl, rfl, rfl, rfl, rfl, rfl⟩
  · rename_i r there
    have listed : n.Listed r := ⟨_, there⟩
    have stopped : Moves n [] (n.call r .stopRelay) := .single (.call (.inl listed) nofun)
    refine stopped.tail (.unlist fun a found => ?_)
    cases there.symm.trans found
    left
    rw [objs_call, if_pos rfl]
    exact Relay.leaving_stopRelay (kinds.listed listed).2

theorem dealt_addResponse (kinds : Kinds n) (throws : Throws) (relay : RelayId) (buf : Frame) :
    (n.addResponse throws relay buf).Both (Dealt n) := by
  have noted := Trace.single (Move.answer (n := n) relay buf)
  have after := kinds_moves kinds noted
  have gives {m : Node} (given : GivesOne buf { n with answered := n.answered ++ [(relay, buf)] } m) :
      Dealt n m := by
    rcases given with path | ⟨r, path⟩
    · exact .kept relay buf (noted.trans path)
    · exact .given relay r buf (noted.trans path)
  unfold addResponse
  simp only
  split
  · exact (givesOne_responseDataTcp after throws buf).mono fun _ => gives
  · split
    · refine ((givesOne_localTransparentSendUdp _ throws buf).mono fun _ => gives).andThen
        fun m dealt => ?_
      have touched : Moves m [] (m.touchSource buf.session) :=
        moves_same ⟨rfl, rfl, rfl, rfl, rfl, rfl, rfl⟩
      cases dealt with
      | silent path => exact .silent (path.silent touched)
      | kept k buf path => exact .kept k buf (path.trans touched)
      | given k r buf path => exact .given k r buf (path.trans touched)
    · exact (givesOne_remoteServerSendUdp _ throws buf).mono fun _ => gives
    · exact .kept relay buf noted
  · exact (moves_remoteServerStartTcp after throws buf).mono fun _ path =>
      .kept relay buf (noted.trans path)
  · exact .kept relay buf (noted.trans (moves_responseStopTcp after buf))
  · exact .kept relay buf noted

/-! ## The other handlers -/

theorem moves_sendUdpData (kinds : Kinds n) (throws : Throws) (src : Endpoint) (buf : Frame) :
    (n.sendUdpData throws src buf).Both (Moves n []) := by
  unfold sendUdpData
  refine moves_andThen ?_ fun m path => ?_
  · split
    · have drawn : Moves n [] (n.assignSession src (n.source src)) :=
        moves_same ⟨rfl, rfl, rfl, rfl, rfl, rfl, rfl⟩
      refine (moves_andThen (moves_restartUdp _ throws) fun m _ => ?_).mono fun _ => drawn.silent
      have called : Moves m [] (m.callUdpSend (.addPeer (n.session + 1) src)) :=
        moves_callUdpSend nofun
      exact called.silent (moves_same ⟨rfl, rfl, rfl, rfl, rfl, rfl, rfl⟩)
    · exact .refl
  · have touched : Moves m [] { m with
        srcs := m.srcs.insert src { m.source src with timeout := timeoutTicks } } :=
      moves_same ⟨rfl, rfl, rfl, rfl, rfl, rfl, rfl⟩
    have kinds' := kinds_moves kinds (path.silent touched)
    exact (moves_addRequest kinds' throws.newSsl none _).mono fun _ both => touched.silent both.1

theorem dealt_runTask (wf : WellFormed n) (throws : Throws) {task : ManagerTask}
    {strand : List ManagerTask} (queue : n.strand = task :: strand) :
    (runTask { n with strand } throws task).Both (Dealt n) := by
  have popped : Moves n [] { n with strand } := moves_same ⟨rfl, rfl, rfl, rfl, rfl, rfl, rfl⟩
  have kinds := kinds_moves wf.kinds popped
  cases task with
  | addRequest relay buf =>
    exact (moves_addRequest kinds throws.newSsl (some relay) buf).mono fun _ both =>
      .silent (popped.silent both.1)
  | addResponse relay buf =>
    refine (dealt_addResponse kinds throws relay buf).mono fun m dealt => ?_
    cases dealt with
    | silent path => exact .silent (popped.silent path)
    | kept k buf path => exact .kept k buf (popped.silent path)
    | given k r buf path => exact .given k r buf (popped.silent path)
  | addLocalRawTcp relay => exact (moves_addLocalRawTcp wf queue).mono fun _ => .silent
  | sendUdpData src buf =>
    exact (moves_sendUdpData kinds throws src buf).mono fun _ path => .silent (popped.silent path)

theorem moves_visitRelay {s : UInt32} {relay : Option RelayId}
    (there : n.relays.lookup s = some relay) : Moves n [] (n.visitRelay s relay) := by
  cases relay with
  | none =>
    refine .single (.unlist fun r found => ?_)
    cases there.symm.trans found
  | some r =>
    have counted : Moves n [] (n.call r .timeoutDown) :=
      .single (.call (.inl ⟨s, there⟩) nofun)
    unfold visitRelay
    simp only
    split
    · rename_i expired
      refine counted.tail (.unlist fun a found => ?_)
      cases there.symm.trans found
      right
      rw [objs_call, if_pos rfl]
      exact Relay.timeoutDown_expired expired
    · exact counted

theorem moves_tick (kinds : Kinds n) : Moves n [] n.tick := by
  have counted : Moves n [] n.sslTimeout := by
    unfold sslTimeout
    split
    · exact .refl
    · rename_i k current
      exact .single (.call (.inr (.inl current)) nofun)
  refine tick_rule counted (fun {m} path _ _ => ?_) (fun {m} path => ?_)
    (fun {m src entry} path _ => ?_) (fun path there => path.silent (moves_visitRelay there))
    fun path _ => path.silent (moves_same ⟨rfl, rfl, rfl, rfl, rfl, rfl, rfl⟩)
  · have stopped := moves_stopManager fun r listed => ((kinds_moves kinds path).listed listed).2
    exact (path.silent stopped).silent (moves_same ⟨rfl, rfl, rfl, rfl, rfl, rfl, rfl⟩)
  · have cleared : Moves m [] { m with udpSrcs := ∅, srcs := ∅ } :=
      moves_same ⟨rfl, rfl, rfl, rfl, rfl, rfl, rfl⟩
    exact (path.silent cleared).silent (moves_callUdpSend nofun)
  · unfold visitSource
    split
    · have erased : Moves m [] { m with
          udpSrcs := m.udpSrcs.erase entry.session
          srcs := m.srcs.erase src } := moves_same ⟨rfl, rfl, rfl, rfl, rfl, rfl, rfl⟩
      exact (path.silent erased).silent (moves_callUdpSend nofun)
    · exact path.silent (moves_same ⟨rfl, rfl, rfl, rfl, rfl, rfl, rfl⟩)

/-- **A step** is a path of moves that deals at most one message, or comes from outside. -/
theorem dealt_step {a : NodeAction} (wf : WellFormed n) (stepped : n.step a = some m) :
    Dealt n m ∨ Outside n a m := by
  cases stepIs_of_step stepped with
  | accept localSide => exact .inr (.accept localSide)
  | udpPacket localSide => exact .inr (.udpPacket localSide)
  | manager queue => exact .inl (dealt_runTask wf _ queue)
  | tick _ => exact .inl (.silent (moves_tick wf.kinds))
  | release _ => exact .inr .release
  | @relay r ev relay outs known handled =>
    exact .inr (.relay (wf.callable_of_step known handled) handled)

end Node

end SslSocks
