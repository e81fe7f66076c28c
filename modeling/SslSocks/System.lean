import SslSocks.NodeRoutes

/-!
# A local manager and the managers it connects to

A `System` is a local manager with, for each ssl relay it makes, the remote manager at the
other end of that connection. One step is a step of one of the managers. A read of an ssl
connection brings the bytes that come next in what the other end wrote (`Carries`); nothing
else joins the two sides.

`delivered_down` and `delivered_up` say what follows for messages: those that an ssl relay
hands to its manager are, in order, the first of those that were pushed at the other end.
-/

namespace SslSocks

open Lib

namespace Relay

variable {r r' : Relay} {alive : Bool} {ev : RelayEvent} {outs : List RelayOut}

/-! ## The bytes that an ssl relay received -/

/-- The bytes of the completed read whose handler has not run. -/
def pending (r : Relay) : List UInt8 :=
  match r.arrived with
  | some (.stream bytes) => bytes
  | _ => []

/-- All the bytes that came. -/
def heard (r : Relay) : List UInt8 := r.log.readLog ++ r.pending

theorem heard_of_stream {bytes : List UInt8} (arrived : r.arrived = some (.stream bytes)) :
    r.heard = r.log.readLog ++ bytes := by
  unfold heard pending
  rw [arrived]

theorem heard_of_none (arrived : r.arrived = none) : r.heard = r.log.readLog := by
  unfold heard pending
  rw [arrived, List.append_nil]

theorem heard_of_same (arrived : r'.arrived = r.arrived) (readLog : r'.log.readLog = r.log.readLog) :
    r'.heard = r.heard := by
  unfold heard pending
  rw [arrived, readLog]

/-- Only a completed read brings bytes to an ssl relay. -/
theorem Handles.heard (handled : Handles alive r ev r' outs) (ok : KindOk r) (ssl : r.kind = .ssl) :
    r'.heard = r.heard ∨
      ∃ bytes, ev = .arrive (.stream bytes) ∧ bytes ≠ [] ∧ r'.heard = r.log.readLog ++ bytes := by
  by_cases send : RelayEvent.IsSend ev
  · obtain ⟨same, _⟩ := handled.sameReads send
    exact .inl (heard_of_same same.arrived same.readLog)
  have isLocal (other : r.startup ∉ [.idle, .resolve, .connect, .handshake]) : False := by
    cases (ok.localServer other).1.symm.trans ssl
  have read {a : Relay} {bytes : List UInt8} (arrived : r.arrived = some (.stream bytes))
      (none : a.arrived = none) (readLog : a.log.readLog = r.log.readLog ++ bytes) :
      a.heard = r.heard := by
    rw [heard_of_stream arrived, heard_of_none none, readLog]
  cases handled with
  | @arrive arrival _ _ _ fits =>
    cases arrival with
    | stream bytes => exact .inr ⟨bytes, rfl, fits.2.1, heard_of_stream rfl⟩
    | datagram peer bytes => cases fits.1.symm.trans ssl
  | readRaw arrived | readMore arrived | readMessage arrived | readMessageDead arrived
  | readOverrun arrived => exact .inl (read arrived rfl rfl)
  | @readThrew bytes arrived =>
    have same := sameReads_stopHere
      { r with arrived := none, reading := false, log.readLog := r.log.readLog ++ bytes }
    exact .inl ((heard_of_same same.arrived same.readLog).trans (read arrived rfl rfl))
  | readRawDead | readDatagramDead => exact .inl rfl
  | readDatagram arrived _ _ => cases (ok.datagram arrived).1.symm.trans ssl
  | readError _ none | startupThrew _ none =>
    refine .inl (heard_of_same ?_ ?_)
    · exact (sameReads_stopHere _).arrived
    · exact (sameReads_stopHere _).readLog
  | greeting startup | greetingReply startup | directResolve startup | directConnect startup
  | okReply startup | requestBad startup | requestBlocked startup | requestDead startup
  | requestDirect startup =>
    refine (isLocal ?_).elim
    rw [startup]
    decide
  | resolve | connectSsl | connectRaw | handshake => exact .inl rfl
  | direct _ _ on | directFailed _ _ on => cases (ok.direct on).1.symm.trans ssl
  | _ => exact absurd trivial send

theorem SendLoop.written (loop : SendLoop r r') : r'.log.written = r.log.written := by
  cases loop with
  | threw => exact (idles_stopHere _).written
  | _ => rfl

/-- What was written stays written. -/
theorem Handles.written (handled : Handles alive r ev r' outs) :
    r.log.written <+: r'.log.written := by
  have stops (a : Relay) (same : a.log.written = r.log.written) :
      r.log.written <+: a.stopHere.log.written := by
    rw [(idles_stopHere a).written, same]
  cases handled with
  | take => exact List.prefix_append _ _
  | startSend _ _ loop | sent _ loop =>
    rw [loop.written]
  | @stopTask inbox _ =>
    rcases stopTask_cases { r with inbox } with ⟨_, same⟩ | ⟨bound, same⟩ <;> rw [same]
  | sendError | readThrew | readError | startupThrew | requestBad | directFailed =>
    exact stops _ rfl
  | _ => exact List.prefix_rfl

/-- The bytes of an ssl relay are those of the messages it pushed. -/
theorem Lives.written_encodes (lives : r.Lives) (ssl : r.kind = .ssl) :
    r.log.written <+: frameCode.encodeAll r.log.accepted := by
  have stream : r.kind ≠ .rawUdp := by
    rw [ssl]
    decide
  have written := lives.written_pushed stream
  have text : r.text = Frame.encode := by
    funext buf
    exact if_pos ssl
  rw [text] at written
  exact written

/-- The relay keeps its kind and what it wrote and heard. -/
structure SameWire (r r' : Relay) : Prop where
  kind : r'.kind = r.kind
  heard : r'.heard = r.heard
  written : r.log.written <+: r'.log.written

theorem sameWire_call (r : Relay) (c : RelayCall) : SameWire r (r.call c) := by
  have called := calls_call r c
  generalize r.call c = r' at called
  cases called <;> exact ⟨rfl, rfl, List.prefix_rfl⟩

end Relay

namespace Node

variable {n m : Node}

theorem leftByCalls_wire : LeftByCalls Relay.SameWire where
  refl _ := ⟨rfl, rfl, List.prefix_rfl⟩
  trans first second := ⟨second.kind.trans first.kind, second.heard.trans first.heard,
    first.written.trans second.written⟩
  call r c _ := Relay.sameWire_call r c

/-- What a step does to the ends of the ssl connections: only a completed read brings
bytes, and a new ssl relay is one of the local side and has heard nothing. -/
structure Wires (n : Node) (a : Option NodeAction) (m : Node) : Prop where
  next : n.next ≤ m.next
  type : m.type = n.type
  kind : ∀ {r}, r < n.next → (m.objs r).kind = (n.objs r).kind
  written : ∀ {r}, r < n.next → (n.objs r).log.written <+: (m.objs r).log.written
  heard : ∀ {r}, r < n.next → (n.objs r).kind = .ssl →
    (m.objs r).heard = (n.objs r).heard ∨
      ∃ bytes, a = some (.relay r (.arrive (.stream bytes))) ∧ bytes ≠ [] ∧
        (m.objs r).heard = (n.objs r).log.readLog ++ bytes
  new : ∀ {r}, n.next ≤ r → r < m.next → (m.objs r).kind = .ssl →
    (m.objs r).heard = [] ∧ n.type ≠ .remoteServer

/-- Nothing is heard in a part of a handler. -/
theorem Wires.of_parts (grows : Grows n m)
    (same : ∀ {r}, r < n.next → (n.objs r).SameWire (m.objs r))
    (new : ∀ {r}, n.next ≤ r → r < m.next → (m.objs r).kind = .ssl →
      (m.objs r).heard = [] ∧ n.type ≠ .remoteServer)
    (a : Option NodeAction) : Wires n a m where
  next := grows.next
  type := grows.type
  kind known := (same known).kind
  written known := (same known).written
  heard known _ := .inl (same known).heard
  new := new

/-- An ssl relay is made for a request, on the local side. -/
theorem madeSsl_part (part : Part n m) {r : RelayId} (new : n.next ≤ r) (known : r < m.next)
    (ssl : (m.objs r).kind = .ssl) :
    n.type ≠ .remoteServer ∧ ∃ relay buf, m.objs r = n.newSslRelay.sendData buf ∧
      m.requests = n.requests ++ [⟨some r, relay, buf⟩] := by
  have last {relay : Relay} (is : r < n.next + 1) : (n.make relay).objs r = relay := by
    rw [objs_make, if_pos (Nat.le_antisymm (Nat.le_of_lt_succ is) new)]
  have requested {k : Node} {relay : Option RelayId} {buf : Frame}
      (requested : Requested relay buf k m) (next : k.next = n.next) (type : k.type = n.type)
      (same : k.newSslRelay = n.newSslRelay) (requests : k.requests = n.requests) :
      n.type ≠ .remoteServer ∧ ∃ relay buf, m.objs r = n.newSslRelay.sendData buf ∧
        m.requests = n.requests ++ [⟨some r, relay, buf⟩] := by
    cases requested with
    | sent _ _ | lost _ => exact absurd (next ▸ known) (Nat.not_lt.mpr new)
    | made _ localSide =>
      have is : r = k.next := Nat.le_antisymm (Nat.le_of_lt_succ known) (next ▸ new)
      refine ⟨type ▸ localSide, relay, buf, ?_, ?_⟩
      · show (k.make _).objs r = _
        rw [objs_make, if_pos is, same]
      · show k.requests ++ _ = _
        rw [requests, is]
  cases part with
  | requested _ asked | emit _ _ _ asked => exact requested asked rfl rfl rfl rfl
  | own _ _ asked => exact requested asked rfl rfl rfl rfl
  | makeTcp =>
    replace ssl : ((n.make _).objs r).kind = .ssl := ssl
    rw [last known] at ssl
    cases ssl
  | orphanUdp =>
    rw [last known] at ssl
    cases ssl
  | @makeUdp s =>
    replace ssl : ((n.make (n.newRawUdp s).startUdp).objs r).kind = .ssl := ssl
    rw [last known, show (n.newRawUdp s).startUdp.kind = .rawUdp from
      Relay.call_kind _ .startUdp] at ssl
    cases ssl
  | _ => exact absurd known (Nat.not_lt.mpr new)

theorem new_part (part : Part n m) {r : RelayId} (new : n.next ≤ r) (known : r < m.next)
    (ssl : (m.objs r).kind = .ssl) : (m.objs r).heard = [] ∧ n.type ≠ .remoteServer := by
  obtain ⟨localSide, relay, buf, is, _⟩ := madeSsl_part part new known ssl
  rw [is]
  exact ⟨rfl, localSide⟩

theorem wires_part (part : Part n m) (a : Option NodeAction) : Wires n a m :=
  .of_parts (grows_part part)
    (fun known => leftByCalls_wire.part part known (.inr fun _ _ => Relay.sameWire_call _ _))
    (fun new known ssl => new_part part new known ssl) a

theorem raw_udpPart (part : UdpPart n m) {r : RelayId} (new : n.next ≤ r) (known : r < m.next) :
    (m.objs r).kind ≠ .ssl := by
  intro ssl
  cases part with
  | localUdp started =>
    replace ssl : ((n.make _).objs r).kind = .ssl := ssl
    rw [objs_make, if_pos (Nat.le_antisymm (Nat.le_of_lt_succ known) new)] at ssl
    have udp : (if started then (n.newRawUdp 0).startUdp else n.newRawUdp 0).kind = .rawUdp := by
      split
      · exact Relay.call_kind _ .startUdp
      · rfl
    cases udp.symm.trans ssl
  | _ => exact absurd known (Nat.not_lt.mpr new)

theorem raw_outside {a : NodeAction} (outside : Outside n a m) {r : RelayId} (new : n.next ≤ r)
    (known : r < m.next) : (m.objs r).kind ≠ .ssl := by
  intro ssl
  cases outside with
  | @accept dst _ =>
    replace ssl : ((n.make (n.newAccepted dst)).objs r).kind = .ssl := ssl
    rw [objs_make, if_pos (Nat.le_antisymm (Nat.le_of_lt_succ known) new)] at ssl
    cases ssl
  | _ => exact absurd known (Nat.not_lt.mpr new)

theorem wires_udpPart (part : UdpPart n m) (a : Option NodeAction) : Wires n a m :=
  .of_parts (grows_udpPart part) (fun known => leftByCalls_wire.udpPart part known)
    (fun new known ssl => absurd ssl (raw_udpPart part new known)) a

/-- A part behind others. -/
theorem Wires.then {k : Node} {a : Option NodeAction} (first : Wires n a m)
    (second : Wires m none k) : Wires n a k where
  next := first.next.trans second.next
  type := second.type.trans first.type
  kind known := (second.kind (known.trans_le first.next)).trans (first.kind known)
  written known := (first.written known).trans (second.written (known.trans_le first.next))
  heard {r} known ssl := by
    have later := known.trans_le first.next
    rcases second.heard later ((first.kind known).trans ssl) with same | ⟨_, none, _⟩
    · rw [same]
      exact first.heard known ssl
    · cases none
  new {r} new known ssl := by
    rcases Nat.lt_or_ge r m.next with old | late
    · rcases second.heard old ((second.kind old).symm.trans ssl) with same | ⟨_, none, _⟩
      · rw [same]
        exact first.new new old ((second.kind old).symm.trans ssl)
      · cases none
    · exact first.type ▸ second.new late known ssl

theorem Wires.refl (n : Node) (a : Option NodeAction) : Wires n a n where
  next := Nat.le_refl _
  type := rfl
  kind _ := rfl
  written _ := List.prefix_rfl
  heard _ _ := .inl rfl
  new new known := absurd known (Nat.not_lt.mpr new)

/-- **A step and the ends of the connections.** -/
theorem wires_step {a : NodeAction} (wf : WellFormed n) (live : RelaysLive n)
    (stepped : n.step a = some m) : Wires n (some a) m := by
  rcases parts_step wf stepped with parts | outside
  · clear stepped
    induction parts with
    | refl => exact Wires.refl n _
    | tail _ part ih =>
      rcases part with part | part
      · exact ih.then (wires_part part none)
      · exact ih.then (wires_udpPart part none)
  · have grows := grows_outside outside
    cases outside with
    | accept localSide =>
      exact .of_parts grows (fun known => leftByCalls_wire.objs_make _ known)
        (fun new known ssl => absurd ssl (raw_outside (.accept localSide) new known)) _
    | udpPacket | release =>
      exact .of_parts grows (fun _ => leftByCalls_wire.refl _)
        (fun new known => absurd known (Nat.not_lt.mpr new)) _
    | @relay k ev relay outs callable handled =>
      obtain ⟨h, handle, rfl⟩ := Relay.step_eq_some.mp handled
      have handles := Relay.handles_of_handle handle
      have elsewhere {r : RelayId} (other : r ≠ k) :
          Function.update n.objs k (h.note outs) r = n.objs r := Function.update_of_ne other _ _
      have there : Function.update n.objs k (h.note outs) k = h.note outs :=
        Function.update_self _ _ _
      refine ⟨Nat.le_refl _, rfl, fun {r} known => ?_, fun {r} known => ?_, fun {r} known ssl => ?_,
        fun new known => absurd known (Nat.not_lt.mpr new)⟩
      all_goals
        by_cases same : r = k
        rotate_left
      · exact congrArg Relay.kind (elsewhere same)
      · rw [same]
        exact (congrArg Relay.kind there).trans handles.sameCalls.kind
      · show _ <+: (Function.update n.objs k (h.note outs) r).log.written
        rw [elsewhere same]
      · rw [same]
        show _ <+: (Function.update n.objs k (h.note outs) k).log.written
        rw [there]
        exact handles.written
      · exact .inl (congrArg Relay.heard (elsewhere same))
      · rw [same] at ssl ⊢
        have lives := live k callable.1
        refine (handles.heard lives.kindOk ssl).imp (fun same => ?_) fun came => ?_
        · exact (congrArg Relay.heard there).trans same
        · obtain ⟨bytes, rfl, some, heard⟩ := came
          exact ⟨bytes, rfl, some, (congrArg Relay.heard there).trans heard⟩

/-- The remote side makes no ssl relay beside its first. -/
theorem remote_ssl {C : Node → NodeAction → Prop} (run : Reach step C initRemote n) {r : RelayId}
    (known : r < n.next) (ssl : (n.objs r).kind = .ssl) : r = 0 := by
  have starts := Starts.remote
  suffices both : n.type = .remoteServer ∧ ∀ r, r < n.next → (n.objs r).kind = .ssl → r = 0 from
    both.2 r known ssl
  refine run.invariant (P := fun n => n.type = .remoteServer ∧ ∀ r, r < n.next →
    (n.objs r).kind = .ssl → r = 0) ⟨rfl, fun r known _ => Nat.lt_one_iff.mp known⟩
    fun {k a m} before holds _ stepped => ?_
  obtain ⟨wf, _, live⟩ := starts.sound before
  have wires := wires_step wf live stepped
  refine ⟨wires.type.trans holds.1, fun r known ssl => ?_⟩
  rcases Nat.lt_or_ge r k.next with old | new
  · exact holds.2 r old ((wires.kind old).symm.trans ssl)
  · exact absurd holds.1 (wires.new new known ssl).2

/-- A request of a relay is one that it asked for. -/
theorem asks_of_request {C : Node → NodeAction → Prop} {n₀ : Node} (starts : Starts n₀)
    (run : Reach step C n₀ n) {q : Request} (there : q ∈ n.requests) {r : RelayId}
    (relay : q.relay = some r) :
    r < n.next ∧ q.buf ∈ (n.objs r).log.emitted ∧ (n.objs r).Asks := by
  obtain ⟨_, ledger, live⟩ := starts.sound run
  obtain ⟨emitted, known⟩ := emitted_of_request ledger there relay
  exact ⟨known, emitted, (live r known).asks⟩

/-- Every message that `add_request` was given fits `_data`. -/
theorem requests_fit {C : Node → NodeAction → Prop} {n₀ : Node} (starts : Starts n₀)
    (run : Reach step C n₀ n) {q : Request} (there : q ∈ n.requests) : q.buf.Fits := by
  cases relay : q.relay with
  | none => exact (ownAsks_reach starts run q there relay).1
  | some r =>
    obtain ⟨_, emitted, asks⟩ := asks_of_request starts run there relay
    exact (asks.own _ emitted).2

end Node

/-! ## Two sides -/

/-- A local manager and, for each of its ssl relays, the manager at the other end. -/
structure System where
  loc : Node
  rem : RelayId → Node

inductive SystemAction
  | loc (a : NodeAction)
  | rem (k : RelayId) (a : NodeAction)
  deriving DecidableEq

/-- The bytes come next in what the other end wrote. -/
def Carries (writer reader : Relay) (bytes : List UInt8) : Prop :=
  reader.log.readLog ++ bytes <+: writer.log.written

instance (writer reader : Relay) (bytes : List UInt8) : Decidable (Carries writer reader bytes) :=
  inferInstanceAs (Decidable (_ <+: _))

namespace System

/-- What a read of an ssl connection brings the local side. -/
def LocHears (y : System) : NodeAction → Prop
  | .relay k (.arrive (.stream bytes)) =>
    (y.loc.objs k).kind = .ssl → Carries ((y.rem k).objs 0) (y.loc.objs k) bytes
  | _ => True

/-- What a read of its ssl connection brings the remote side. -/
def RemHears (y : System) (k : RelayId) : NodeAction → Prop
  | .relay r (.arrive (.stream bytes)) =>
    ((y.rem k).objs r).kind = .ssl →
      (y.loc.objs k).kind = .ssl ∧ Carries (y.loc.objs k) ((y.rem k).objs r) bytes
  | _ => True

instance (y : System) : DecidablePred y.LocHears := fun a => by
  unfold LocHears
  split <;> infer_instance

instance (y : System) (k : RelayId) : DecidablePred (y.RemHears k) := fun a => by
  unfold RemHears
  split <;> infer_instance

/-- One step of one of the managers. -/
def step (y : System) : SystemAction → Option System
  | .loc a => if y.LocHears a then (y.loc.step a).map fun n => { y with loc := n } else none
  | .rem k a =>
    if y.RemHears k a then
      ((y.rem k).step a).map fun n => { y with rem := Function.update y.rem k n }
    else none

/-- No connection yet; the managers at the other ends wait. -/
def init (type : ServerType) : System := ⟨.initLocal type, fun _ => .initRemote⟩

variable {y z : System} {type : ServerType}

theorem step_loc {a : NodeAction} (stepped : y.step (.loc a) = some z) :
    y.LocHears a ∧ ∃ n, y.loc.step a = some n ∧ z = { y with loc := n } := by
  obtain ⟨hears, mapped⟩ := Option.ite_none_right_eq_some.mp stepped
  obtain ⟨n, step, rfl⟩ := Option.map_eq_some_iff.mp mapped
  exact ⟨hears, n, step, rfl⟩

theorem step_rem {k : RelayId} {a : NodeAction} (stepped : y.step (.rem k a) = some z) :
    y.RemHears k a ∧ ∃ n, (y.rem k).step a = some n ∧
      z = { y with rem := Function.update y.rem k n } := by
  obtain ⟨hears, mapped⟩ := Option.ite_none_right_eq_some.mp stepped
  obtain ⟨n, step, rfl⟩ := Option.map_eq_some_iff.mp mapped
  exact ⟨hears, n, step, rfl⟩

/-- Each manager makes a run of its own, under a condition that the steps of the system
make sure of. -/
theorem loc_reach {C : System → SystemAction → Prop} {D : Node → NodeAction → Prop} {y₀ : System}
    (run : Reach step C y₀ y)
    (meets : ∀ {z a}, Reach step C y₀ z → C z (.loc a) → D z.loc a) :
    Reach Node.step D y₀.loc y.loc := by
  refine run.project System.loc fun {t a t'} before holds stepped => ?_
  cases a with
  | loc a =>
    obtain ⟨_, n, step, rfl⟩ := step_loc stepped
    exact Reach.refl.tail (meets before holds) step
  | rem k a =>
    obtain ⟨_, n, _, rfl⟩ := step_rem stepped
    exact .refl

theorem rem_reach {C : System → SystemAction → Prop} {D : Node → NodeAction → Prop} {y₀ : System}
    (run : Reach step C y₀ y) (k : RelayId)
    (meets : ∀ {z a}, Reach step C y₀ z → C z (.rem k a) → D (z.rem k) a) :
    Reach Node.step D (y₀.rem k) (y.rem k) := by
  refine run.project (fun z => z.rem k) fun {t a t'} before holds stepped => ?_
  cases a with
  | loc a =>
    obtain ⟨_, n, _, rfl⟩ := step_loc stepped
    exact .refl
  | rem j a =>
    obtain ⟨_, n, step, rfl⟩ := step_rem stepped
    by_cases same : k = j
    · subst same
      show Reach Node.step D (t.rem k) (Function.update t.rem k n k)
      rw [Function.update_self]
      exact Reach.refl.tail (meets before holds) step
    · show Reach Node.step D (t.rem k) (Function.update t.rem j n k)
      rw [Function.update_of_ne same]
      exact .refl

/-- What the ends of the ssl connections heard was written at the other end. -/
structure Joined (type : ServerType) (y : System) : Prop where
  loc : Reachable Node.step (.initLocal type) y.loc
  rem : ∀ k, Reachable Node.step .initRemote (y.rem k)
  down : ∀ k, ((y.rem k).objs 0).heard = [] ∨
    k < y.loc.next ∧ (y.loc.objs k).kind = .ssl ∧
      ((y.rem k).objs 0).heard <+: (y.loc.objs k).log.written
  up : ∀ {k}, k < y.loc.next → (y.loc.objs k).kind = .ssl →
    (y.loc.objs k).heard <+: ((y.rem k).objs 0).log.written

theorem Joined.soundLoc (joined : Joined type y) (localSide : type ≠ .remoteServer) :
    y.loc.Sound := (Node.Starts.localSide localSide).sound joined.loc

theorem Joined.soundRem (joined : Joined type y) (k : RelayId) : (y.rem k).Sound :=
  Node.Starts.remote.sound (joined.rem k)

theorem Joined.rem_ssl (joined : Joined type y) (k : RelayId) :
    0 < (y.rem k).next ∧ ((y.rem k).objs 0).kind = .ssl := by
  have wf := Node.Starts.remote.wellFormed
  exact ⟨(Node.grows_reach wf (joined.rem k)).next,
    Node.kind_reach wf (joined.rem k) (Nat.zero_lt_one)⟩

theorem Joined.stepLoc (localSide : type ≠ .remoteServer) (joined : Joined type y)
    {a : NodeAction} {n : Node} (hears : y.LocHears a) (stepped : y.loc.step a = some n) :
    Joined type { y with loc := n } := by
  obtain ⟨wf, _, live⟩ := joined.soundLoc localSide
  have wires := Node.wires_step wf live stepped
  refine ⟨joined.loc.tail trivial stepped, joined.rem, fun k => ?_, fun {k} known ssl => ?_⟩
  · refine (joined.down k).imp id fun ⟨known, ssl, heard⟩ => ?_
    exact ⟨known.trans_le wires.next, (wires.kind known).trans ssl,
      heard.trans (wires.written known)⟩
  · rcases Nat.lt_or_ge k y.loc.next with old | new
    · have before : (y.loc.objs k).kind = .ssl := (wires.kind old).symm.trans ssl
      rcases wires.heard old before with same | ⟨bytes, is, _, heard⟩
      · rw [same]
        exact joined.up old before
      · cases is
        rw [heard]
        exact hears before
    · rw [(wires.new new known ssl).1]
      exact List.nil_prefix

theorem Joined.stepRem (localSide : type ≠ .remoteServer) (joined : Joined type y)
    {k : RelayId} {a : NodeAction} {n : Node} (hears : y.RemHears k a)
    (stepped : (y.rem k).step a = some n) :
    Joined type { y with rem := Function.update y.rem k n } := by
  obtain ⟨wf, _, live⟩ := joined.soundRem k
  have wires := Node.wires_step wf live stepped
  obtain ⟨first, ssl⟩ := joined.rem_ssl k
  have ledger := (joined.soundLoc localSide).ledger
  -- what a manager has, those that did not step still have
  have each {P : RelayId → Node → Prop} (here : P k n) (others : ∀ j, j ≠ k → P j (y.rem j))
      (j : RelayId) : P j (Function.update y.rem k n j) := by
    by_cases same : j = k
    · rw [same, Function.update_self]
      exact here
    · rw [Function.update_of_ne same]
      exact others j same
  refine ⟨joined.loc, each ((joined.rem k).tail trivial stepped) fun j _ => joined.rem j,
    each (P := fun j m => (m.objs 0).heard = [] ∨ j < y.loc.next ∧ (y.loc.objs j).kind = .ssl ∧
      (m.objs 0).heard <+: (y.loc.objs j).log.written) ?_ fun j _ => joined.down j,
    fun {j} => each (P := fun j m => j < y.loc.next → (y.loc.objs j).kind = .ssl →
      (y.loc.objs j).heard <+: (m.objs 0).log.written) ?_ (fun j _ => joined.up) j⟩
  · rcases wires.heard first ssl with same | ⟨bytes, is, some, heard⟩
    · rw [same]
      exact joined.down k
    · cases is
      obtain ⟨other, carries⟩ := hears ssl
      rw [heard]
      refine .inr ⟨?_, other, carries⟩
      -- a relay that was not made has written nothing
      by_contra new
      rw [Carries, ledger.fresh k (Nat.le_of_not_lt new)] at carries
      exact some (List.append_eq_nil_iff.mp (List.prefix_nil.mp carries)).2
  · intro known other
    exact (joined.up known other).trans (wires.written first)

theorem joined_reach {C : System → SystemAction → Prop} (localSide : type ≠ .remoteServer)
    (run : Reach step C (init type) y) : Joined type y := by
  refine run.invariant ?_ fun {t a t'} _ joined _ stepped => ?_
  · refine ⟨.refl, fun _ => .refl, fun _ => .inl rfl, fun _ ssl => ?_⟩
    cases ssl
  · cases a with
    | loc a =>
      obtain ⟨hears, n, step, rfl⟩ := step_loc stepped
      exact joined.stepLoc localSide hears step
    | rem k a =>
      obtain ⟨hears, n, step, rfl⟩ := step_rem stepped
      exact joined.stepRem localSide hears step

/-! ## The messages of a connection -/

/-- The messages that came begin those that were written. -/
theorem delivered_prefix {r : Relay} (lives : r.Lives) (ssl : r.kind = .ssl) {bytes : List UInt8}
    {frames : List Frame} (heard : r.heard <+: bytes) (written : bytes <+: frameCode.encodeAll frames)
    (fits : ∀ buf ∈ frames, buf.Fits) : r.log.delivered <+: frames := by
  have reads := lives.sslReads ssl
  refine @PrefixCode.prefix_of_encodeAll _ _ frameCode _ _ reads.fits fits ?_
  refine (reads.begins.trans ?_).trans (heard.trans written)
  exact List.prefix_append _ _

theorem Joined.delivered_down (joined : Joined type y) (k : RelayId) {frames : List Frame}
    (written : k < y.loc.next → (y.loc.objs k).kind = .ssl →
      (y.loc.objs k).log.written <+: frameCode.encodeAll frames)
    (fits : ∀ buf ∈ frames, buf.Fits) : ((y.rem k).objs 0).log.delivered <+: frames := by
  obtain ⟨first, ssl⟩ := joined.rem_ssl k
  have lives := (joined.soundRem k).live 0 first
  rcases joined.down k with none | ⟨known, other, heard⟩
  · exact delivered_prefix lives ssl (none ▸ List.nil_prefix) List.nil_prefix fits
  · exact delivered_prefix lives ssl heard (written known other) fits

theorem Joined.delivered_up (localSide : type ≠ .remoteServer) (joined : Joined type y)
    {k : RelayId} (known : k < y.loc.next) (ssl : (y.loc.objs k).kind = .ssl)
    {frames : List Frame}
    (written : ((y.rem k).objs 0).log.written <+: frameCode.encodeAll frames)
    (fits : ∀ buf ∈ frames, buf.Fits) : (y.loc.objs k).log.delivered <+: frames := by
  have lives := (joined.soundLoc localSide).live k known
  exact delivered_prefix lives ssl (joined.up known ssl) written fits

end System

end SslSocks
