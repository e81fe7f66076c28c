import SslSocks.UdpWindows

/-!
# Where messages come from and where they go

A message carries the session of the relay that it is about. `Routed` says of the messages
given to a raw relay that `add_response` handled them and that they are of its session,
`Made` that a message of its session made each relay of the remote side. On the local side
`Traced` says that only a connection with an id of its own asks for anything, and `OwnAsks`
what the manager asks for itself.
-/

namespace SslSocks

open Lib

namespace Relay

variable {r r' : Relay} {alive : Bool} {ev : RelayEvent} {outs : List RelayOut}

/-! ## A relay that was never started -/

/-- No start-up and no loop of the relay runs, and it has asked for nothing. -/
structure Mute (r : Relay) : Prop where
  startup : r.startup = .idle
  reading : r.reading = false
  toClient : r.tcp.toClient = .off
  toRemote : r.tcp.toRemote = .off
  emitted : r.log.emitted = []

theorem Handles.mute (handled : Handles alive r ev r' outs) (mute : Mute r) :
    Mute r' ∧ outs = [] := by
  obtain ⟨startup, reading, toClient, toRemote, emitted⟩ := mute
  by_cases send : RelayEvent.IsSend ev
  · obtain ⟨same, none⟩ := handled.sameReads send
    refine ⟨⟨same.startup.trans startup, same.reading.trans reading, ?_, ?_,
      same.emitted.trans emitted⟩, none⟩
    · rw [same.tcp, toClient]
    · rw [same.tcp, toRemote]
  have reads (is : r.reading = true) : False := by
    rw [reading] at is
    cases is
  have starts {step : Startup} (is : r.startup = step) (other : step ≠ .idle) : False :=
    other (is.symm.trans startup)
  have loops (on : r.tcp.toClient ≠ .off ∨ r.tcp.toRemote ≠ .off) : False :=
    on.elim (fun on => on toClient) fun on => on toRemote
  cases handled with
  | arrive => exact ⟨⟨startup, reading, toClient, toRemote, emitted⟩, rfl⟩
  | readRaw _ is | readRawDead _ is | readMore _ is | readMessage _ is | readMessageDead _ is
  | readThrew _ is | readOverrun _ is | readDatagram _ is | readDatagramDead _ is
  | readError is => exact (reads is).elim
  | greeting is | greetingReply is | directResolve is | directConnect is | okReply is
  | resolve is | connectSsl is | connectRaw is | handshake is | requestBad is
  | requestBlocked is | requestDead is | requestDirect is =>
    refine (starts is ?_).elim
    intro same
    cases same
  | startupThrew is => exact absurd startup is
  | direct _ _ on | directFailed _ _ on => exact (loops on).elim
  | _ => exact absurd trivial send

/-- A call that starts nothing. -/
theorem Mute.call (mute : Mute r) {c : RelayCall}
    (other : (∃ buf, c = .sendData buf) ∨ c = .stopRelay ∨ c = .timeoutDown) :
    Mute (r.call c) := by
  obtain ⟨startup, reading, toClient, toRemote, emitted⟩ := mute
  have called := calls_call r c
  generalize r.call c = r' at called
  rcases other with ⟨buf, rfl⟩ | rfl | rfl
  all_goals
    cases called
    all_goals exact ⟨startup, reading, toClient, toRemote, emitted⟩

theorem Mute.opened (mute : Mute r) : ¬ r.Opened := fun opened => by
  obtain ⟨_, payload, log⟩ := opened
  have asked := mute.emitted
  rw [log] at asked
  cases asked

end Relay

namespace Node

variable {n m : Node}

/-! ## What a raw relay is given -/

/-- A raw relay that is given messages of its own session only: any of the remote side, and
a raw_tcp. -/
def OfSession (n : Node) (r : RelayId) : Prop :=
  (n.objs r).kind = .rawTcp ∨ (n.objs r).kind = .rawUdp ∧ n.type = .remoteServer

/-- The messages given to such a relay were handled by `add_response`, for its session. -/
def Routed (n : Node) : Prop :=
  ∀ r, r < n.next → n.OfSession r → ∀ buf ∈ n.givenTo r,
    buf.session = (n.objs r).session ∧ (∃ k, (k, buf) ∈ n.answered) ∧
      (buf.cmd = .dataTcp ∨ buf.cmd = .dataUdp)

theorem OfSession.raw {r : RelayId} (own : n.OfSession r) : (n.objs r).kind ≠ .ssl := by
  rcases own with tcp | ⟨udp, _⟩
  · rw [tcp]
    exact nofun
  · rw [udp]
    exact nofun

/-- The relay gets nothing, and neither its session nor what was handled is lost. -/
theorem Routed.keep (routed : Routed n) (ledger : n.Ledger) (wf : WellFormed n)
    (grows : Grows n m) {r : RelayId}
    (kind : r < n.next → (m.objs r).kind = (n.objs r).kind)
    (session : r < n.next → .addLocalRawTcp r ∉ n.strand →
      (m.objs r).session = (n.objs r).session)
    (own : m.OfSession r) {buf : Frame} (given : buf ∈ n.givenTo r) :
    buf.session = (m.objs r).session ∧ (∃ k, (k, buf) ∈ m.answered) ∧
      (buf.cmd = .dataTcp ∨ buf.cmd = .dataUdp) := by
  have known : r < n.next := by
    by_contra new
    rw [givenTo, ledger.fresh r (Nat.le_of_not_lt new)] at given
    cases given
  have before : n.OfSession r := by
    unfold OfSession at own ⊢
    rw [kind known, grows.type] at own
    exact own
  have waits : .addLocalRawTcp r ∉ n.strand := by
    intro waits
    obtain ⟨_, dst, new⟩ := wf.pending waits
    rw [givenTo, new] at given
    cases given
  obtain ⟨same, ⟨k, there⟩, cmd⟩ := routed r known before buf given
  exact ⟨same.trans (session known waits).symm, ⟨k, grows.answered.subset there⟩, cmd⟩

theorem routed_part (wf : WellFormed n) (ledger : n.Ledger) (routed : Routed n)
    (part : Part n m) : Routed m := by
  intro r _ own buf given
  have grows := grows_part part
  have kind (known : r < n.next) := kind_part part known
  have session (known : r < n.next) (waits : .addLocalRawTcp r ∉ n.strand) :=
    leftByCalls_session.part part known (.inl waits)
  have kept (old : buf ∈ n.givenTo r) := routed.keep ledger wf grows kind session own old
  cases gives_part wf ledger part own.raw with
  | nothing same => exact kept (same ▸ given)
  | @data k buf' noted isTcp there _ more =>
    rw [more] at given
    rcases List.mem_append.mp given with old | new
    · exact kept old
    · obtain ⟨⟨known, waits⟩, _, same⟩ := wf.relays there
      rw [List.mem_singleton.mp new, session known waits, same]
      refine ⟨rfl, ⟨k, ?_⟩, .inl isTcp⟩
      rw [noted]
      exact List.mem_append_right _ List.mem_cons_self
  | @datagram buf' callable side answering isUdp same more =>
    rw [more] at given
    rcases List.mem_append.mp given with old | new
    · exact kept old
    · obtain ⟨k, last⟩ := answering
      rw [List.mem_singleton.mp new, session callable.1 callable.2]
      refine ⟨?_, ⟨k, grows.answered.subset (List.mem_of_getLast? last)⟩, .inr isUdp⟩
      rcases side with ⟨_, session⟩ | ⟨transparent, udp⟩
      · exact session
      · rcases own with tcp | ⟨_, remote⟩
        · cases tcp.symm.trans ((kind callable.1).trans udp)
        · cases remote.symm.trans (grows.type.trans transparent)

theorem routed_reach {C : Node → NodeAction → Prop} {n₀ : Node} (starts : Starts n₀)
    (run : Reach step C n₀ n) : Routed n := by
  suffices both : n.Ledger ∧ Routed n from both.2
  refine parts_rule (P := fun n => n.Ledger ∧ Routed n) starts.wellFormed run
    ⟨starts.ledger, ?_⟩ (fun wf both part => ?_) (fun wf both part => ?_)
    fun wf both _ outside => ?_
  · intro r _ _ buf given
    cases starts <;> cases given
  · exact ⟨ledger_part wf both.1 part, routed_part wf both.1 both.2 part⟩
  · refine ⟨ledger_udpPart wf both.1 part, fun r _ own buf given => ?_⟩
    rw [givenTo_udpPart both.1 part] at given
    exact both.2.keep both.1 wf (grows_udpPart part) (kind_udpPart part)
      (fun known _ => leftByCalls_session.udpPart part known) own given
  · refine ⟨ledger_outside both.1 outside, fun r _ own buf given => ?_⟩
    rw [givenTo_outside both.1 outside] at given
    exact both.2.keep both.1 wf (grows_outside outside) (kind_outside outside)
      (fun known _ => session_outside outside known) own given

/-! ## Who made the relays of the remote side -/

/-- `add_response` has handled such a message. -/
def Brought (n : Node) (cmd : Command) (session : UInt32) : Prop :=
  ∃ entry ∈ n.answered, entry.2.cmd = cmd ∧ entry.2.session = session

/-- The message that makes a relay of the remote side. -/
def maker : RelayKind → Option Command
  | .rawTcp => some .startTcp
  | .rawUdp => some .dataUdp
  | .ssl => none

/-- On the remote side a message of its session made each raw relay, and no connection
is accepted. -/
structure Made (n : Node) : Prop where
  remote : n.type = .remoteServer
  waits : ∀ r, .addLocalRawTcp r ∉ n.strand
  udpSend : n.udpSend = none
  relays : ∀ {r cmd}, r < n.next → maker (n.objs r).kind = some cmd →
    n.Brought cmd (n.objs r).session

theorem Brought.grows {cmd : Command} {session : UInt32} (brought : n.Brought cmd session)
    (grows : Grows n m) : m.Brought cmd session := by
  obtain ⟨entry, there, same⟩ := brought
  exact ⟨entry, grows.answered.subset there, same⟩

theorem Answering.brought {buf : Frame} (answering : n.Answering buf) :
    n.Brought buf.cmd buf.session := by
  obtain ⟨k, last⟩ := answering
  exact ⟨(k, buf), List.mem_of_getLast? last, rfl, rfl⟩

/-- The relays made before. -/
theorem Made.keep (made : Made n) (grows : Grows n m) {r : RelayId} {cmd : Command}
    (known : r < n.next) (kind : (m.objs r).kind = (n.objs r).kind)
    (session : (m.objs r).session = (n.objs r).session)
    (makes : maker (m.objs r).kind = some cmd) : m.Brought cmd (m.objs r).session := by
  rw [kind] at makes
  rw [session]
  exact (made.relays known makes).grows grows

theorem Made.new (made : Made n) (part : Part n m) {r : RelayId} {cmd : Command}
    (new : n.next ≤ r) (known : r < m.next) (makes : maker (m.objs r).kind = some cmd) :
    m.Brought cmd (m.objs r).session := by
  have old (same : m.next = n.next) : m.Brought cmd (m.objs r).session :=
    absurd (same ▸ known) (Nat.not_lt.mpr new)
  have requested {k : Node} {relay : Option RelayId} {buf : Frame}
      (requested : Requested relay buf k m) (next : k.next = n.next)
      (type : k.type = n.type) : m.Brought cmd (m.objs r).session := by
    cases requested with
    | sent _ _ | lost _ => exact old next
    | made _ localSide => exact absurd (type.trans made.remote) localSide
  have last {relay : Relay} (is : r < n.next + 1) : (n.make relay).objs r = relay := by
    rw [objs_make, if_pos (Nat.le_antisymm (Nat.le_of_lt_succ is) new)]
  cases part with
  | requested _ asked | emit _ _ _ asked => exact requested asked rfl rfl
  | own _ _ asked => exact requested asked rfl rfl
  | @makeTcp s target buf answering start session =>
    rw [last known] at makes ⊢
    cases makes
    exact start ▸ session ▸ Answering.brought answering
  | @orphanUdp s buf answering isData session =>
    rw [last known] at makes ⊢
    cases makes
    exact isData ▸ session ▸ Answering.brought answering
  | @makeUdp s buf answering isData session =>
    replace makes : maker ((n.make (n.newRawUdp s).startUdp).objs r).kind = some cmd := makes
    show (n.make (n.newRawUdp s).startUdp).Brought cmd
      ((n.make (n.newRawUdp s).startUdp).objs r).session
    rw [last known] at makes ⊢
    rw [show (n.newRawUdp s).startUdp.kind = .rawUdp from Relay.call_kind _ .startUdp] at makes
    rw [show (n.newRawUdp s).startUdp.session = s from
      Relay.call_session (n.newRawUdp s) (c := .startUdp) nofun]
    cases makes
    exact isData ▸ session ▸ Answering.brought answering
  | _ => exact old rfl

theorem made_part (made : Made n) (part : Part n m) : Made m where
  remote := (grows_part part).type.trans made.remote
  waits r waits := made.waits r ((strand_part part).subset waits)
  udpSend := by
    cases part with
    | requested _ asked | emit _ _ _ asked => cases asked <;> exact made.udpSend
    | own _ _ asked => cases asked <;> exact made.udpSend
    | _ => exact made.udpSend
  relays {r cmd} known makes := by
    rcases Nat.lt_or_ge r n.next with old | new
    · exact made.keep (grows_part part) old (kind_part part old)
        (leftByCalls_session.part part old (.inl (made.waits r))) makes
    · exact made.new part new known makes

theorem made_udpPart (made : Made n) (part : UdpPart n m) : Made m := by
  have strand (r : RelayId) (waits : .addLocalRawTcp r ∈ m.strand) : False :=
    made.waits r ((strand_udpPart part).subset waits)
  cases part with
  | localUdp _ current => exact absurd made.udpSend current
  | assign | sources => exact ⟨made.remote, made.waits, made.udpSend, made.relays⟩
  | @addPeer u _ _ current _ | @delPeer u _ current =>
    cases made.udpSend.symm.trans current

theorem made_outside {a : NodeAction} (made : Made n) (outside : Outside n a m) : Made m where
  remote := (grows_outside outside).type.trans made.remote
  waits r waits := by
    cases outside with
    | accept localSide | udpPacket localSide => exact localSide made.remote
    | release => exact made.waits r waits
    | relay =>
      rcases List.mem_append.mp waits with old | new
      · exact made.waits r old
      · obtain ⟨out, _, is⟩ := List.mem_filterMap.mp new
        cases out <;> cases is
  udpSend := by cases outside <;> exact made.udpSend
  relays {r cmd} known makes := by
    have old : r < n.next := by
      cases outside with
      | accept localSide => exact absurd made.remote localSide
      | _ => exact known
    exact made.keep (grows_outside outside) old (kind_outside outside old)
      (session_outside outside old) makes

/-- **The relays of the remote side** in every run. -/
theorem made_reach {C : Node → NodeAction → Prop} (run : Reach step C initRemote n) : Made n := by
  refine parts_rule Starts.remote.wellFormed run ?_ (fun _ made => made_part made)
    (fun _ made => made_udpPart made) fun _ made _ => made_outside made
  refine ⟨rfl, fun _ => List.not_mem_nil, rfl, fun {r cmd} _ makes => ?_⟩
  cases makes

/-! ## Who asks on the local side -/

/-- A connection came the other way. -/
def Welcomed (n : Node) : Prop := ∃ session, n.Brought .startTcp session

/-- A raw_tcp that asks for something got its session from the counter, unless a
`START_TCP` came and made it. -/
structure Traced (n : Node) : Prop where
  listed : ∀ {s r}, n.relays.lookup s = some (some r) → (n.objs r).kind = .rawTcp →
    Issue.tcp s r ∈ n.issued ∨ n.Welcomed
  relays : ∀ {r}, r < n.next → (n.objs r).kind = .rawTcp →
    Issue.tcp (n.objs r).session r ∈ n.issued ∨ (n.objs r).Mute ∨ n.Welcomed

theorem Welcomed.grows (welcomed : n.Welcomed) (grows : Grows n m) : m.Welcomed := by
  obtain ⟨session, brought⟩ := welcomed
  exact ⟨session, brought.grows grows⟩

theorem Traced.keep (wf : WellFormed n) (traced : Traced n) (grows : Grows n m)
    (kind : ∀ {r}, r < n.next → (m.objs r).kind = (n.objs r).kind)
    (session : ∀ {r}, r < n.next → .addLocalRawTcp r ∉ n.strand →
      (m.objs r).session = (n.objs r).session)
    (listed : ∀ {s r}, m.relays.lookup s = some (some r) → (m.objs r).kind = .rawTcp →
      n.relays.lookup s = some (some r) ∨ Issue.tcp s r ∈ m.issued ∨ m.Welcomed)
    (mute : ∀ {r}, r < n.next → (n.objs r).Mute →
      Issue.tcp (m.objs r).session r ∈ m.issued ∨ (m.objs r).Mute ∨ m.Welcomed)
    (new : ∀ {r}, n.next ≤ r → r < m.next → (m.objs r).kind = .rawTcp →
      (m.objs r).Mute ∨ m.Welcomed) : Traced m where
  listed {s r} there tcp := by
    rcases listed there tcp with old | done
    · rw [kind (wf.relays old).1.1] at tcp
      exact (traced.listed old tcp).imp (fun issued => grows.issued.subset issued) fun welcomed =>
        welcomed.grows grows
    · exact done
  relays {r} known tcp := by
    rcases Nat.lt_or_ge r n.next with old | later
    · by_cases waits : .addLocalRawTcp r ∈ n.strand
      · -- it waits for its session as it was made
        obtain ⟨_, dst, accepted⟩ := wf.pending waits
        apply mute old
        rw [accepted]
        exact ⟨rfl, rfl, rfl, rfl, rfl⟩
      · rw [kind old] at tcp
        rcases traced.relays old tcp with issued | silent | welcomed
        · rw [session old waits]
          exact .inl (grows.issued.subset issued)
        · exact mute old silent
        · exact .inr (.inr (welcomed.grows grows))
    · exact .inr (new later known tcp)

theorem mute_call {a r : RelayId} {c : RelayCall} (mute : (n.objs r).Mute)
    (other : r ≠ a ∨ (∃ buf, c = .sendData buf) ∨ c = .stopRelay ∨ c = .timeoutDown) :
    ((n.call a c).objs r).Mute := by
  rw [objs_call]
  split
  · rename_i same
    exact (same ▸ mute).call (other.resolve_left fun ne => ne same)
  · exact mute

theorem Requested.mute {relay : Option RelayId} {buf : Frame} {r : RelayId}
    (requested : Requested relay buf n m) (known : r < n.next) (mute : (n.objs r).Mute) :
    (m.objs r).Mute := by
  cases requested with
  | sent _ _ => exact mute_call mute (.inr (.inl ⟨buf, rfl⟩))
  | made _ _ =>
    show ((n.make _).objs r).Mute
    rw [objs_make_of_lt _ known]
    exact mute
  | lost _ => exact mute

/-- A request makes no raw_tcp. -/
theorem Requested.new {relay : Option RelayId} {buf : Frame} {r : RelayId}
    (requested : Requested relay buf n m) (new : n.next ≤ r) (known : r < m.next) :
    (m.objs r).kind ≠ .rawTcp := by
  cases requested with
  | sent _ _ | lost _ => exact absurd known (Nat.not_lt.mpr new)
  | made _ _ =>
    show ((n.make _).objs r).kind ≠ .rawTcp
    rw [objs_make, if_pos (Nat.le_antisymm (Nat.le_of_lt_succ known) new)]
    exact nofun

theorem traced_part (wf : WellFormed n) (traced : Traced n) (part : Part n m) : Traced m := by
  have grows := grows_part part
  have session {r : RelayId} (known : r < n.next) (waits : .addLocalRawTcp r ∉ n.strand) :=
    leftByCalls_session.part part known (.inl waits)
  have made {relay : Relay} {r : RelayId} (new : n.next ≤ r) (known : r < n.next + 1) :
      (n.make relay).objs r = relay := by
    rw [objs_make, if_pos (Nat.le_antisymm (Nat.le_of_lt_succ known) new)]
  have none {r : RelayId} {P : Prop} (new : n.next ≤ r) (known : r < n.next) : P :=
    absurd known (Nat.not_lt.mpr new)
  have keep := @Traced.keep n m wf traced grows (kind_part part) session
  clear session
  cases part with
  | @requested _ _ strand _ queue asked =>
    refine keep (fun there _ => .inl ?_) (fun known mute => ?_) fun new known tcp => ?_
    · rw [asked.relays] at there
      exact there
    · exact .inr (.inl (asked.mute known mute))
    · exact absurd tcp (asked.new new known)
  | own _ _ asked =>
    refine keep (fun there _ => .inl ?_) (fun known mute => ?_) fun new known tcp => ?_
    · rw [asked.relays] at there
      exact there
    · exact .inr (.inl (asked.mute known mute))
    · exact absurd tcp (asked.new new known)
  | @emit a buf _ listed proper _ asked =>
    refine keep (fun there _ => .inl ?_) (fun {r} known mute => ?_) fun new known tcp => ?_
    · rw [asked.relays] at there
      exact there
    · by_cases same : r = a
      · -- a relay that asks in the strand is in `_relays`
        subst same
        obtain ⟨s, there⟩ := listed
        obtain ⟨⟨_, waits⟩, _, isSession⟩ := wf.relays there
        have kept : (m.objs r).session = s := by
          have part : Part n m := .emit ⟨s, there⟩ proper ‹_› asked
          exact (leftByCalls_session.part part known (.inl waits)).trans isSession
        rw [kept]
        exact (traced.listed there proper.1).imp (fun issued => grows.issued.subset issued)
          fun welcomed => .inr (welcomed.grows grows)
      · exact .inr (.inl (asked.mute known (mute_call mute (.inl same))))
    · exact absurd tcp (asked.new new known)
  | respond | packet =>
    exact keep (fun there _ => .inl there) (fun _ mute => .inr (.inl mute)) fun new known _ =>
      none new known
  | @stopped _ _ buf _ _ _ _ _ =>
    exact keep (fun there _ => .inl (Map.of_lookup_erase there).2)
      (fun _ mute => .inr (.inl mute)) fun new known _ => none new known
  | repeated =>
    exact keep (fun there _ => .inl there) (fun _ mute => .inr (.inl mute)) fun new known _ =>
      none new known
  | drop fewer =>
    exact keep (fun there _ => .inl (fewer there)) (fun _ mute => .inr (.inl mute))
      fun new known _ => none new known
  | data | datagram | reply =>
    refine keep (fun there _ => .inl there) (fun _ mute => .inr (.inl ?_))
      fun new known _ => none new known
    apply mute_call mute
    exact .inr (.inl ⟨_, rfl⟩)
  | halt _ halts _ =>
    refine keep (fun there _ => .inl there) (fun _ mute => .inr (.inl ?_))
      fun new known _ => none new known
    apply mute_call mute
    exact .inr (.inr halts)
  | @begin a strand queue free =>
    have issued : Issue.tcp n.session a ∈ n.issued ++ [Issue.tcp n.session a] :=
      List.mem_append_right _ List.mem_cons_self
    refine keep (fun {s r} there _ => ?_) (fun {r} known mute => ?_) fun new known _ => ?_
    · replace there : (n.relays.insert n.session (some a)).lookup s = some (some r) := there
      rw [Map.lookup_insert] at there
      split at there
      · rename_i same
        cases there
        exact .inr (.inl (same ▸ issued))
      · exact .inl there
    · by_cases same : r = a
      · subst same
        refine .inl ?_
        rw [objs_call, if_pos rfl]
        exact issued
      · exact .inr (.inl (mute_call mute (.inl same)))
    · exact none new known
  | @startRead a callable proper _ =>
    refine keep (fun there _ => .inl there) (fun {r} known mute => .inr (.inl ?_))
      fun new known _ => none new known
    apply mute_call mute
    refine .inl fun same => ?_
    exact (same ▸ mute).opened proper.2.2
  | @makeTcp s target buf answering start isSession =>
    have welcomed : n.Welcomed := ⟨buf.session, start ▸ answering.brought⟩
    refine keep (fun _ _ => .inr (.inr (welcomed.grows grows))) (fun {r} known mute => ?_)
      fun _ _ _ => .inr (welcomed.grows grows)
    exact .inr (.inr (welcomed.grows grows))
  | orphanUdp =>
    refine keep (fun there _ => .inl there) (fun {r} known mute => .inr (.inl ?_))
      fun {r} new known tcp => ?_
    · rw [objs_make_of_lt _ known]
      exact mute
    · rw [made new known] at tcp
      cases tcp
  | @makeUdp s buf _ _ _ =>
    have udp : (n.newRawUdp s).startUdp.kind = .rawUdp := Relay.call_kind _ .startUdp
    refine keep (fun {s' r} there tcp => ?_) (fun {r} known mute => .inr (.inl ?_))
      fun {r} new known tcp => ?_
    · replace there : (n.relays.insert s (some n.next)).lookup s' = some (some r) := there
      rw [Map.lookup_insert] at there
      split at there
      · cases there
        replace tcp : ((n.make (n.newRawUdp s).startUdp).objs n.next).kind = .rawTcp := tcp
        rw [objs_make, if_pos rfl, udp] at tcp
        cases tcp
      · exact .inl there
    · show ((n.make _).objs r).Mute
      rw [objs_make_of_lt _ known]
      exact mute
    · replace tcp : ((n.make (n.newRawUdp s).startUdp).objs r).kind = .rawTcp := tcp
      rw [made new known, udp] at tcp
      cases tcp

theorem traced_udpPart (wf : WellFormed n) (traced : Traced n) (part : UdpPart n m) :
    Traced m := by
  refine traced.keep wf (grows_udpPart part) (kind_udpPart part)
    (fun known _ => leftByCalls_session.udpPart part known) (fun {s r} there _ => .inl ?_)
    (fun {r} known mute => .inr (.inl ?_)) fun {r} new known tcp => ?_
  · cases part <;> exact there
  · cases part with
    | assign | sources => exact mute
    | addPeer | delPeer =>
      rw [objs_call]
      split
      · rename_i same
        obtain ⟨startup, reading, toClient, toRemote, emitted⟩ := same ▸ mute
        exact ⟨startup, reading, toClient, toRemote, emitted⟩
      · exact mute
    | localUdp =>
      show ((n.make _).objs r).Mute
      rw [objs_make_of_lt _ known]
      exact mute
  · cases part with
    | localUdp started =>
      replace tcp : ((n.make _).objs r).kind = .rawTcp := tcp
      rw [objs_make, if_pos (Nat.le_antisymm (Nat.le_of_lt_succ known) new)] at tcp
      have udp : (if started then (n.newRawUdp 0).startUdp else n.newRawUdp 0).kind = .rawUdp := by
        split
        · exact Relay.call_kind _ .startUdp
        · rfl
      cases udp.symm.trans tcp
    | _ => exact absurd known (Nat.not_lt.mpr new)

theorem traced_outside {a : NodeAction} (wf : WellFormed n) (traced : Traced n)
    (outside : Outside n a m) : Traced m := by
  refine traced.keep wf (grows_outside outside) (kind_outside outside)
    (fun known _ => session_outside outside known) (fun {s r} there _ => .inl ?_)
    (fun {r} known mute => .inr (.inl ?_)) fun {r} new known _ => .inl ?_
  · cases outside <;> exact there
  · cases outside with
    | accept =>
      show ((n.make _).objs r).Mute
      rw [objs_make_of_lt _ known]
      exact mute
    | udpPacket | release => exact mute
    | @relay b ev relay outs _ stepped =>
      show (Function.update n.objs b relay r).Mute
      rw [Function.update_apply]
      split
      · rename_i same
        obtain ⟨h, handled, rfl⟩ := Relay.step_eq_some.mp stepped
        obtain ⟨⟨startup, reading, toClient, toRemote, emitted⟩, rfl⟩ :=
          (Relay.handles_of_handle handled).mute (same ▸ mute)
        exact ⟨startup, reading, toClient, toRemote, (List.append_nil _).trans emitted⟩
      · exact mute
  · cases outside with
    | @accept dst _ =>
      show ((n.make _).objs r).Mute
      rw [objs_make, if_pos (Nat.le_antisymm (Nat.le_of_lt_succ known) new)]
      exact ⟨rfl, rfl, rfl, rfl, rfl⟩
    | _ => exact absurd known (Nat.not_lt.mpr new)

/-- **Who asks on the local side** in every run. -/
theorem traced_reach {C : Node → NodeAction → Prop} {type : ServerType}
    (localSide : type ≠ .remoteServer) (run : Reach step C (initLocal type) n) : Traced n := by
  refine parts_rule (Starts.localSide localSide).wellFormed run ?_
    (fun wf traced => traced_part wf traced) (fun wf traced => traced_udpPart wf traced)
    fun wf traced _ => traced_outside wf traced
  refine ⟨fun there _ => ?_, fun _ tcp => ?_⟩
  · cases there
  · cases tcp

/-! ## What the manager asks for itself -/

/-- The manager asks to stop a session, or passes on the packet of a source. -/
def OwnAsks (n : Node) : Prop :=
  ∀ q ∈ n.requests, q.relay = none → q.buf.Fits ∧
    (q.buf.cmd = .stopTcp ∨ q.buf.cmd = .dataUdp ∧ ∃ src, Issue.udp q.buf.session src ∈ n.issued)

theorem ownAsks_part (own : OwnAsks n) (part : Part n m) : OwnAsks m := by
  intro q there none
  have grows := grows_part part
  have kept (old : q ∈ n.requests) : q.buf.Fits ∧ (q.buf.cmd = .stopTcp ∨
      q.buf.cmd = .dataUdp ∧ ∃ src, Issue.udp q.buf.session src ∈ m.issued) := by
    obtain ⟨fits, what⟩ := own q old none
    refine ⟨fits, what.imp id fun ⟨isData, src, issued⟩ => ?_⟩
    exact ⟨isData, src, grows.issued.subset issued⟩
  have asked {relay : Option RelayId} {buf : Frame} {k : Node} (requested : Requested relay buf k m)
      (same : k.requests = n.requests) : q ∈ n.requests ∨ q.relay = relay ∧ q.buf = buf := by
    obtain ⟨ssl, more⟩ := requested.requests
    rw [more, same] at there
    refine (List.mem_append.mp there).imp id fun new => ?_
    rw [List.mem_singleton.mp new]
    exact ⟨rfl, rfl⟩
  cases part with
  | requested _ requested | emit _ _ _ requested =>
    rcases asked requested rfl with old | ⟨relay, _⟩
    · exact kept old
    · cases none.symm.trans relay
  | own what fits requested =>
    rcases asked requested rfl with old | ⟨_, buf⟩
    · exact kept old
    · rw [buf]
      refine ⟨fits, what.imp id fun ⟨isData, src, issued⟩ => ?_⟩
      exact ⟨isData, src, grows.issued.subset issued⟩
  | _ => exact kept there

theorem ownAsks_reach {C : Node → NodeAction → Prop} {n₀ : Node} (starts : Starts n₀)
    (run : Reach step C n₀ n) : OwnAsks n := by
  have kept {k m : Node} (own : OwnAsks k) (grows : Grows k m) (same : m.requests = k.requests) :
      OwnAsks m := by
    intro q there none
    obtain ⟨fits, what⟩ := own q (same ▸ there) none
    refine ⟨fits, what.imp id fun ⟨isData, src, issued⟩ => ?_⟩
    exact ⟨isData, src, grows.issued.subset issued⟩
  refine parts_rule starts.wellFormed run ?_ (fun _ own => ownAsks_part own)
    (fun _ own part => kept own (grows_udpPart part) ?_)
    fun _ own _ outside => kept own (grows_outside outside) ?_
  · intro q there
    cases starts <;> cases there
  · cases part <;> rfl
  · cases outside <;> rfl

end Node

end SslSocks
