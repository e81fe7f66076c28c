import SslSocks.UdpDelivery

/-!
# The datagrams that a remote manager sends back

`impl_start_recv` turns each datagram that arrives at a raw_udp into a message, with the address
of the peer in front. `Repeats` is the invariant: what a raw_udp has asked, and what it is about
to ask, are the datagrams that arrived, in order and once each. `exists_answers` says that the
`DATA_UDP` of the ssl relay are such messages, those of each raw_udp in order.
-/

namespace SslSocks

open Lib

/-- A datagram that arrived at a raw_udp of the manager of a connection. -/
structure Answer where
  conn : RelayId
  relay : RelayId
  peer : Endpoint
  bytes : List UInt8
  deriving DecidableEq

/-- It arrived at this raw_udp. -/
def Answer.At (k r : RelayId) (answer : Answer) : Prop := answer.conn = k ∧ answer.relay = r

instance (k r : RelayId) : DecidablePred (Answer.At k r) := fun _ =>
  inferInstanceAs (Decidable (_ ∧ _))

/-- The message of a datagram that arrived. -/
def datagramFrame (session : UInt32) (peer : Endpoint) (bytes : List UInt8) : Frame :=
  ⟨session, .dataUdp, udpHead (some peer) ++ bytes⟩

/-- The message that it becomes at a manager. -/
def Answer.frame (n : Node) (answer : Answer) : Frame :=
  datagramFrame (n.objs answer.relay).session answer.peer answer.bytes

/-- The datagram that the step brings. -/
def NodeAction.answers (k : RelayId) : NodeAction → List Answer
  | .relay r (.arrive (.datagram peer bytes)) => [⟨k, r, peer, bytes⟩]
  | _ => []

namespace Relay

variable {r r' : Relay} {alive : Bool} {ev : RelayEvent} {outs : List RelayOut}

/-- The message of a datagram that has arrived and was not read. -/
def unread (r : Relay) : List Frame :=
  match r.arrived with
  | some (.datagram peer bytes) => [datagramFrame r.session peer bytes]
  | _ => []

/-- What a raw_udp asked, and is about to ask. -/
def repeated (r : Relay) : List Frame := r.log.emitted ++ r.unread

/-- The message that the event brings. -/
def brings (r : Relay) : RelayEvent → List Frame
  | .arrive (.datagram peer bytes) => [datagramFrame r.session peer bytes]
  | _ => []

theorem unread_eq (arrived : r'.arrived = r.arrived) (session : r'.session = r.session) :
    r'.unread = r.unread := by
  unfold unread
  rw [arrived, session]

theorem repeated_call {c : RelayCall} (udp : r.kind = .rawUdp) (proper : r.Proper (.call c)) :
    (r.call c).repeated = r.repeated := by
  have called := calls_call r c
  generalize r.call c = r' at called
  cases called with
  | begin => exact absurd (proper.1.symm.trans udp) nofun
  | emit => exact absurd (proper.1.symm.trans udp) nofun
  | _ => rfl

/-- **One handler** of a raw_udp repeats what it brings. -/
theorem Handles.repeated (handled : Handles alive r ev r' outs) (lives : r.Lives)
    (udp : r.kind = .rawUdp) : (r'.note outs).repeated = r.repeated ++ r.brings ev := by
  have raw : r.kind ≠ .rawTcp := by
    rw [udp]
    exact nofun
  have idle : r.startup = .idle := by
    have startup := lives.kindOk.startup
    rw [udp] at startup
    simpa [startups] using startup
  have silent : r.farewell alive = [] := if_neg fun both => raw both.1
  have session := handled.sameCalls.session
  -- nothing arrives, is read or is asked
  have still (none : r.brings ev = []) (asks : outs.filterMap RelayOut.asRequest = [])
      (arrived : r'.arrived = r.arrived) :
      (r'.note outs).repeated = r.repeated ++ r.brings ev := by
    unfold Relay.repeated
    rw [none, List.append_nil, show (r'.note outs).unread = r.unread from unread_eq arrived session]
    show r'.log.emitted ++ outs.filterMap RelayOut.asRequest ++ r.unread = _
    rw [asks, List.append_nil, handled.notes.1]
  have other {s : Startup} (here : r.startup = s) (ne : s ≠ .idle) : False :=
    ne (here.symm.trans idle)
  have noStream {bytes : List UInt8} (arrived : r.arrived = some (.stream bytes)) : False :=
    (lives.kindOk.stream arrived).1 udp
  have noDirect (on : r.tcp.toClient ≠ .off ∨ r.tcp.toRemote ≠ .off) : False :=
    raw (lives.kindOk.direct on).1
  by_cases send : RelayEvent.IsSend ev
  · obtain ⟨same, asksNone⟩ := handled.sameReads send
    refine still ?_ ?_ same.arrived
    · cases ev <;> first | rfl | exact absurd send id
    · rw [asksNone]
      rfl
  cases handled with
  | @arrive arrival _ _ none can =>
    cases arrival with
    | stream bytes => exact absurd udp can.1
    | datagram peer bytes =>
      show r.log.emitted ++ [] ++ [datagramFrame r.session peer bytes] = r.log.emitted ++ r.unread ++ _
      unfold unread
      rw [none]
      rfl
  | @readDatagram peer bytes arrived =>
    show r.log.emitted ++ [datagramFrame r.session peer bytes] ++ [] = r.log.emitted ++ r.unread ++ []
    unfold unread
    rw [arrived]
  | readDatagramDead => exact still rfl rfl rfl
  | readError =>
    refine still rfl ?_ (sameReads_stopHere _).arrived
    rw [silent]
    rfl
  | readRaw arrived | readRawDead arrived | readMore arrived | readMessage arrived
  | readMessageDead arrived | readOverrun arrived | readThrew arrived =>
    exact (noStream arrived).elim
  | greeting here | greetingReply here | directResolve here | directConnect here | okReply here
  | resolve here | connectSsl here | connectRaw here | handshake here | requestBad here
  | requestBlocked here | requestDead here | requestDirect here =>
    exact (other here (by decide)).elim
  | startupThrew here => exact absurd idle here
  | direct _ _ on | directFailed _ _ on => exact (noDirect on).elim
  | _ => exact absurd trivial send

end Relay

namespace Node

variable {n m : Node} {k : RelayId} {answers : List Answer}

/-- The datagrams of a raw_udp, as messages. -/
def framesAt (n : Node) (k r : RelayId) (answers : List Answer) : List Frame :=
  (answers.filter (Answer.At k r)).map (Answer.frame n)

/-- Every raw_udp repeats the datagrams that arrived at it. -/
def Repeats (k : RelayId) (answers : List Answer) (n : Node) : Prop :=
  (∀ answer ∈ answers, answer.conn = k → answer.relay < n.next ∧
    (n.objs answer.relay).kind = .rawUdp) ∧
    ∀ r, r < n.next → (n.objs r).kind = .rawUdp → (n.objs r).repeated = n.framesAt k r answers

theorem Repeats.known (repeats : Repeats k answers n) :
    ∀ answer ∈ answers, answer.conn = k → answer.relay < n.next ∧
      (n.objs answer.relay).kind = .rawUdp := repeats.1

theorem Repeats.same (repeats : Repeats k answers n) : ∀ r, r < n.next →
    (n.objs r).kind = .rawUdp → (n.objs r).repeated = n.framesAt k r answers := repeats.2

theorem framesAt_eq {r : RelayId} (session : (m.objs r).session = (n.objs r).session) :
    m.framesAt k r answers = n.framesAt k r answers := by
  unfold framesAt
  refine List.map_congr_left fun answer there => ?_
  have at' : Answer.At k r answer := of_decide_eq_true (List.mem_filter.mp there).2
  unfold Answer.frame
  rw [at'.2, session]

/-! ## The parts of a handler -/

theorem Repeats.call (repeats : Repeats k answers n) {a : RelayId} {c : RelayCall}
    (proper : (n.objs a).Proper (.call c)) : Repeats k answers (n.call a c) := by
  refine ⟨fun answer there own => ?_, fun r known udp => ?_⟩
  · rw [objs_call_kind]
    exact repeats.known answer there own
  rw [objs_call_kind] at udp
  have before := repeats.same r known udp
  by_cases same : r = a
  · subst same
    have other (s : UInt32) : c ≠ .begin s := by
      rintro rfl
      exact absurd (proper.1.symm.trans udp) nofun
    have session : ((n.call r c).objs r).session = (n.objs r).session := by
      rw [objs_call, if_pos rfl]
      exact Relay.call_session _ other
    rw [framesAt_eq session, ← before, objs_call, if_pos rfl]
    exact Relay.repeated_call udp proper
  · have left : (n.call a c).objs r = n.objs r := objs_call_of_ne c same
    rw [framesAt_eq (congrArg Relay.session left), left]
    exact before

theorem Repeats.make (repeats : Repeats k answers n) (relay : Relay)
    (quiet : relay.kind = .rawUdp → relay.repeated = []) : Repeats k answers (n.make relay) := by
  refine ⟨fun answer there own => ?_, fun r known udp => ?_⟩
  · obtain ⟨known, udp⟩ := repeats.known answer there own
    rw [objs_make_of_lt relay known]
    exact ⟨known.trans (Nat.lt_succ_self _), udp⟩
  by_cases new : r = n.next
  · rw [objs_make, if_pos new] at udp ⊢
    rw [quiet udp]
    have none : answers.filter (Answer.At k r) = [] := by
      refine List.filter_eq_nil_iff.mpr fun answer there at' => ?_
      obtain ⟨own, is⟩ : Answer.At k r answer := of_decide_eq_true at'
      have old := (repeats.known answer there own).1
      rw [is, new] at old
      exact absurd old (Nat.lt_irrefl _)
    unfold framesAt
    rw [none]
    rfl
  · have old : r < n.next := Nat.lt_of_le_of_ne (Nat.le_of_lt_succ known) new
    have left : (n.make relay).objs r = n.objs r := objs_make_of_lt relay old
    rw [left] at udp ⊢
    rw [framesAt_eq (congrArg Relay.session left)]
    exact repeats.same r old udp

theorem Repeats.requested (repeats : Repeats k answers n) {relay : Option RelayId} {buf : Frame}
    (requested : Requested relay buf n m) : Repeats k answers m := by
  cases requested with
  | sent => exact repeats.call (c := .sendData buf) trivial
  | made => exact repeats.make (n.newSslRelay.sendData buf) nofun
  | lost => exact repeats

theorem repeats_part (wf : WellFormed n) (repeats : Repeats k answers n) (part : Part n m) :
    Repeats k answers m := by
  cases part with
  | @requested _ _ strand _ _ requested =>
    exact Repeats.requested (n := { n with strand }) repeats requested
  | emit _ proper _ requested => exact (repeats.call proper).requested requested
  | own _ _ requested => exact repeats.requested requested
  | respond | stopped | repeated | drop | packet => exact repeats
  | @data a r buf strand =>
    exact Repeats.call (n := n.respond a buf strand) repeats (c := .sendData buf) trivial
  | @begin r strand queue _ =>
    obtain ⟨_, dst, accepted⟩ := wf.pending (queue ▸ List.mem_cons_self)
    refine Repeats.call (n := { n with
      strand
      session := n.session + 1
      allocated := n.allocated + 1
      relays := n.relays.insert n.session (some r)
      issued := n.issued ++ [Issue.tcp n.session r] }) repeats ?_
    show (n.objs r).kind = .rawTcp ∧ (n.objs r).Born
    rw [accepted]
    exact ⟨rfl, newAccepted_born n dst⟩
  | startRead _ proper _ => exact repeats.call proper
  | halt _ halts _ =>
    rcases halts with rfl | rfl
    · exact repeats.call (c := .stopRelay) trivial
    · exact repeats.call (c := .timeoutDown) trivial
  | makeTcp => exact repeats.make _ nofun
  | orphanUdp => exact repeats.make _ fun _ => rfl
  | @makeUdp s =>
    refine repeats.make _ fun _ => ?_
    exact Relay.repeated_call (r := n.newRawUdp s) rfl (proper_startUdp n s)
  | @datagram s r buf => exact repeats.call (c := .sendData buf) trivial
  | @reply u buf => exact repeats.call (c := .sendData buf) trivial

theorem repeats_udpPart (repeats : Repeats k answers n) (part : UdpPart n m) :
    Repeats k answers m := by
  cases part with
  | assign | sources => exact repeats
  | @addPeer u s src => exact repeats.call (c := .addPeer s src) trivial
  | @delPeer u s => exact repeats.call (c := .delPeer s) trivial
  | localUdp started =>
    refine repeats.make _ fun _ => ?_
    split
    · exact Relay.repeated_call (r := n.newRawUdp 0) rfl (proper_startUdp n 0)
    · rfl

/-! ## Steps and runs -/

/-- A datagram comes to a raw_udp. -/
theorem of_mem_answers {a : NodeAction} {answer : Answer} (there : answer ∈ a.answers k) :
    answer.conn = k ∧ a = .relay answer.relay (.arrive (.datagram answer.peer answer.bytes)) := by
  unfold NodeAction.answers at there
  split at there
  · cases List.mem_singleton.mp there
    exact ⟨rfl, rfl⟩
  · cases there

theorem answers_eq_nil {a : NodeAction} (other : ∀ r ev, a ≠ .relay r ev) : a.answers k = [] :=
  List.eq_nil_iff_forall_not_mem.mpr fun _ there => other _ _ (of_mem_answers there).2

/-- Datagrams come to the managers of other connections. -/
theorem Repeats.others (repeats : Repeats k answers n) {more : List Answer}
    (other : ∀ answer ∈ more, answer.conn ≠ k) : Repeats k (answers ++ more) n := by
  refine ⟨fun answer there own => ?_, fun r known udp => ?_⟩
  · rcases List.mem_append.mp there with old | new
    · exact repeats.known answer old own
    · exact absurd own (other answer new)
  · have none : more.filter (Answer.At k r) = [] := by
      refine List.filter_eq_nil_iff.mpr fun answer there at' => ?_
      exact other answer there (of_decide_eq_true at' : Answer.At k r answer).1
    unfold framesAt
    rw [List.filter_append, none, List.append_nil]
    exact repeats.same r known udp

/-- A handler of a raw_udp takes the datagrams in. -/
theorem Repeats.relay (repeats : Repeats k answers n) {r : RelayId} {ev : RelayEvent}
    {relay : Relay} {outs : List RelayOut} (known : r < n.next) (lives : (n.objs r).Lives)
    (stepped : (n.objs r).step n.alive ev = some (relay, outs))
    (objs : m.objs = Function.update n.objs r relay) (next : m.next = n.next) :
    Repeats k (answers ++ (NodeAction.relay r ev).answers k) m := by
  obtain ⟨h, handled, rfl⟩ := Relay.step_eq_some.mp stepped
  have handles := Relay.handles_of_handle handled
  have same := handles.sameCalls
  have parts (a : RelayId) : (m.objs a).session = (n.objs a).session ∧
      (m.objs a).kind = (n.objs a).kind := by
    rw [objs, Function.update_apply]
    split
    · rename_i is
      rw [is]
      exact ⟨same.session, same.kind⟩
    · exact ⟨rfl, rfl⟩
  constructor
  · intro answer there own
    rw [next, (parts answer.relay).2]
    rcases List.mem_append.mp there with old | new
    · exact repeats.known answer old own
    · obtain ⟨_, is⟩ := of_mem_answers new
      cases is
      refine ⟨known, ?_⟩
      cases handles with
      | arrive _ _ _ can => exact can.1
  · intro a isKnown udp
    rw [next] at isKnown
    rw [framesAt_eq (parts a).1]
    unfold framesAt
    rw [List.filter_append, List.map_append]
    by_cases is : a = r
    · subst is
      have isRelay : m.objs a = h.note outs := by rw [objs, Function.update_self]
      rw [isRelay] at udp ⊢
      have kind : (n.objs a).kind = .rawUdp := same.kind.symm.trans udp
      rw [handles.repeated lives kind, repeats.same a isKnown kind]
      congr 1
      cases ev with
      | arrive arrival =>
        cases arrival with
        | stream => rfl
        | datagram peer bytes =>
          have own : [Answer.mk k a peer bytes].filter (Answer.At k a) = [⟨k, a, peer, bytes⟩] := by
            simp [Answer.At]
          exact (congrArg (List.map (Answer.frame n)) own).symm
      | _ => rfl
    · have left : m.objs a = n.objs a := by rw [objs, Function.update_of_ne is]
      rw [left] at udp ⊢
      have none : ((NodeAction.relay r ev).answers k).filter (Answer.At k a) = [] := by
        refine List.filter_eq_nil_iff.mpr fun answer there at' => is ?_
        obtain ⟨_, own⟩ : Answer.At k a answer := of_decide_eq_true at'
        obtain ⟨_, same⟩ := of_mem_answers there
        cases same
        exact own.symm
      rw [none, List.map_nil, List.append_nil]
      exact repeats.same a isKnown udp

theorem repeats_parts (wf : WellFormed n) (repeats : Repeats k answers n) (parts : AllParts n m) :
    Repeats k answers m := by
  suffices both : WellFormed m ∧ Repeats k answers m from both.2
  induction parts with
  | refl => exact ⟨wf, repeats⟩
  | tail _ part ih =>
    obtain ⟨wf, repeats⟩ := ih
    rcases part with part | part
    · exact ⟨wellFormed_part wf part, repeats_part wf repeats part⟩
    · exact ⟨wellFormed_udpPart wf part, repeats_udpPart repeats part⟩

/-- **One step.** -/
theorem repeats_step {a : NodeAction} (wf : WellFormed n) (live : RelaysLive n)
    (repeats : Repeats k answers n) (stepped : n.step a = some m) :
    Repeats k (answers ++ a.answers k) m := by
  have quiet (kept : Repeats k answers m) (other : ∀ r ev, a ≠ .relay r ev) :
      Repeats k (answers ++ a.answers k) m := by
    rw [answers_eq_nil other, List.append_nil]
    exact kept
  cases stepIs_of_step stepped with
  | @accept dst => exact quiet (repeats.make (n.newAccepted dst) nofun) nofun
  | udpPacket | release => exact quiet repeats nofun
  | manager queue => exact quiet (repeats_parts wf repeats (allParts_runTask wf queue)) nofun
  | tick => exact quiet (repeats_parts wf repeats (allParts_tick wf)) nofun
  | relay known handled => exact repeats.relay known (live _ known) handled rfl rfl

/-! ## What goes to the ssl relay -/

/-- A remote manager hands out no session. -/
theorem issued_remote {C : Node → NodeAction → Prop} (run : Reach step C initRemote n) :
    n.issued = [] := by
  suffices both : RemoteTasks n ∧ n.issued = [] from both.2
  refine run.invariant (P := fun n => RemoteTasks n ∧ n.issued = []) ⟨remoteTasks_initRemote, rfl⟩
    fun {t a t'} _ both _ stepped => ⟨remoteTasks_step both.1 stepped, ?_⟩
  have draws : t.draws a = none := by
    cases a with
    | manager throws =>
      unfold draws
      cases head : t.strand.head? with
      | none => rfl
      | some task =>
        have there : task ∈ t.strand := List.mem_of_mem_head? head
        rcases both.1.tasks task there with ⟨_, _, rfl⟩ | ⟨_, _, rfl⟩ <;> rfl
    | _ => rfl
  rw [(counts_step stepped).issued, both.2, draws]
  rfl

/-- The messages of a raw_udp for the ssl relay are some of those that it asked. -/
theorem asked_sublist (ledger : n.Ledger) (r : RelayId) (P : Request → Prop) [DecidablePred P] :
    (((n.requests.filter P).filter fun q => q.relay = some r).map Request.buf).Sublist
      (n.objs r).log.emitted := by
  have requests : n.requestsBy r = (n.requests.filter fun q => q.relay = some r).map Request.buf := by
    unfold requestsBy
    induction n.requests with
    | nil => rfl
    | cons q requests ih => by_cases asks : q.relay = some r <;> simp [Request.askedBy, asks, ih]
  have asked : n.requestsBy r <+: (n.objs r).log.emitted := by
    rw [← ledger.asked r, List.append_assoc]
    exact List.prefix_append _ _
  refine List.Sublist.trans ?_ asked.sublist
  rw [requests]
  exact (List.filter_sublist.filter _).map _

/-- Each `DATA_UDP` of a remote manager is that of a raw_udp. -/
theorem asker_of_dataUdp {C : Node → NodeAction → Prop} (run : Reach step C initRemote n)
    {q : Request} (there : q ∈ n.requests) (isData : q.buf.cmd = .dataUdp) :
    ∃ r, q.relay = some r ∧ r < n.next ∧ (n.objs r).kind = .rawUdp := by
  have starts := Starts.remote
  cases relay : q.relay with
  | none =>
    rcases (ownAsks_reach starts run q there relay).2 with stop | ⟨_, src, issued⟩
    · cases stop.symm.trans isData
    · rw [issued_remote run] at issued
      cases issued
  | some r =>
    obtain ⟨known, emitted, asks⟩ := asks_of_request starts run there relay
    refine ⟨r, rfl, known, ?_⟩
    have type : (n.objs r).type = .remoteServer :=
      ((wellFormed_reach starts.wellFormed run).type known).trans
        (grows_reach starts.wellFormed run).type
    cases kind : (n.objs r).kind with
    | rawUdp => rfl
    | ssl =>
      rw [asks.ssl kind] at emitted
      cases emitted
    | rawTcp =>
      rcases asks.tcp kind _ emitted with data | stop | ⟨localSide, _⟩
      · cases data.symm.trans isData
      · cases stop.symm.trans isData
      · exact absurd type localSide

/-- **The answers of a remote manager.** The `DATA_UDP` asked of its ssl relay are messages of
datagrams that arrived, in order for each raw_udp and once each. -/
theorem exists_answers {C : Node → NodeAction → Prop} (run : Reach step C initRemote n)
    (repeats : Repeats k answers n) : ∃ sent : List Answer,
      sent.map (Answer.frame n) = (n.requestsTo 0).filter (fun buf => buf.cmd = .dataUdp) ∧
      (∀ answer ∈ sent, answer.conn = k) ∧
      ∀ r, (sent.filter (Answer.At k r)).Sublist (answers.filter (Answer.At k r)) := by
  have ledger := (Starts.remote.sound run).ledger
  generalize isAsked : n.requests.filter (fun q => q.ssl = some 0 ∧ q.buf.cmd = .dataUdp) = asked
  have passed : asked.map Request.buf =
      (n.requestsTo 0).filter fun buf => buf.cmd = .dataUdp := by
    rw [← isAsked]
    unfold requestsTo
    induction n.requests with
    | nil => rfl
    | cons q requests ih =>
      simp only [List.filter_cons, List.filterMap_cons, Request.sentTo]
      by_cases there : q.ssl = some 0 <;> by_cases isData : q.buf.cmd = .dataUdp <;>
        simpa [there, isData] using ih
  have asker (q : Request) (there : q ∈ asked) :
      ∃ r, q.relay = some r ∧ r < n.next ∧ (n.objs r).kind = .rawUdp := by
    rw [← isAsked] at there
    obtain ⟨member, both⟩ := List.mem_filter.mp there
    exact asker_of_dataUdp run member (of_decide_eq_true both).2
  -- the messages of each raw_udp come from its datagrams
  have fewer (relay : Option RelayId) :
      ((asked.filter fun q => q.relay = relay).map Request.buf).Sublist
        ((relay.elim [] fun r => answers.filter (Answer.At k r)).map (Answer.frame n)) := by
    cases relay with
    | none =>
      have none : asked.filter (fun q => q.relay = none) = [] := by
        refine List.filter_eq_nil_iff.mpr fun q there isNone => ?_
        obtain ⟨r, isSome, _⟩ := asker q there
        cases isSome.symm.trans (of_decide_eq_true isNone)
      rw [none]
      exact List.nil_sublist _
    | some r =>
      by_cases asks : asked.filter (fun q => q.relay = some r) = []
      · rw [asks]
        exact List.nil_sublist _
      · obtain ⟨q, there⟩ := List.exists_mem_of_ne_nil _ asks
        obtain ⟨member, isRelay⟩ := List.mem_filter.mp there
        obtain ⟨r', is, known, udp⟩ := asker q member
        cases (of_decide_eq_true isRelay).symm.trans is
        have sublist := asked_sublist ledger r fun q => q.ssl = some 0 ∧ q.buf.cmd = .dataUdp
        rw [isAsked] at sublist
        refine sublist.trans ?_
        show (n.objs r).log.emitted.Sublist (n.framesAt k r answers)
        rw [← repeats.same r known udp]
        exact List.sublist_append_left _ _
  obtain ⟨pairs, isFst, same, each⟩ := exists_keyed Request.relay fewer
  have member {pair : Request × Answer} (there : pair ∈ pairs) {r : RelayId}
      (relay : pair.1.relay = some r) : pair.2 ∈ answers.filter (Answer.At k r) := by
    refine (each (some r)).subset (List.mem_map_of_mem (List.mem_filter.mpr ⟨there, ?_⟩))
    exact decide_eq_true relay
  have own {pair : Request × Answer} (there : pair ∈ pairs) :
      pair.2.conn = k ∧ pair.1.relay = some pair.2.relay := by
    obtain ⟨r, relay, _⟩ := asker pair.1 (isFst ▸ List.mem_map_of_mem there)
    obtain ⟨isConn, isRelay⟩ : Answer.At k r pair.2 :=
      of_decide_eq_true (List.mem_filter.mp (member there relay)).2
    exact ⟨isConn, isRelay ▸ relay⟩
  refine ⟨pairs.map Prod.snd, ?_, fun answer there => ?_, fun r => ?_⟩
  · rw [← passed, ← isFst, List.map_map, List.map_map]
    exact List.map_congr_left fun pair there => (same pair there).symm
  · obtain ⟨pair, isPair, rfl⟩ := List.mem_map.mp there
    exact (own isPair).1
  · refine List.Sublist.trans ?_ (each (some r))
    have same : pairs.filter (fun pair => Answer.At k r pair.2) =
        pairs.filter fun pair => pair.1.relay = some r := by
      refine List.filter_congr fun pair there => ?_
      obtain ⟨isConn, relay⟩ := own there
      simp [Answer.At, isConn, relay]
    rw [List.filter_map, ← same]
    exact List.Sublist.refl _

end Node

end SslSocks
