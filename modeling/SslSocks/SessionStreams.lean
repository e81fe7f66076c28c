import SslSocks.ManagerStop
import SslSocks.NodeRoutes
import SslSocks.RemoteKinds
import SslSocks.SessionOwners

/-!
# What the connection of a session is given

`add_response` gives a `DATA_TCP` to the relay that `_relays` has for its session, and when
that is stopped it forgets the session. So the relay of a session was given the first of the
`DATA_TCP` that were handled for it, and all of them while it is in `_relays` (`Fed`), as long
as none came before it got the session. On the remote side this is so when `START_TCP` is the
first message of the session, on the local side when the other end answers to sessions that
were handed out.
-/

namespace SslSocks

open Lib

/-- The data of a session. -/
def dataOf (s : UInt32) (frames : List Frame) : List Frame :=
  frames.filter fun buf => buf.cmd = .dataTcp ∧ buf.session = s

/-- Nothing for the connection of the session comes before its `START_TCP`. -/
def OpensFirst (s : UInt32) (frames : List Frame) : Prop :=
  ∀ before start after, frames = before ++ start :: after → start.cmd = .startTcp →
    start.session = s → ∀ buf ∈ before, buf.session = s → ¬ buf.For .rawTcp

theorem dataOf_append (s : UInt32) (xs ys : List Frame) :
    dataOf s (xs ++ ys) = dataOf s xs ++ dataOf s ys := List.filter_append ..

theorem dataOf_mono {s : UInt32} {xs ys : List Frame} (begins : xs <+: ys) :
    dataOf s xs <+: dataOf s ys := begins.filter _

theorem mem_dataOf {s : UInt32} {frames : List Frame} {buf : Frame} :
    buf ∈ dataOf s frames ↔ buf ∈ frames ∧ buf.cmd = .dataTcp ∧ buf.session = s := by
  unfold dataOf
  rw [List.mem_filter, decide_eq_true_iff]

theorem dataOf_eq_nil {s : UInt32} {frames : List Frame}
    (nothing : ∀ buf ∈ frames, buf.session = s → buf.cmd ≠ .dataTcp) : dataOf s frames = [] := by
  apply List.filter_eq_nil_iff.mpr
  intro buf there is
  obtain ⟨isData, session⟩ := of_decide_eq_true is
  exact nothing buf there session isData

theorem dataOf_snoc {s : UInt32} {frames : List Frame} {buf : Frame} (isData : buf.cmd = .dataTcp)
    (session : buf.session = s) : dataOf s (frames ++ [buf]) = dataOf s frames ++ [buf] := by
  have here : dataOf s [buf] = [buf] :=
    List.filter_cons_of_pos (decide_eq_true ⟨isData, session⟩)
  rw [dataOf_append, here]

theorem dataOf_snoc_other {s : UInt32} {frames : List Frame} {buf : Frame}
    (other : ¬ (buf.cmd = .dataTcp ∧ buf.session = s)) :
    dataOf s (frames ++ [buf]) = dataOf s frames := by
  have nothing : dataOf s [buf] = [] := List.filter_cons_of_neg fun is => other (of_decide_eq_true is)
  rw [dataOf_append, nothing, List.append_nil]

/-- The data of a session lies among what is picked out. -/
theorem dataOf_filterMap {α : Type} {s : UInt32} {f : α → Frame} {g : α → Option Frame}
    {xs : List α} (picks : ∀ x ∈ xs, g x = some (f x) ∨
      g x = none ∧ ¬ ((f x).cmd = .dataTcp ∧ (f x).session = s)) :
    dataOf s (xs.map f) = dataOf s (xs.filterMap g) := by
  induction xs with
  | nil => rfl
  | cons x xs ih =>
    have rest := ih fun y there => picks y (List.mem_cons_of_mem _ there)
    have split (b : Frame) (bs : List Frame) : dataOf s (b :: bs) = dataOf s [b] ++ dataOf s bs :=
      dataOf_append s [b] bs
    rw [List.map_cons, List.filterMap_cons, split, rest]
    rcases picks x List.mem_cons_self with picked | ⟨left, other⟩
    · rw [picked]
      exact (split (f x) _).symm
    · have nothing : dataOf s [f x] = [] :=
        List.filter_cons_of_neg fun is => other (of_decide_eq_true is)
      rw [left, nothing]
      rfl

theorem OpensFirst.of_prefix {s : UInt32} {xs ys : List Frame} (opens : OpensFirst s ys)
    (begins : xs <+: ys) : OpensFirst s xs := by
  obtain ⟨rest, rfl⟩ := begins
  intro before start after is
  apply opens before start (after ++ rest)
  rw [is, List.append_assoc, List.cons_append]

namespace Node

variable {n m : Node} {s : UInt32} {r : RelayId}

/-- The messages of the other end that `add_response` has handled. -/
def handled (n : Node) : List Frame := n.answered.map Prod.snd

/-- A raw_tcp that has the session. -/
structure Home (n : Node) (s : UInt32) (r : RelayId) : Prop where
  known : r < n.next
  tcp : (n.objs r).kind = .rawTcp
  session : (n.objs r).session = s

/-- The connection of the session was given the first of its data, and all of it while it is in
`_relays`. -/
structure Fed (s : UInt32) (n : Node) : Prop where
  begins : ∀ r, n.Home s r → n.givenTo r <+: dataOf s n.handled
  all : ∀ r, n.Home s r → n.relays.lookup s = some (some r) → n.givenTo r = dataOf s n.handled

theorem Home.raw {r : RelayId} (home : n.Home s r) : (n.objs r).kind ≠ .ssl := by
  rw [home.tcp]
  decide

theorem Grows.handled (grows : Grows n m) : n.handled <+: m.handled := grows.answered.map _

theorem handled_of_eq (same : m.answered = n.answered) : m.handled = n.handled :=
  congrArg (List.map Prod.snd) same

theorem handled_snoc {k : RelayId} {buf : Frame} (noted : m.answered = n.answered ++ [(k, buf)]) :
    m.handled = n.handled ++ [buf] := by
  unfold Node.handled
  rw [noted, List.map_append]
  rfl

theorem Answering.mem_handled {buf : Frame} (answering : n.Answering buf) : buf ∈ n.handled := by
  obtain ⟨k, last⟩ := answering
  exact List.mem_map.mpr ⟨(k, buf), List.mem_of_getLast? last, rfl⟩

/-! ## The parts of a handler -/

/-- What a part handles: nothing, or one message from the strand, which goes to the relay that
stays in `_relays` for its session if it is data. -/
theorem answers_part (part : Part n m) : m.answered = n.answered ∨
    ∃ k buf, m.answered = n.answered ++ [(k, buf)] ∧ .addResponse k buf ∈ n.strand ∧
      (buf.cmd = .dataTcp → ∀ r, m.relays.lookup buf.session = some (some r) →
        m.givenTo r = n.givenTo r ++ [buf]) := by
  have kept {relay : Option RelayId} {buf : Frame} {k : Node}
      (requested : Requested relay buf k m) : m.answered = k.answered := by
    cases requested <;> rfl
  cases part with
  | requested _ asked | emit _ _ _ asked =>
    have same := kept asked
    exact .inl same
  | own _ _ asked =>
    have same := kept asked
    exact .inl same
  | @respond k buf strand queue unknown =>
    refine .inr ⟨k, buf, rfl, queue ▸ List.mem_cons_self, fun isData r there => ?_⟩
    have nobody := unknown isData
    replace there : n.relays.lookup buf.session = some (some r) := there
    rw [there] at nobody
    cases nobody
  | @data k r buf strand queue isData there going =>
    refine .inr ⟨k, buf, rfl, queue ▸ List.mem_cons_self, fun _ a isThere => ?_⟩
    replace isThere : n.relays.lookup buf.session = some (some a) := isThere
    cases there.symm.trans isThere
    refine (givenTo_send _ r r buf).trans ?_
    rw [if_pos rfl]
    rfl
  | @stopped k r buf strand queue =>
    refine .inr ⟨k, buf, rfl, queue ▸ List.mem_cons_self, fun _ a there => ?_⟩
    exact absurd rfl (Map.of_lookup_erase there).1
  | _ => exact .inl rfl

/-- How a relay comes to `_relays`. -/
inductive Lists (n m : Node) (s : UInt32) (r : RelayId) : Prop
  | before : n.relays.lookup s = some (some r) → Lists n m s r
  | begin : .addLocalRawTcp r ∈ n.strand → m.issued = n.issued ++ [Issue.tcp s r] →
    m.answered = n.answered → m.givenTo r = [] → Lists n m s r
  | made {buf : Frame} : n.Answering buf → buf.cmd = .startTcp → buf.session = s →
    m.answered = n.answered → m.givenTo r = [] → Lists n m s r
  | udp : (m.objs r).kind = .rawUdp → Lists n m s r

theorem lists_part (wf : WellFormed n) (part : Part n m) {r : RelayId}
    (there : m.relays.lookup s = some (some r)) : Lists n m s r := by
  have kept {relay : Option RelayId} {buf : Frame} {k : Node}
      (requested : Requested relay buf k m) (same : k.relays = n.relays) : Lists n m s r := by
    rw [requested.relays, same] at there
    exact .before there
  cases part with
  | requested _ asked => exact kept asked rfl
  | emit _ _ _ asked => exact kept asked rfl
  | own _ _ asked => exact kept asked rfl
  | stopped => exact .before (Map.of_lookup_erase there).2
  | drop fewer => exact .before (fewer there)
  | @begin a strand queue free =>
    replace there : (n.relays.insert n.session (some a)).lookup s = some (some r) := there
    rw [Map.lookup_insert] at there
    split at there
    · rename_i same
      cases there
      have waits : .addLocalRawTcp r ∈ n.strand := queue ▸ List.mem_cons_self
      refine .begin waits (same ▸ rfl) rfl ?_
      obtain ⟨_, dst, is⟩ := wf.pending waits
      have quiet : n.givenTo r = [] := by
        unfold givenTo
        rw [is]
        rfl
      refine (givenTo_call fun buf same => ?_).trans quiet
      cases same
    · exact .before there
  | @makeTcp session target buf answering start isSession =>
    replace there : (n.relays.insert session (some n.next)).lookup s = some (some r) := there
    rw [Map.lookup_insert] at there
    split at there
    · rename_i same
      cases there
      refine .made answering start (isSession.trans same.symm) rfl ?_
      show ((n.make _).objs n.next).log.given = []
      rw [objs_make, if_pos rfl]
      rfl
    · exact .before there
  | @makeUdp session buf =>
    replace there : (n.relays.insert session (some n.next)).lookup s = some (some r) := there
    rw [Map.lookup_insert] at there
    split at there
    · cases there
      refine .udp ?_
      show ((n.make _).objs n.next).kind = .rawUdp
      rw [objs_make, if_pos rfl]
      exact Relay.call_kind _ .startUdp
    · exact .before there
  | _ => exact .before there

/-- A relay that was given something had its session. -/
theorem Home.before (home : m.Home s r) (wf : WellFormed n) (ledger : n.Ledger)
    (given : n.givenTo r ≠ []) (kind : r < n.next → (m.objs r).kind = (n.objs r).kind)
    (session : r < n.next → .addLocalRawTcp r ∉ n.strand →
      (m.objs r).session = (n.objs r).session) : n.Home s r := by
  have known : r < n.next := by
    by_contra new
    apply given
    unfold givenTo
    rw [ledger.fresh r (Nat.le_of_not_lt new)]
  have waits : .addLocalRawTcp r ∉ n.strand := by
    intro waits
    obtain ⟨_, dst, is⟩ := wf.pending waits
    apply given
    unfold givenTo
    rw [is]
    rfl
  exact ⟨known, (kind known).symm.trans home.tcp, (session known waits).symm.trans home.session⟩

/-- Nothing is given or handled. -/
theorem Fed.keep (fed : Fed s n) (wf : WellFormed n) (ledger : n.Ledger)
    (given : ∀ r, m.givenTo r = n.givenTo r) (answered : m.answered = n.answered)
    (relays : m.relays = n.relays)
    (kind : ∀ {r}, r < n.next → (m.objs r).kind = (n.objs r).kind)
    (session : ∀ {r}, r < n.next → .addLocalRawTcp r ∉ n.strand →
      (m.objs r).session = (n.objs r).session) : Fed s m := by
  refine ⟨fun r home => ?_, fun r home there => ?_⟩
  · rw [given, handled_of_eq answered]
    by_cases nothing : n.givenTo r = []
    · rw [nothing]
      exact List.nil_prefix
    · exact fed.begins r (home.before wf ledger nothing kind session)
  · rw [given, handled_of_eq answered]
    rw [relays] at there
    obtain ⟨⟨known, waits⟩, _, _⟩ := wf.relays there
    refine fed.all r ⟨known, (kind known).symm.trans home.tcp, ?_⟩ there
    exact (session known waits).symm.trans home.session

/-- **A part** gives the data that it handles to the relay of its session. -/
theorem fed_part (wf : WellFormed n) (ledger : n.Ledger) (fed : Fed s n) (part : Part n m)
    (noUdp : ∀ buf ∈ m.handled, buf.cmd ≠ .dataUdp)
    (begins : ∀ r, .addLocalRawTcp r ∈ n.strand → m.issued = n.issued ++ [Issue.tcp s r] →
      dataOf s n.handled = [])
    (makes : ∀ buf, n.Answering buf → buf.cmd = .startTcp → buf.session = s →
      dataOf s n.handled = []) : Fed s m := by
  have grows := grows_part part
  have kind {r : RelayId} (known : r < n.next) := kind_part part known
  have session {r : RelayId} (known : r < n.next) (waits : .addLocalRawTcp r ∉ n.strand) :=
    leftByCalls_session.part part known (.inl waits)
  have udp {buf : Frame} (answering : n.Answering buf) : buf.cmd ≠ .dataUdp :=
    noUdp buf (grows.handled.subset answering.mem_handled)
  -- a relay in `_relays` has its session before the part
  have listed {r : RelayId} {s' : UInt32} (home : m.Home s r)
      (there : n.relays.lookup s' = some (some r)) : s' = s ∧ n.Home s r := by
    obtain ⟨⟨known, waits⟩, _, same⟩ := wf.relays there
    have is : (n.objs r).session = s := (session known waits).symm.trans home.session
    exact ⟨same.symm.trans is, known, (kind known).symm.trans home.tcp, is⟩
  refine ⟨fun r home => ?_, fun r home there => ?_⟩
  · cases gives_part wf ledger part home.raw with
    | nothing same =>
      rw [same]
      by_cases nothing : n.givenTo r = []
      · rw [nothing]
        exact List.nil_prefix
      · have before := home.before wf ledger nothing kind session
        exact (fed.begins r before).trans (dataOf_mono grows.handled)
    | @data k buf noted isData isThere _ more =>
      obtain ⟨same, before⟩ := listed home isThere
      rw [same] at isThere
      rw [more, handled_snoc noted, dataOf_snoc isData same, fed.all r before isThere]
    | datagram _ _ answering isUdp => exact absurd isUdp (udp answering)
  · have old (isThere : n.relays.lookup s = some (some r)) :
        m.givenTo r = dataOf s m.handled := by
      have all := fed.all r (listed home isThere).2 isThere
      rcases answers_part part with same | ⟨k, buf, noted, _, gets⟩
      · rw [handled_of_eq same]
        cases gives_part wf ledger part home.raw with
        | nothing still => exact still.trans all
        | data noted =>
          rw [same] at noted
          exact absurd (List.self_eq_append_right.mp noted) (List.cons_ne_nil _ _)
        | datagram _ _ answering isUdp => exact absurd isUdp (udp answering)
      · rw [handled_snoc noted]
        by_cases own : buf.cmd = .dataTcp ∧ buf.session = s
        · obtain ⟨isData, isSession⟩ := own
          rw [dataOf_snoc isData isSession, gets isData r (isSession.symm ▸ there), all]
        · rw [dataOf_snoc_other own]
          cases gives_part wf ledger part home.raw with
          | nothing still => exact still.trans all
          | @data k' buf' noted' isData isThere' =>
            rw [noted] at noted'
            obtain ⟨_, rfl⟩ : k = k' ∧ buf = buf' := by simpa using noted'
            exact absurd ⟨isData, (listed home isThere').1⟩ own
          | datagram _ _ answering isUdp => exact absurd isUdp (udp answering)
    cases lists_part wf part there with
    | before isThere => exact old isThere
    | begin waits issued same quiet => rw [quiet, handled_of_eq same, begins r waits issued]
    | made answering start isSession same quiet =>
      rw [quiet, handled_of_eq same, makes _ answering start isSession]
    | udp isUdp => cases home.tcp.symm.trans isUdp

theorem fed_udpPart (wf : WellFormed n) (ledger : n.Ledger) (fed : Fed s n)
    (part : UdpPart n m) : Fed s m := by
  apply fed.keep wf ledger (givenTo_udpPart ledger part)
  · cases part <;> rfl
  · cases part <;> rfl
  · exact fun known => kind_udpPart part known
  · exact fun known _ => leftByCalls_session.udpPart part known

theorem fed_outside (wf : WellFormed n) (ledger : n.Ledger) (fed : Fed s n) {a : NodeAction}
    (outside : Outside n a m) : Fed s m := by
  apply fed.keep wf ledger (givenTo_outside ledger outside)
  · cases outside <;> rfl
  · cases outside <;> rfl
  · exact fun known => kind_outside outside known
  · exact fun known _ => session_outside outside known

theorem fed_start {n₀ : Node} (starts : Starts n₀) : Fed s n₀ := by
  have nothing (r : RelayId) : n₀.givenTo r = [] := by
    cases starts <;> rfl
  have none : n₀.handled = [] := by
    cases starts <;> rfl
  refine ⟨fun r _ => ?_, fun r _ _ => ?_⟩
  · rw [nothing]
    exact List.nil_prefix
  · rw [nothing, none]
    rfl

/-! ## The remote side -/

/-- When `START_TCP` comes first there is no data before it. -/
theorem noData_of_opens (opens : OpensFirst s n.handled) {buf : Frame}
    (answering : n.Answering buf) (start : buf.cmd = .startTcp) (session : buf.session = s) :
    dataOf s n.handled = [] := by
  obtain ⟨k, last⟩ := answering
  obtain ⟨before, is⟩ := List.getLast?_eq_some_iff.mp last
  have handled : n.handled = before.map Prod.snd ++ [buf] := by
    unfold Node.handled
    rw [is, List.map_append]
    rfl
  have first := opens _ buf [] handled start session
  apply dataOf_eq_nil
  intro b there same isData
  rw [handled] at there
  rcases List.mem_append.mp there with old | new
  · exact first b old same (.inr isData)
  · rw [List.mem_singleton.mp new, start] at isData
    cases isData

/-- **The connections of the remote side** are given the data of their sessions. -/
theorem fed_remote {C : Node → NodeAction → Prop} (run : Reach step C initRemote n)
    (noUdp : ∀ buf ∈ n.handled, buf.cmd ≠ .dataUdp) (opens : OpensFirst s n.handled) :
    Fed s n := by
  let P (n : Node) : Prop := n.Ledger ∧ Made n ∧
    ((∀ buf ∈ n.handled, buf.cmd ≠ .dataUdp) → OpensFirst s n.handled → Fed s n)
  have start : Made initRemote := made_reach (C := anyStep) .refl
  suffices all : P n from all.2.2 noUdp opens
  refine parts_rule (P := P) Starts.remote.wellFormed run ?_ ?_ ?_ ?_
  · exact ⟨Starts.remote.ledger, start, fun _ _ => fed_start .remote⟩
  · intro k m wf ⟨ledger, made, fed⟩ part
    refine ⟨ledger_part wf ledger part, made_part made part, fun noUdp opens => ?_⟩
    have grows := (grows_part part).handled
    have before := opens.of_prefix grows
    have old := fed (fun buf there => noUdp buf (grows.subset there)) before
    refine fed_part wf ledger old part noUdp (fun r waits => absurd waits (made.waits r)) ?_
    exact fun buf answering start session => noData_of_opens before answering start session
  · intro k m wf ⟨ledger, made, fed⟩ part
    refine ⟨ledger_udpPart wf ledger part, made_udpPart made part, fun noUdp opens => ?_⟩
    have grows := (grows_udpPart part).handled
    have old := fed (fun buf there => noUdp buf (grows.subset there)) (opens.of_prefix grows)
    exact fed_udpPart wf ledger old part
  · intro k a m wf ⟨ledger, made, fed⟩ _ outside
    refine ⟨ledger_outside ledger outside, made_outside made outside, fun noUdp opens => ?_⟩
    have grows := (grows_outside outside).handled
    have old := fed (fun buf there => noUdp buf (grows.subset there)) (opens.of_prefix grows)
    exact fed_outside wf ledger old outside

/-- A `START_TCP` whose address can be read makes a relay of its session, any other message
makes none. -/
structure Makes (n m : Node) : Prop where
  next : m.next ≤ n.next + 1
  new : n.next < m.next → ∃ k buf, m.answered = n.answered ++ [(k, buf)] ∧
    buf.cmd = .startTcp ∧ (m.objs n.next).session = buf.session

theorem Makes.of_next (next : m.next = n.next) : Makes n m where
  next := next ▸ Nat.le_succ _
  new more := absurd (next ▸ more) (Nat.lt_irrefl _)

theorem next_addRequest (remote : n.type = .remoteServer) (throws : Bool)
    (relay : Option RelayId) (buf : Frame) :
    (n.addRequest throws relay buf).Both fun m => m.next = n.next := by
  unfold addRequest
  split
  · simp only
    exact next_stopManager _
  · show (n.sendSsl relay buf).next = n.next
    unfold sendSsl
    split <;> rfl

theorem next_responseDataTcp (remote : n.type = .remoteServer) (throws : Throws) (buf : Frame) :
    (n.responseDataTcp throws buf).Both fun m => m.next = n.next := by
  unfold responseDataTcp
  split
  · exact rfl
  · exact rfl
  · split
    · exact @next_addRequest { n with relays := n.relays.erase buf.session } remote _ _ _
    · exact rfl

theorem next_remoteServerStartTcp (remote : n.type = .remoteServer) (throws : Throws)
    (buf : Frame) : (n.remoteServerStartTcp throws buf).Both fun m => m.next ≤ n.next + 1 ∧
      (n.next < m.next → (m.objs n.next).session = buf.session) := by
  have slot : (n.relaySlot buf.session).next = n.next ∧
      (n.relaySlot buf.session).type = .remoteServer := by
    unfold relaySlot
    split <;> exact ⟨rfl, remote⟩
  unfold remoteServerStartTcp
  simp only
  generalize stoppedIs : Option.elim _ (n.relaySlot buf.session) _ = stopped
  have both : stopped.next = n.next ∧ stopped.type = .remoteServer := by
    rw [← stoppedIs]
    cases ((n.relaySlot buf.session).relays.lookup buf.session).join with
    | none => exact slot
    | some r => exact slot
  split
  · exact ⟨both.1 ▸ Nat.le_succ _, fun more => absurd (both.1 ▸ more) (Nat.lt_irrefl _)⟩
  · rw [addRemoteRawTcp_eq both.2, ← both.1]
    refine ⟨Nat.le_refl _, fun _ => ?_⟩
    show ((stopped.make _).objs stopped.next).session = buf.session
    rw [objs_make, if_pos rfl]
    rfl

theorem makes_addResponse (remote : n.type = .remoteServer) (throws : Throws) (k : RelayId)
    {buf : Frame} (noUdp : buf.cmd ≠ .dataUdp) : (n.addResponse throws k buf).Both (Makes n) := by
  have noted : (n.addResponse throws k buf).state.answered = n.answered ++ [(k, buf)] :=
    (work_addResponse n throws k buf).answered
  suffices next : (n.addResponse throws k buf).Both fun m => m.next ≤ n.next + 1 ∧
      (n.next < m.next → buf.cmd = .startTcp ∧ (m.objs n.next).session = buf.session) by
    obtain ⟨next, new⟩ := next
    exact ⟨next, fun more => ⟨k, buf, noted, new more⟩⟩
  have kept {x : Fallible Node} (same : x.Both fun m => m.next = n.next) :
      x.Both fun m => m.next ≤ n.next + 1 ∧
        (n.next < m.next → buf.cmd = .startTcp ∧ (m.objs n.next).session = buf.session) := by
    refine same.mono fun m same => ⟨same ▸ Nat.le_succ _, fun more => ?_⟩
    exact absurd (same ▸ more) (Nat.lt_irrefl _)
  unfold addResponse
  simp only
  split
  · exact kept (@next_responseDataTcp { n with answered := n.answered ++ [(k, buf)] } remote _ _)
  · rename_i isUdp
    exact absurd isUdp noUdp
  · rename_i start
    have made := @next_remoteServerStartTcp { n with answered := n.answered ++ [(k, buf)] } remote
      throws buf
    exact made.mono fun m next => ⟨next.1, fun more => ⟨start, next.2 more⟩⟩
  · apply kept
    show (responseStopTcp _ buf).next = n.next
    unfold responseStopTcp
    split <;> rfl
  · exact kept rfl

theorem makes_step (tasks : RemoteTasks n) (noUdp : ∀ buf ∈ m.handled, buf.cmd ≠ .dataUdp)
    {a : NodeAction} (stepped : n.step a = some m) : Makes n m := by
  cases stepIs_of_step stepped with
  | accept localSide | udpPacket localSide => exact absurd tasks.remote localSide
  | release _ | relay _ _ => exact .of_next rfl
  | tick _ => exact .of_next (next_tick n)
  | @manager throws task strand queue =>
    rcases tasks.tasks task (queue ▸ List.mem_cons_self) with ⟨r, buf, rfl⟩ | ⟨k, buf, rfl⟩
    · exact .of_next (@next_addRequest { n with strand } tasks.remote _ _ _)
    · have noted := (work_addResponse { n with strand } throws k buf).answered
      have other : buf.cmd ≠ .dataUdp := by
        apply noUdp
        refine List.mem_map.mpr ⟨(k, buf), ?_, rfl⟩
        show (k, buf) ∈ ({ n with strand }.addResponse throws k buf).state.answered
        rw [noted]
        exact List.mem_append_right _ List.mem_cons_self
      have makes := makes_addResponse (n := { n with strand }) tasks.remote throws k other
      exact ⟨makes.next, makes.new⟩

theorem session_step {a : NodeAction} (wf : WellFormed n) (stepped : n.step a = some m)
    {r : RelayId} (known : r < n.next) (waits : .addLocalRawTcp r ∉ n.strand) :
    (m.objs r).session = (n.objs r).session := by
  rcases parts_step wf stepped with parts | outside
  · clear stepped
    suffices both : (m.objs r).session = (n.objs r).session ∧ n.next ≤ m.next ∧
        m.strand <:+ n.strand from both.1
    induction parts with
    | refl => exact ⟨rfl, Nat.le_refl _, List.suffix_rfl⟩
    | @tail k m _ part ih =>
      obtain ⟨same, next, strand⟩ := ih
      have later := known.trans_le next
      rcases part with part | part
      · have still : .addLocalRawTcp r ∉ k.strand := fun there => waits (strand.subset there)
        exact ⟨(leftByCalls_session.part part later (.inl still)).trans same,
          next.trans (grows_part part).next, (strand_part part).trans strand⟩
      · exact ⟨(leftByCalls_session.udpPart part later).trans same,
          next.trans (grows_udpPart part).next, (strand_udpPart part).trans strand⟩
  · exact session_outside outside known

/-- **One connection for a session** on the remote side. -/
theorem lone_remote {C : Node → NodeAction → Prop} (run : Reach step C initRemote n)
    (noUdp : ∀ buf ∈ n.handled, buf.cmd ≠ .dataUdp) (opens : OpensFirst s n.handled)
    {r r' : RelayId} (home : n.Home s r) (home' : n.Home s r') : r = r' := by
  have starts := Starts.remote.wellFormed
  let P (n : Node) : Prop := RemoteTasks n ∧
    ((∀ buf ∈ n.handled, buf.cmd ≠ .dataUdp) → OpensFirst s n.handled →
      ∀ r r', n.Home s r → n.Home s r' → r = r')
  suffices all : P n from all.2 noUdp opens r r' home home'
  refine run.invariant (P := P) ⟨remoteTasks_initRemote, ?_⟩ ?_
  · intro _ _ r r' home _
    exact absurd home.tcp (by intro same; cases same)
  intro n a m before ⟨tasks, lone⟩ _ stepped
  refine ⟨remoteTasks_step tasks stepped, fun noUdp opens => ?_⟩
  have wf := wellFormed_reach starts before
  have one : Reach step anyStep n m := Reach.refl.tail trivial stepped
  have grows := (grows_reach wf one).handled
  have made := made_reach before
  have makes := makes_step tasks noUdp stepped
  have old {r : RelayId} (home : m.Home s r) (known : r < n.next) : n.Home s r := by
    refine ⟨known, (kind_reach wf one known).symm.trans home.tcp, ?_⟩
    exact (session_step wf stepped known (made.waits r)).symm.trans home.session
  -- a new connection is the first of its session
  have new {r : RelayId} (home : m.Home s r) (isNew : n.next ≤ r) :
      r = n.next ∧ ∀ a, ¬ n.Home s a := by
    have is : r = n.next := by
      have last := Nat.lt_of_lt_of_le home.known makes.next
      exact Nat.le_antisymm (Nat.le_of_lt_succ last) isNew
    subst is
    obtain ⟨k, buf, noted, start, session⟩ := makes.new home.known
    refine ⟨rfl, fun a homeA => ?_⟩
    obtain ⟨⟨j, first⟩, there, isStart, same⟩ :=
      @Made.relays _ made a .startTcp homeA.known (by rw [homeA.tcp]; rfl)
    have earlier : first ∈ n.handled := List.mem_map.mpr ⟨(j, first), there, rfl⟩
    refine opens n.handled buf [] (handled_snoc noted) start (session.symm.trans home.session)
      first earlier (same.trans homeA.session) (.inl isStart)
  intro r r' home home'
  rcases Nat.lt_or_ge r n.next with known | isNew
  · rcases Nat.lt_or_ge r' n.next with known' | isNew'
    · exact lone (fun buf there => noUdp buf (grows.subset there)) (opens.of_prefix grows) r r'
        (old home known) (old home' known')
    · exact absurd (old home known) ((new home' isNew').2 r)
  · rcases Nat.lt_or_ge r' n.next with known' | isNew'
    · exact absurd (old home' known') ((new home isNew).2 r')
    · exact (new home isNew).1.trans (new home' isNew').1.symm

/-- No connection of the remote side was given a message after it was stopped, unless a
`START_TCP` was bad. -/
def Timely (n : Node) : Prop :=
  ∀ r, r < n.next → (n.objs r).kind = .rawTcp → (n.objs r).log.late = false ∨ n.BadStart

theorem BadStart.grows (bad : n.BadStart) (grows : Grows n m) : m.BadStart := by
  obtain ⟨entry, there, is⟩ := bad
  exact ⟨entry, grows.answered.subset there, is⟩

theorem late_call (n : Node) {a r : RelayId} {c : RelayCall}
    (timely : r ≠ a ∨ (∀ buf, c ≠ .sendData buf) ∨ (n.objs a).log.stopCalled = false) :
    ((n.call a c).objs r).log.late = (n.objs r).log.late := by
  rw [objs_call]
  split
  · rename_i same
    subst same
    have called := Relay.calls_call (n.objs r) c
    generalize (n.objs r).call c = r' at called
    cases called with
    | @sendData buf =>
      rcases timely with other | quiet | running
      · exact absurd rfl other
      · exact absurd rfl (quiet buf)
      · show ((n.objs r).log.late || (n.objs r).log.stopCalled) = (n.objs r).log.late
        rw [running, Bool.or_false]
    | _ => rfl
  · rfl

theorem Ledger.late_make (ledger : n.Ledger) {relay : Relay} (log : relay.log = {}) :
    ((n.make relay).objs r).log.late = (n.objs r).log.late := by
  rw [objs_make]
  split
  · rename_i same
    rw [log, same, ledger.fresh n.next (Nat.le_refl _)]
  · rfl

theorem Requested.late {relay : Option RelayId} {buf : Frame} (requested : Requested relay buf n m)
    (wf : WellFormed n) (raw : (m.objs r).kind ≠ .ssl) :
    (m.objs r).log.late = (n.objs r).log.late := by
  cases requested with
  | @sent k current _ =>
    refine late_call n (.inl fun same => ?_)
    subst same
    exact raw ((objs_call_kind n r r (.sendData buf)).trans (wf.ssl current).2)
  | made =>
    have other : r ≠ n.next := by
      intro same
      subst same
      apply raw
      show ((n.make _).objs n.next).kind = .ssl
      rw [objs_make, if_pos rfl]
      rfl
    show ((n.make _).objs r).log.late = _
    rw [objs_make, if_neg other]
  | lost => rfl

/-- A part leaves a connection timely, or a `START_TCP` was bad. -/
theorem late_part (wf : WellFormed n) (ledger : n.Ledger) (remote : n.type = .remoteServer)
    (part : Part n m) (raw : (m.objs r).kind ≠ .ssl) :
    (m.objs r).log.late = (n.objs r).log.late ∨ n.BadStart := by
  have quiet {a : RelayId} {c : RelayCall} (other : ∀ buf, c ≠ .sendData buf) :
      ((n.call a c).objs r).log.late = (n.objs r).log.late := late_call n (.inr (.inl other))
  cases part with
  | requested queue asked => exact .inl (asked.late (wf.pop queue) raw)
  | @emit a buf _ listed _ _ asked =>
    left
    have other (b : Frame) : RelayCall.emit buf ≠ .sendData b := by
      intro same
      cases same
    have wf' := wf.call (c := .emit buf) (wf.callable listed) nofun fun _ _ => .inl rfl
    exact (asked.late wf' raw).trans (quiet other)
  | own _ _ asked => exact .inl (asked.late wf raw)
  | @data k a buf strand _ _ there _ =>
    rcases wf.running there remote with running | bad
    · exact .inl (late_call (n.respond k buf strand) (.inr (.inr running)))
    · exact .inr bad
  | @datagram s a buf _ there _ _ _ =>
    rcases wf.running there remote with running | bad
    · exact .inl (late_call n (.inr (.inr running)))
    · exact .inr bad
  | reply transparent => cases remote.symm.trans transparent
  | begin =>
    left
    refine late_call _ (.inr (.inl fun buf same => ?_))
    cases same
  | startRead =>
    left
    refine quiet fun buf same => ?_
    cases same
  | halt _ is _ =>
    left
    refine quiet fun buf same => ?_
    rcases is with is | is <;> cases is.symm.trans same
  | @makeTcp session target =>
    left
    have log : ((n.newRawTcp (some target)).begin session).log = {} := rfl
    exact ledger.late_make log
  | orphanUdp => exact .inl (ledger.late_make rfl)
  | @makeUdp session => exact .inl (ledger.late_make (log_startUdp n session))
  | _ => exact .inl rfl

theorem late_udpPart (ledger : n.Ledger) (part : UdpPart n m) :
    (m.objs r).log.late = (n.objs r).log.late := by
  cases part with
  | assign | sources => rfl
  | addPeer | delPeer =>
    refine late_call n (.inr (.inl fun buf same => ?_))
    cases same
  | localUdp begun =>
    refine ledger.late_make ?_
    split
    · exact log_startUdp n 0
    · rfl

theorem late_outside (ledger : n.Ledger) {a : NodeAction} (outside : Outside n a m) :
    (m.objs r).log.late = (n.objs r).log.late := by
  cases outside with
  | @accept dst _ => exact @Ledger.late_make n r ledger (n.newAccepted dst) rfl
  | udpPacket | release => rfl
  | @relay b ev relay outs callable stepped =>
    show (Function.update n.objs b relay r).log.late = (n.objs r).log.late
    rw [Function.update_apply]
    split
    · rename_i same
      rw [(Relay.sameCalls_step stepped).late, same]
    · rfl

theorem Timely.keep (timely : Timely n) (ledger : n.Ledger) (grows : Grows n m)
    (kind : ∀ {r}, r < n.next → (m.objs r).kind = (n.objs r).kind)
    (late : ∀ r, (m.objs r).kind = .rawTcp →
      (m.objs r).log.late = (n.objs r).log.late ∨ n.BadStart) : Timely m := by
  intro r _ tcp
  rcases late r tcp with same | bad
  · rw [same]
    by_cases known : r < n.next
    · exact (timely r known ((kind known).symm.trans tcp)).imp id fun bad => bad.grows grows
    · rw [ledger.fresh r (Nat.le_of_not_lt known)]
      exact .inl rfl
  · exact .inr (bad.grows grows)

theorem timely_remote {C : Node → NodeAction → Prop} (run : Reach step C initRemote n) :
    Timely n := by
  let P (n : Node) : Prop := n.Ledger ∧ n.type = .remoteServer ∧ Timely n
  suffices all : P n from all.2.2
  refine parts_rule (P := P) Starts.remote.wellFormed run ?_ ?_ ?_ ?_
  · refine ⟨Starts.remote.ledger, rfl, fun r _ tcp => ?_⟩
    cases tcp
  · intro k m wf ⟨ledger, remote, timely⟩ part
    have grows := grows_part part
    refine ⟨ledger_part wf ledger part, grows.type.trans remote, ?_⟩
    refine timely.keep ledger grows (kind_part part) fun r tcp => ?_
    apply late_part wf ledger remote part
    rw [tcp]
    decide
  · intro k m wf ⟨ledger, remote, timely⟩ part
    have grows := grows_udpPart part
    refine ⟨ledger_udpPart wf ledger part, grows.type.trans remote, ?_⟩
    exact timely.keep ledger grows (kind_udpPart part) fun r _ => .inl (late_udpPart ledger part)
  · intro k a m wf ⟨ledger, remote, timely⟩ _ outside
    have grows := grows_outside outside
    refine ⟨ledger_outside ledger outside, grows.type.trans remote, ?_⟩
    exact timely.keep ledger grows (kind_outside outside) fun r _ =>
      .inl (late_outside ledger outside)

/-! ## The local side -/

/-- A session goes to one connection. -/
theorem issued_once {C : Node → NodeAction → Prop} {type : ServerType}
    (run : Reach step C (initLocal type) n) (few : n.allocated < 2 ^ 32) {r r' : RelayId}
    (issued : Issue.tcp s r ∈ n.issued) (issued' : Issue.tcp s r' ∈ n.issued) : r = r' := by
  let P (n : Node) : Prop := (∀ s r, Issue.tcp s r ∈ n.issued → ∃ i < n.allocated,
      s = UInt32.ofNat (i + 1)) ∧
    (n.allocated < 2 ^ 32 → ∀ s r r', Issue.tcp s r ∈ n.issued → Issue.tcp s r' ∈ n.issued →
      r = r')
  suffices all : P n from all.2 few s r r' issued issued'
  refine run.invariant (P := P) ?_ ?_
  · exact ⟨fun s r there => absurd there List.not_mem_nil,
      fun _ s r r' there => absurd there List.not_mem_nil⟩
  intro n a m before ⟨range, once⟩ _ stepped
  obtain ⟨issued, counter, drawn⟩ := counts_step stepped
  have shows := (counted_reach before).counter
  have grows : n.allocated ≤ m.allocated := allocated_le_step stepped
  -- the id that is drawn now is the next
  have new {s : UInt32} {r : RelayId} (there : Issue.tcp s r ∈ (n.draws a).toList) :
      n.draws a = some (.tcp s r) ∧ m.allocated = n.allocated + 1 ∧
        s = UInt32.ofNat (n.allocated + 1) := by
    have draws := Option.mem_toList.mp there
    refine ⟨draws, drawn (by rw [draws]; rfl), ?_⟩
    exact (draws_tcp draws).trans shows
  refine ⟨fun s r there => ?_, fun few s r r' there there' => ?_⟩
  · rw [issued] at there
    rcases List.mem_append.mp there with old | isNew
    · obtain ⟨i, less, is⟩ := range s r old
      exact ⟨i, Nat.lt_of_lt_of_le less grows, is⟩
    · obtain ⟨_, counted, is⟩ := new isNew
      exact ⟨n.allocated, counted ▸ Nat.lt_succ_self _, is⟩
  · have fresh {r r' : RelayId} (old : Issue.tcp s r ∈ n.issued)
        (isNew : Issue.tcp s r' ∈ (n.draws a).toList) : False := by
      obtain ⟨i, less, is⟩ := range s r old
      obtain ⟨_, counted, isNext⟩ := new isNew
      have same := congrArg UInt32.toNat (is.symm.trans isNext)
      rw [toNat_ofNat (by omega), toNat_ofNat (by omega)] at same
      omega
    rw [issued] at there there'
    rcases List.mem_append.mp there with old | isNew
    · rcases List.mem_append.mp there' with old' | isNew'
      · exact once (Nat.lt_of_le_of_lt grows few) s r r' old old'
      · exact (fresh old isNew').elim
    · rcases List.mem_append.mp there' with old' | isNew'
      · exact (fresh old' isNew).elim
      · have same := (new isNew).1.symm.trans (new isNew').1
        cases same
        rfl

/-- A session that was handed out has its connection. -/
def Housed (n : Node) : Prop := ∀ s r, Issue.tcp s r ∈ n.issued → n.Home s r

theorem Housed.keep (housed : Housed n) (begun : Begun n) (grows : Grows n m)
    (issued : ∀ s r, Issue.tcp s r ∈ m.issued → Issue.tcp s r ∈ n.issued)
    (kind : ∀ {r}, r < n.next → (m.objs r).kind = (n.objs r).kind)
    (session : ∀ {r}, r < n.next → .addLocalRawTcp r ∉ n.strand →
      (m.objs r).session = (n.objs r).session) : Housed m := by
  intro s r there
  have old := issued s r there
  obtain ⟨known, tcp, isSession⟩ := housed s r old
  exact ⟨Nat.lt_of_lt_of_le known grows.next, (kind known).trans tcp,
    (session known (begun s r old).2).trans isSession⟩

theorem housed_part (wf : WellFormed n) (begun : Begun n) (housed : Housed n)
    (part : Part n m) : Housed m := by
  have grows := grows_part part
  have kind {r : RelayId} (known : r < n.next) := kind_part part known
  have session {r : RelayId} (known : r < n.next) (waits : .addLocalRawTcp r ∉ n.strand) :=
    leftByCalls_session.part part known (.inl waits)
  have asked {relay : Option RelayId} {buf : Frame} {k : Node}
      (requested : Requested relay buf k m) (same : k.issued = n.issued) : Housed m := by
    refine housed.keep begun grows (fun s r there => ?_) kind session
    rw [← same]
    cases requested <;> exact there
  cases part with
  | requested _ requested | emit _ _ _ requested => exact asked requested rfl
  | own _ _ requested => exact asked requested rfl
  | @begin a rest queue free =>
    intro s r there
    rcases List.mem_append.mp there with old | new
    · obtain ⟨known, tcp, isSession⟩ := housed s r old
      refine ⟨known, (kind known).trans tcp, ?_⟩
      exact (session known (begun s r old).2).trans isSession
    · cases List.mem_singleton.mp new
      obtain ⟨known, dst, is⟩ := wf.pending (queue ▸ List.mem_cons_self)
      refine ⟨known, (kind known).trans (by rw [is]; rfl), ?_⟩
      rw [objs_call, if_pos rfl]
      rfl
  | _ => exact housed.keep begun grows (fun _ _ there => there) kind session

theorem housed_reach {C : Node → NodeAction → Prop} {type : ServerType}
    (run : Reach step C (initLocal type) n) : Housed n := by
  let P (n : Node) : Prop := Begun n ∧ Housed n
  suffices both : P n from both.2
  refine parts_rule (P := P) (wellFormed_initLocal type) run ?_ ?_ ?_ ?_
  · exact ⟨begun_reach (C := C) .refl, fun s r there => absurd there List.not_mem_nil⟩
  · intro k m wf ⟨begun, housed⟩ part
    exact ⟨begun_part wf begun part, housed_part wf begun housed part⟩
  · intro k m wf ⟨begun, housed⟩ part
    refine ⟨begun_udpPart begun part, ?_⟩
    refine housed.keep begun (grows_udpPart part) (fun s r there => ?_) (kind_udpPart part)
      fun known _ => leftByCalls_session.udpPart part known
    cases part with
    | assign =>
      rcases List.mem_append.mp there with old | new
      · exact old
      · cases List.mem_singleton.mp new
    | _ => exact there
  · intro k a m wf ⟨begun, housed⟩ _ outside
    refine ⟨begun_outside begun outside, ?_⟩
    refine housed.keep begun (grows_outside outside) (fun s r there => ?_) (kind_outside outside)
      fun known _ => session_outside outside known
    cases outside <;> exact there

/-- The data that came is for sessions that were handed out. -/
def Expected (n : Node) : Prop :=
  ∀ buf, (buf ∈ n.handled ∨ ∃ k, .addResponse k buf ∈ n.strand) → buf.cmd = .dataTcp →
    ∃ r, Issue.tcp buf.session r ∈ n.issued

theorem Expected.keep (expected : Expected n) (grows : Grows n m) (strand : m.strand <:+ n.strand)
    (handled : ∀ buf ∈ m.handled, buf ∈ n.handled ∨ ∃ k, .addResponse k buf ∈ n.strand) :
    Expected m := by
  intro buf there isData
  obtain ⟨r, issued⟩ := expected buf (there.elim (handled buf)
    fun ⟨k, waits⟩ => .inr ⟨k, strand.subset waits⟩) isData
  exact ⟨r, grows.issued.subset issued⟩

theorem expected_part (expected : Expected n) (part : Part n m) : Expected m := by
  refine expected.keep (grows_part part) (strand_part part) fun buf there => ?_
  rcases answers_part part with same | ⟨k, next, noted, waits, _⟩
  · rw [handled_of_eq same] at there
    exact .inl there
  · rw [handled_snoc noted] at there
    rcases List.mem_append.mp there with old | new
    · exact .inl old
    · exact .inr ⟨k, List.mem_singleton.mp new ▸ waits⟩

theorem expected_udpPart (expected : Expected n) (part : UdpPart n m) : Expected m := by
  refine expected.keep (grows_udpPart part) (strand_udpPart part) fun buf there => .inl ?_
  cases part <;> exact there

/-- **One step of the local side** gives the data that it handles to the connections of their
sessions. -/
theorem fed_local {a : NodeAction} (wf : WellFormed n) (ledger : n.Ledger) (begun : Begun n)
    (expected : Expected n) (fed : Fed s n) (stepped : n.step a = some m)
    (noUdp : ∀ buf ∈ m.handled, buf.cmd ≠ .dataUdp) (unwelcome : ¬ m.Welcomed)
    (once : ∀ s r r', Issue.tcp s r ∈ m.issued → Issue.tcp s r' ∈ m.issued → r = r') :
    Fed s m := by
  rcases parts_step wf stepped with parts | outside
  · clear stepped
    suffices both : Grows n m ∧ (WellFormed n → n.Ledger → Begun n → Expected n → Fed s n →
        Fed s m) from both.2 wf ledger begun expected fed
    clear wf ledger begun expected fed
    induction parts using Relation.ReflTransGen.head_induction_on with
    | refl => exact ⟨Grows.refl m, fun _ _ _ _ fed => fed⟩
    | @head n k part _ ih =>
      obtain ⟨later, rest⟩ := ih
      rcases part with part | part
      · have grows := grows_part part
        refine ⟨grows.trans later, fun wf ledger begun expected fed => ?_⟩
        refine rest (wellFormed_part wf part) (ledger_part wf ledger part)
          (begun_part wf begun part) (expected_part expected part) ?_
        refine fed_part wf ledger fed part (fun buf there => noUdp buf (later.handled.subset there))
          (fun r waits issued => ?_) fun buf answering start session => ?_
        · apply dataOf_eq_nil
          intro buf there same isData
          -- the session would have gone to two connections
          obtain ⟨r', old⟩ := expected buf (.inl there) isData
          rw [same] at old
          have new : Issue.tcp s r ∈ k.issued := by
            rw [issued]
            exact List.mem_append_right _ List.mem_cons_self
          have isSame := once s r r' (later.issued.subset new)
            (later.issued.subset (grows.issued.subset old))
          exact (begun s r' old).2 (isSame ▸ waits)
        · have brought := answering.brought.grows (grows.trans later)
          rw [start] at brought
          exact absurd ⟨_, brought⟩ unwelcome
      · have grows := grows_udpPart part
        refine ⟨grows.trans later, fun wf ledger begun expected fed => ?_⟩
        exact rest (wellFormed_udpPart wf part) (ledger_udpPart wf ledger part)
          (begun_udpPart begun part) (expected_udpPart expected part)
          (fed_udpPart wf ledger fed part)
  · exact fed_outside wf ledger fed outside

end Node

end SslSocks
