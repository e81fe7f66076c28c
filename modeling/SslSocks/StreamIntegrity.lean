import SslSocks.SessionStreams
import SslSocks.SslStreams
import SslSocks.TrafficKinds

/-!
# The two streams of a session

What the client of a session sends is read by its raw_tcp on the local side, goes through an
ssl connection, and is written by the raw_tcp of the session at the other end; what that one
reads comes back the same way. `streams_intact` says that in every run under the condition of
`SslStreams`, on both sides, what is written at either end of a session begins what was read at
the other. `streams_broken` is a run that violates the condition: the local ssl relay is
stopped while it resolves, drops a message, and is revived.
-/

namespace SslSocks

open Lib

namespace Node

variable {n m : Node} {s : UInt32} {r : RelayId}

/-! ## No datagrams -/

theorem noPackets_reach {n₀ : Node} (starts : Starts n₀) (run : Reach step StreamMeets n₀ n) :
    ∀ src buf, .sendUdpData src buf ∉ n.strand := by
  refine parts_rule (P := fun n => ∀ src buf, .sendUdpData src buf ∉ n.strand)
    starts.wellFormed run ?_ ?_ ?_ ?_
  · intro src buf there
    cases starts <;> cases there
  · exact fun _ none part src buf there => none src buf ((strand_part part).subset there)
  · exact fun _ none part src buf there => none src buf ((strand_udpPart part).subset there)
  · intro k a m _ none meets outside src buf there
    cases outside with
    | accept =>
      rcases List.mem_append.mp there with old | new
      · exact none src buf old
      · cases List.mem_singleton.mp new
    | udpPacket => exact meets
    | release => exact none src buf there
    | relay =>
      rcases List.mem_append.mp there with old | new
      · exact none src buf old
      · obtain ⟨out, _, is⟩ := List.mem_filterMap.mp new
        cases out <;> cases is

/-- No session goes to a source. -/
theorem noSources_reach {n₀ : Node} (starts : Starts n₀) (run : Reach step StreamMeets n₀ n)
    (s : UInt32) (src : Endpoint) : Issue.udp s src ∉ n.issued := by
  refine run.invariant (P := fun n => Issue.udp s src ∉ n.issued) ?_ ?_
  · intro there
    cases starts <;> cases there
  intro n a m before none _ stepped there
  rw [(counts_step stepped).issued] at there
  rcases List.mem_append.mp there with old | new
  · exact none old
  · have drawn : n.draws a = some (.udp s src) := Option.mem_toList.mp new
    unfold draws at drawn
    split at drawn
    · split at drawn
      · split at drawn <;> cases drawn
      · rename_i head
        obtain ⟨strand, queue⟩ := List.head?_eq_some_iff.mp head
        exact noPackets_reach starts before _ _ (queue ▸ List.mem_cons_self)
      · cases drawn
    · cases drawn

/-- A request for a connection or with its data comes from a raw_tcp of that session. -/
theorem home_of_request {n₀ : Node} (starts : Starts n₀) (run : Reach step StreamMeets n₀ n)
    {q : Request} (there : q ∈ n.requests) (isFor : q.buf.For .rawTcp) :
    ∃ r, q.relay = some r ∧ q.buf ∈ (n.objs r).log.emitted ∧ n.Home q.buf.session r := by
  cases relay : q.relay with
  | none =>
    rcases (ownAsks_reach starts run q there relay).2 with stop | ⟨isUdp, _⟩
    · rcases isFor with start | isData
      · cases stop.symm.trans start
      · cases stop.symm.trans isData
    · rcases isFor with start | isData
      · cases isUdp.symm.trans start
      · cases isUdp.symm.trans isData
  | some r =>
    obtain ⟨known, emitted, asks⟩ := asks_of_request starts run there relay
    refine ⟨r, rfl, emitted, known, ?_, (asks.own _ emitted).1.symm⟩
    cases kind : (n.objs r).kind with
    | ssl =>
      rw [asks.ssl kind] at emitted
      cases emitted
    | rawUdp =>
      have isUdp := (asks.udp kind _ emitted).2
      rcases isFor with start | isData
      · cases isUdp.symm.trans start
      · cases isUdp.symm.trans isData
    | rawTcp => rfl

/-- A datagram comes from a raw_udp of the remote side. -/
theorem udp_of_request {n₀ : Node} (starts : Starts n₀) (run : Reach step StreamMeets n₀ n)
    {q : Request} (there : q ∈ n.requests) (isUdp : q.buf.cmd = .dataUdp) :
    n.type = .remoteServer ∧ ∃ r, r < n.next ∧ (n.objs r).kind = .rawUdp := by
  cases relay : q.relay with
  | none =>
    rcases (ownAsks_reach starts run q there relay).2 with stop | ⟨_, src, issued⟩
    · cases stop.symm.trans isUdp
    · exact absurd issued (noSources_reach starts run _ src)
  | some r =>
    obtain ⟨known, emitted, asks⟩ := asks_of_request starts run there relay
    have type := (wellFormed_reach starts.wellFormed run).type known
    cases kind : (n.objs r).kind with
    | ssl =>
      rw [asks.ssl kind] at emitted
      cases emitted
    | rawUdp => exact ⟨type.symm.trans (asks.udp kind _ emitted).1, r, known, kind⟩
    | rawTcp =>
      rcases asks.tcp kind _ emitted with isData | stop | ⟨_, start, _⟩
      · cases isUdp.symm.trans isData
      · cases isUdp.symm.trans stop
      · cases isUdp.symm.trans start

/-- Nothing was asked by a relay before its `START_TCP`. -/
theorem starts_once (ledger : n.Ledger) (asks : (n.objs r).Asks) {before after : List Request}
    {q : Request} (requests : n.requests = before ++ q :: after) (relay : q.relay = some r)
    (start : q.buf.cmd = .startTcp) {earlier : Request} (there : earlier ∈ before) :
    earlier.relay ≠ some r := by
  intro isSame
  have first : earlier.buf ∈ before.filterMap (Request.askedBy r) :=
    List.mem_filterMap.mpr ⟨earlier, there, if_pos isSame⟩
  have here : q.askedBy r = some q.buf := if_pos relay
  have asked : n.requestsBy r = before.filterMap (Request.askedBy r) ++
      q.buf :: after.filterMap (Request.askedBy r) := by
    unfold requestsBy
    rw [requests, List.filterMap_append, List.filterMap_cons, here]
  obtain ⟨head, rest, is⟩ := List.exists_cons_of_ne_nil (List.ne_nil_of_mem first)
  have emitted := ledger.asked r
  rw [asked, is] at emitted
  apply asks.once q.buf ?_ start
  rw [← emitted]
  simp

/-- The data of a session among the requests is that of its connection. -/
theorem dataOf_requests {qs : List Request}
    (own : ∀ q ∈ qs, q.buf.cmd = .dataTcp → q.buf.session = s → q.relay = some r) :
    dataOf s (qs.map Request.buf) = dataOf s (qs.filterMap (Request.askedBy r)) := by
  apply dataOf_filterMap
  intro q there
  by_cases relay : q.relay = some r
  · exact .inl (if_pos relay)
  · exact .inr ⟨if_neg relay, fun ⟨isData, session⟩ => relay (own q there isData session)⟩

/-- The data of a session that was handled is that of one ssl relay. -/
theorem dataOf_answers {k : RelayId}
    (own : ∀ entry ∈ n.answered, entry.2.cmd = .dataTcp → entry.2.session = s → entry.1 = k) :
    dataOf s n.handled = dataOf s (n.answersOf k) := by
  apply dataOf_filterMap
  intro entry there
  by_cases relay : entry.1 = k
  · exact .inl (if_pos relay)
  · exact .inr ⟨if_neg relay, fun ⟨isData, session⟩ => relay (own entry there isData session)⟩

/-- The data of the session that a connection asks with is what it read. -/
theorem dataOf_emitted (asks : (n.objs r).Asks) (home : n.Home s r) :
    (dataOf s (n.objs r).log.emitted).flatMap Frame.payload = (n.objs r).log.readLog := by
  rw [← asks.bytes home.tcp]
  unfold dataOf Relay.tcpText
  congr 1
  apply List.filter_congr
  intro buf there
  have session : buf.session = s := (asks.own buf there).1.trans home.session
  rw [session]
  simp only [and_true]

/-- What was handled came from the ssl connections. -/
theorem handled_answersOf (ledger : n.Ledger) (live : RelaysLive n) {k : RelayId}
    (only : ∀ j, j < n.next → (n.objs j).kind = .ssl → j = k) : n.handled = n.answersOf k := by
  unfold handled answersOf
  rw [← List.filterMap_eq_map]
  apply List.filterMap_congr
  intro entry there
  have isThere : entry.2 ∈ n.answersOf entry.1 ++ n.responsesOf entry.1 := by
    apply List.mem_append_left
    exact List.mem_filterMap.mpr ⟨entry, there, if_pos rfl⟩
  obtain ⟨known, ssl, _⟩ := delivered_of_answer ledger live isThere
  rw [only entry.1 known ssl, if_pos rfl]
  rfl

end Node

namespace System

/-- The condition on the ssl relays of both sides. -/
def StreamsMeet (y : System) : SystemAction → Prop
  | .loc a => y.loc.StreamMeets a
  | .rem k a => (y.rem k).StreamMeets a

instance (y : System) : DecidablePred y.StreamsMeet
  | .loc a => inferInstanceAs (Decidable (y.loc.StreamMeets a))
  | .rem k a => inferInstanceAs (Decidable ((y.rem k).StreamMeets a))

variable {y z : System} {type : ServerType} {s : UInt32} {k r : RelayId}

theorem loc_streams (run : Reach step StreamsMeet (init type) y) :
    Reach Node.step Node.StreamMeets (.initLocal type) y.loc := loc_reach run fun _ meets => meets

theorem rem_streams (run : Reach step StreamsMeet (init type) y) (k : RelayId) :
    Reach Node.step Node.StreamMeets .initRemote (y.rem k) := rem_reach run k fun _ meets => meets

section Streams

variable (localSide : type ≠ .remoteServer) (run : Reach step StreamsMeet (init type) y)

include localSide run

/-! ## From one side to the other -/

/-- The requests of the local side that a remote manager has handled follow each other. -/
theorem handled_down (k : RelayId) : ∃ before mid after, y.loc.requests = before ++ mid ++ after ∧
    (∀ q ∈ mid, q.ssl = some k) ∧ (y.rem k).handled <+: mid.map Request.buf := by
  have starts : Node.Starts (.initLocal type) := .localSide localSide
  have joined := joined_reach localSide run
  obtain ⟨_, ledger, live⟩ := joined.soundRem k
  have handled : (y.rem k).handled = (y.rem k).answersOf 0 :=
    Node.handled_answersOf ledger live fun j known ssl => Node.remote_ssl (joined.rem k) known ssl
  have begins : (y.rem k).handled <+: ((y.rem k).objs 0).log.delivered := by
    rw [handled, ← ledger.answered 0]
    exact List.prefix_append _ _
  by_cases connected : k < y.loc.next ∧ (y.loc.objs k).kind = .ssl
  · obtain ⟨pre, _, _, mid, post, requests, all, written, _⟩ :=
      Node.conveys_reach starts (loc_streams run) connected.1 connected.2
    refine ⟨pre, mid, post, requests, all, begins.trans ?_⟩
    apply joined.delivered_down k fun _ _ => written
    intro buf there
    obtain ⟨q, isThere, rfl⟩ := List.mem_map.mp there
    apply Node.requests_fit starts joined.loc
    rw [requests]
    exact List.mem_append_left _ (List.mem_append_right _ isThere)
  · have nothing : ((y.rem k).objs 0).log.delivered <+: [] := by
      apply joined.delivered_down k fun known ssl => absurd ⟨known, ssl⟩ connected
      exact fun _ there => absurd there List.not_mem_nil
    refine ⟨[], [], y.loc.requests, rfl, fun _ there => absurd there List.not_mem_nil, ?_⟩
    exact begins.trans nothing

/-- What a remote manager has handled was asked for at the local side. -/
theorem asked_of_handled {buf : Frame} (there : buf ∈ (y.rem k).handled) :
    ∃ q ∈ y.loc.requests, q.buf = buf ∧ q.ssl = some k := by
  obtain ⟨before, mid, after, requests, all, begins⟩ := handled_down localSide run k
  obtain ⟨q, isThere, rfl⟩ := List.mem_map.mp (begins.subset there)
  refine ⟨q, ?_, rfl, all q isThere⟩
  rw [requests]
  exact List.mem_append_left _ (List.mem_append_right _ isThere)

/-- The requests of a remote manager that the local side has from its connection are the
first. -/
theorem delivered_up (known : k < y.loc.next) (ssl : (y.loc.objs k).kind = .ssl) :
    (y.loc.objs k).log.delivered <+: (y.rem k).requests.map Request.buf := by
  have joined := joined_reach localSide run
  obtain ⟨first, isSsl⟩ := joined.rem_ssl k
  obtain ⟨pre, start, _, mid, post, requests, all, written, _⟩ :=
    Node.conveys_reach .remote (rem_streams run k) first isSsl
  obtain rfl : pre = [] := start Nat.zero_lt_one
  rw [List.nil_append] at requests
  have begins : mid.map Request.buf <+: (y.rem k).requests.map Request.buf := by
    rw [requests]
    exact (List.prefix_append _ _).map _
  refine (joined.delivered_up localSide known ssl written fun buf there => ?_).trans begins
  obtain ⟨q, isThere, rfl⟩ := List.mem_map.mp there
  apply Node.requests_fit .remote (joined.rem k)
  rw [requests]
  exact List.mem_append_left _ isThere

/-! ## Who has a session -/

/-- A request of the local side comes from the connection that got the session. -/
theorem issued_of_request {q : Request} (there : q ∈ y.loc.requests) (isFor : q.buf.For .rawTcp) :
    ∃ r, q.relay = some r ∧ q.buf ∈ (y.loc.objs r).log.emitted ∧
      Issue.tcp q.buf.session r ∈ y.loc.issued := by
  have starts : Node.Starts (.initLocal type) := .localSide localSide
  have joined := joined_reach localSide run
  obtain ⟨r, relay, emitted, home⟩ :=
    Node.home_of_request starts (loc_streams run) there isFor
  refine ⟨r, relay, emitted, ?_⟩
  rcases (Node.traced_reach localSide joined.loc).relays home.known home.tcp with
    issued | mute | welcomed
  · exact home.session ▸ issued
  · rw [mute.emitted] at emitted
    cases emitted
  · exact absurd welcomed (joined.unwelcome localSide)

/-- A message for a connection that a remote manager has handled. -/
theorem request_of_handled {buf : Frame} (there : buf ∈ (y.rem k).handled)
    (isFor : buf.For .rawTcp) : ∃ q ∈ y.loc.requests, q.buf = buf ∧ q.ssl = some k ∧
      ∃ r, q.relay = some r ∧ buf ∈ (y.loc.objs r).log.emitted ∧
        Issue.tcp buf.session r ∈ y.loc.issued := by
  obtain ⟨q, asked, rfl, ssl⟩ := asked_of_handled localSide run there
  exact ⟨q, asked, rfl, ssl, issued_of_request localSide run asked isFor⟩

/-- A connection of a remote side was asked for. -/
theorem start_of_home (home : (y.rem k).Home s r) :
    ∃ start ∈ (y.rem k).handled, start.cmd = .startTcp ∧ start.session = s := by
  have joined := joined_reach localSide run
  obtain ⟨⟨j, start⟩, there, isStart, session⟩ :=
    @Node.Made.relays _ (Node.made_reach (joined.rem k)) r .startTcp home.known (by rw [home.tcp]; rfl)
  exact ⟨start, List.mem_map.mpr ⟨(j, start), there, rfl⟩, isStart, session.trans home.session⟩

/-- Every `START_TCP` that came to a remote manager can be read. -/
theorem noBadStart (k : RelayId) : ¬ (y.rem k).BadStart := by
  intro bad
  have joined := joined_reach localSide run
  obtain ⟨⟨j, buf⟩, there, start, refused⟩ := bad
  replace start : buf.cmd = .startTcp := start
  obtain ⟨_, _, _, _, r, _, emitted, issued⟩ := request_of_handled localSide run
    (List.mem_map.mpr ⟨(j, buf), there, rfl⟩) (.inl start)
  have home := Node.housed_reach joined.loc _ r issued
  have asks := ((joined.soundLoc localSide).live r home.known).asks
  rcases asks.tcp home.tcp buf emitted with isData | stop | ⟨_, connects⟩
  · cases start.symm.trans isData
  · cases start.symm.trans stop
  · exact Bool.false_ne_true (refused.symm.trans connects.2.2)

/-- The data that came to the local side is that of a connection of the remote side. -/
theorem home_of_answer {buf : Frame}
    (there : buf ∈ y.loc.answersOf k ++ y.loc.responsesOf k) (isData : buf.cmd = .dataTcp) :
    ∃ r, (y.rem k).Home buf.session r := by
  obtain ⟨_, ledger, live⟩ := (joined_reach localSide run).soundLoc localSide
  obtain ⟨known, ssl, delivered⟩ := Node.delivered_of_answer ledger live there
  obtain ⟨q, asked, rfl⟩ :=
    List.mem_map.mp ((delivered_up localSide run known ssl).subset delivered)
  obtain ⟨r, _, _, home⟩ :=
    Node.home_of_request .remote (rem_streams run k) asked (.inr isData)
  exact ⟨r, home⟩

/-- No datagram comes to a remote manager. -/
theorem noUdp_down (k : RelayId) : ∀ buf ∈ (y.rem k).handled, buf.cmd ≠ .dataUdp := by
  intro buf there isUdp
  have starts : Node.Starts (.initLocal type) := .localSide localSide
  have joined := joined_reach localSide run
  obtain ⟨q, asked, rfl, _⟩ := asked_of_handled localSide run there
  have remote := (Node.udp_of_request starts (loc_streams run) asked isUdp).1
  exact Node.localSide_reach localSide joined.loc remote

/-- Nor to the local side. -/
theorem noUdp_up : ∀ buf ∈ y.loc.handled, buf.cmd ≠ .dataUdp := by
  intro buf there isUdp
  have joined := joined_reach localSide run
  obtain ⟨_, ledger, live⟩ := joined.soundLoc localSide
  obtain ⟨⟨k, _⟩, answered, rfl⟩ := List.mem_map.mp there
  obtain ⟨known, ssl, delivered⟩ :=
    Node.delivered_of_answer (k := k) ledger live
      (List.mem_append_left _ (List.mem_filterMap.mpr ⟨_, answered, if_pos rfl⟩))
  obtain ⟨q, asked, is⟩ :=
    List.mem_map.mp ((delivered_up localSide run known ssl).subset delivered)
  obtain ⟨_, r, made, udp⟩ :=
    Node.udp_of_request .remote (rem_streams run k) asked (is ▸ isUdp)
  obtain ⟨⟨j, first⟩, brought, isFirst, _⟩ :=
    @Node.Made.relays _ (Node.made_reach (joined.rem k)) r .dataUdp made (by rw [udp]; rfl)
  exact noUdp_down localSide run k first (List.mem_map.mpr ⟨_, brought, rfl⟩) isFirst

/-- The data that came to the local side is for sessions that were handed out. -/
theorem expected_loc : y.loc.Expected := by
  intro buf there isData
  have here : ∃ k, buf ∈ y.loc.answersOf k ++ y.loc.responsesOf k := by
    rcases there with handled | ⟨k, waits⟩
    · obtain ⟨⟨k, _⟩, answered, rfl⟩ := List.mem_map.mp handled
      exact ⟨k, List.mem_append_left _ (List.mem_filterMap.mpr ⟨_, answered, if_pos rfl⟩)⟩
    · exact ⟨k, List.mem_append_right _ (List.mem_filterMap.mpr ⟨_, waits, if_pos rfl⟩)⟩
  obtain ⟨k, here⟩ := here
  obtain ⟨r, home⟩ := home_of_answer localSide run here isData
  obtain ⟨start, handled, isStart, session⟩ := start_of_home localSide run home
  obtain ⟨_, _, _, _, r, _, _, issued⟩ :=
    request_of_handled localSide run handled (.inl isStart)
  exact ⟨r, session ▸ issued⟩

/-! ## The connection of a session -/

section Few

variable (few : y.loc.allocated < 2 ^ 32)

include few

/-- A message for the connection of a session was asked for by that connection. -/
theorem asks_once (issued : Issue.tcp s r ∈ y.loc.issued) {q : Request}
    (there : q ∈ y.loc.requests) (isFor : q.buf.For .rawTcp) (session : q.buf.session = s) :
    q.relay = some r := by
  obtain ⟨r', relay, _, issued'⟩ := issued_of_request localSide run there isFor
  rw [session] at issued'
  rw [relay, Node.issued_once (loc_streams run) few issued issued']

/-- Before the `START_TCP` of a session its connection asked for nothing. -/
theorem asks_first (issued : Issue.tcp s r ∈ y.loc.issued) {before after : List Request}
    {q : Request} (requests : y.loc.requests = before ++ q :: after) (start : q.buf.cmd = .startTcp)
    (session : q.buf.session = s) {earlier : Request} (there : earlier ∈ before) :
    earlier.relay ≠ some r := by
  obtain ⟨_, ledger, live⟩ := (joined_reach localSide run).soundLoc localSide
  have asked : q ∈ y.loc.requests := requests ▸ List.mem_append_right _ List.mem_cons_self
  have relay := asks_once localSide run few issued asked (.inl start) session
  have known := (Node.emitted_of_request ledger asked relay).2
  exact Node.starts_once ledger (live r known).asks requests relay start there

/-- What came to a remote manager for a session begins with its `START_TCP`. -/
theorem opensFirst_down (k : RelayId) (s : UInt32) : OpensFirst s (y.rem k).handled := by
  obtain ⟨pre, mid, post, requests, _, begins⟩ := handled_down localSide run k
  refine OpensFirst.of_prefix (fun before start after is isStart session buf there same isFor => ?_)
    begins
  obtain ⟨mid₁, mid₂, split, rfl, later⟩ := List.map_eq_append_iff.mp is
  obtain ⟨q, mid₃, rfl, rfl, rfl⟩ := List.map_eq_cons_iff.mp later
  obtain ⟨p, isThere, rfl⟩ := List.mem_map.mp there
  have order : y.loc.requests = (pre ++ mid₁) ++ q :: (mid₃ ++ post) := by
    rw [requests, split]
    simp only [List.append_assoc, List.cons_append]
  have asked : p ∈ y.loc.requests := by
    rw [order]
    exact List.mem_append_left _ (List.mem_append_right _ isThere)
  obtain ⟨r, relay, _, issued⟩ := issued_of_request localSide run asked isFor
  rw [same] at issued
  exact asks_first localSide run few issued order isStart session
    (List.mem_append_right _ isThere) relay

/-- A session was opened at one remote manager. -/
theorem start_once {j : RelayId} {first second : Frame} (there : first ∈ (y.rem j).handled)
    (there' : second ∈ (y.rem k).handled) (start : first.cmd = .startTcp)
    (start' : second.cmd = .startTcp) (session : first.session = second.session) : j = k := by
  obtain ⟨q, asked, rfl, ssl, r, relay, _, issued⟩ :=
    request_of_handled localSide run there (.inl start)
  obtain ⟨q', asked', rfl, ssl', _⟩ := request_of_handled localSide run there' (.inl start')
  rw [session] at issued
  have relay' := asks_once localSide run few issued asked' (.inl start') rfl
  obtain ⟨before, after, requests⟩ := List.append_of_mem asked
  rw [requests] at asked'
  rcases List.mem_append.mp asked' with earlier | later
  · exact absurd relay' (asks_first localSide run few issued requests start session earlier)
  · rcases List.mem_cons.mp later with rfl | later
    · exact Option.some.inj (ssl.symm.trans ssl')
    · obtain ⟨between, rest, rfl⟩ := List.append_of_mem later
      have order : y.loc.requests = (before ++ q :: between) ++ q' :: rest := by
        rw [requests, List.append_assoc, List.cons_append]
      exact absurd relay (asks_first localSide run few issued order start' rfl
        (List.mem_append_right _ List.mem_cons_self))

/-- **The bytes of the client**: what a connection of a remote side wrote begins what was read
from the client of its session. -/
theorem writes_down (home : (y.rem k).Home s r) :
    ∃ a, Issue.tcp s a ∈ y.loc.issued ∧
      ((y.rem k).objs r).log.written <+: (y.loc.objs a).log.readLog := by
  have joined := joined_reach localSide run
  obtain ⟨_, ledger, live⟩ := joined.soundLoc localSide
  obtain ⟨start, handled, isStart, session⟩ := start_of_home localSide run home
  obtain ⟨_, _, _, _, a, _, _, issued⟩ := request_of_handled localSide run handled (.inl isStart)
  rw [session] at issued
  refine ⟨a, issued, ?_⟩
  have client := Node.housed_reach joined.loc s a issued
  obtain ⟨pre, mid, post, requests, _, begins⟩ := handled_down localSide run k
  have asked {q : Request} (there : q ∈ mid) : q ∈ y.loc.requests := by
    rw [requests]
    exact List.mem_append_left _ (List.mem_append_right _ there)
  -- the first request of the client lies among those that came
  have first : pre.filterMap (Request.askedBy a) = [] := by
    obtain ⟨q, isThere, rfl⟩ := List.mem_map.mp (begins.subset handled)
    obtain ⟨mid₁, mid₂, rfl⟩ := List.append_of_mem isThere
    have order : y.loc.requests = (pre ++ mid₁) ++ q :: (mid₂ ++ post) := by
      rw [requests]
      simp only [List.append_assoc, List.cons_append]
    refine List.filterMap_eq_nil_iff.mpr fun p there => if_neg ?_
    exact asks_first localSide run few issued order isStart session (List.mem_append_left _ there)
  have emitted : mid.filterMap (Request.askedBy a) <+: (y.loc.objs a).log.emitted := by
    rw [← ledger.asked a]
    unfold Node.requestsBy
    rw [requests, List.filterMap_append, List.filterMap_append, first, List.nil_append,
      List.append_assoc, List.append_assoc]
    exact List.prefix_append _ _
  have data : dataOf s (y.rem k).handled <+: dataOf s (y.loc.objs a).log.emitted := by
    refine (dataOf_mono begins).trans ?_
    rw [Node.dataOf_requests fun q there isData same =>
      asks_once localSide run few issued (asked there) (.inr isData) same]
    exact dataOf_mono emitted
  have fed := Node.fed_remote (joined.rem k) (noUdp_down localSide run k)
    (opensFirst_down localSide run few k s)
  have timely : ((y.rem k).objs r).log.late = false :=
    (Node.timely_remote (joined.rem k) r home.known home.tcp).resolve_right
      (noBadStart localSide run k)
  rw [← Node.dataOf_emitted (live a client.known).asks client]
  have lives := (joined.soundRem k).live r home.known
  refine (lives.written_given home.tcp (.inl timely)).trans ?_
  exact ((fed.begins r home).trans data).flatMap Frame.payload

/-- The local side gave its connections the first of the data that came. -/
theorem fed_loc (s : UInt32) : Node.Fed s y.loc := by
  have starts : Node.Starts (.initLocal type) := .localSide localSide
  refine run.invariant (P := fun y => y.loc.allocated < 2 ^ 32 → Node.Fed s y.loc)
    (fun _ => Node.fed_start starts) (fun {t a t'} before fed meets stepped few => ?_) few
  have after : Reach step StreamsMeet (init type) t' := before.tail meets stepped
  have joined := joined_reach localSide before
  cases a with
  | rem k a =>
    obtain ⟨_, n, _, rfl⟩ := step_rem stepped
    exact fed few
  | loc a =>
    obtain ⟨_, n, step, rfl⟩ := step_loc stepped
    obtain ⟨wf, ledger, _⟩ := joined.soundLoc localSide
    have old := fed (Nat.lt_of_le_of_lt (Node.allocated_le_step step) few)
    refine Node.fed_local wf ledger (Node.begun_reach joined.loc)
      (expected_loc localSide before) old step (noUdp_up localSide after)
      ((joined_reach localSide after).unwelcome localSide) fun s r r' issued issued' => ?_
    exact Node.issued_once (loc_streams after) few issued issued'

/-- **The bytes of the server**: what the connection of a session wrote to its client begins
what was read at the other end. -/
theorem writes_up {a : RelayId} (issued : Issue.tcp s a ∈ y.loc.issued)
    (home : (y.rem k).Home s r) :
    (y.loc.objs a).log.written <+: ((y.rem k).objs r).log.readLog := by
  have joined := joined_reach localSide run
  obtain ⟨wf, ledger, live⟩ := joined.soundLoc localSide
  obtain ⟨_, sent, remote⟩ := joined.soundRem k
  have client := Node.housed_reach joined.loc s a issued
  -- the data came from the manager at which the session was opened
  have own (entry : RelayId × Frame) (there : entry ∈ y.loc.answered)
      (isData : entry.2.cmd = .dataTcp) (session : entry.2.session = s) : entry.1 = k := by
    have answer : entry.2 ∈ y.loc.answersOf entry.1 ++ y.loc.responsesOf entry.1 :=
      List.mem_append_left _ (List.mem_filterMap.mpr ⟨entry, there, if_pos rfl⟩)
    obtain ⟨b, home'⟩ := home_of_answer localSide run answer isData
    obtain ⟨first, handled, start, isFirst⟩ := start_of_home localSide run home'
    obtain ⟨second, handled', start', isSecond⟩ := start_of_home localSide run home
    exact start_once localSide run few handled handled' start start'
      (isFirst.trans (session.trans isSecond.symm))
  have data : dataOf s y.loc.handled <+: dataOf s ((y.rem k).objs r).log.emitted := by
    by_cases nothing : dataOf s y.loc.handled = []
    · rw [nothing]
      exact List.nil_prefix
    · obtain ⟨buf, there⟩ := List.exists_mem_of_ne_nil _ nothing
      obtain ⟨handled, isData, session⟩ := mem_dataOf.mp there
      obtain ⟨entry, answered, rfl⟩ := List.mem_map.mp handled
      obtain ⟨known, ssl, _⟩ := Node.delivered_of_answer (k := entry.1) ledger live
        (List.mem_append_left _ (List.mem_filterMap.mpr ⟨entry, answered, if_pos rfl⟩))
      rw [own entry answered isData session] at known ssl
      rw [Node.dataOf_answers own]
      have begins : y.loc.answersOf k <+: (y.loc.objs k).log.delivered := by
        rw [← ledger.answered k]
        exact List.prefix_append _ _
      refine (dataOf_mono (begins.trans (delivered_up localSide run known ssl))).trans ?_
      rw [Node.dataOf_requests fun q isThere isData same => ?_]
      · apply dataOf_mono
        rw [← sent.asked r, List.append_assoc]
        exact List.prefix_append _ _
      · obtain ⟨b, relay, _, home'⟩ :=
          Node.home_of_request .remote (rem_streams run k) isThere (.inr isData)
        rw [same] at home'
        rw [relay, Node.lone_remote (joined.rem k) (noUdp_down localSide run k)
          (opensFirst_down localSide run few k s) home' home]
  rw [← Node.dataOf_emitted (remote r home.known).asks home]
  refine ((live a client.known).written_given client.tcp (.inr ?_)).trans ?_
  · rw [wf.type client.known]
    exact Node.localSide_reach localSide joined.loc
  · exact (((fed_loc localSide run few s).begins a client).trans data).flatMap Frame.payload

/-- Without a connection at the other end nothing is written to the client. -/
theorem writes_nothing {a : RelayId} (issued : Issue.tcp s a ∈ y.loc.issued)
    (homeless : ∀ k r, ¬ (y.rem k).Home s r) : (y.loc.objs a).log.written = [] := by
  have joined := joined_reach localSide run
  obtain ⟨wf, _, live⟩ := joined.soundLoc localSide
  have client := Node.housed_reach joined.loc s a issued
  have nothing : dataOf s y.loc.handled = [] := by
    apply dataOf_eq_nil
    intro buf there session isData
    obtain ⟨⟨k, _⟩, answered, rfl⟩ := List.mem_map.mp there
    obtain ⟨r, home⟩ := home_of_answer localSide run (k := k)
      (List.mem_append_left _ (List.mem_filterMap.mpr ⟨_, answered, if_pos rfl⟩)) isData
    exact homeless k r (session ▸ home)
  have given := (fed_loc localSide run few s).begins a client
  rw [nothing] at given
  have written := (live a client.known).written_given client.tcp (.inr ?_)
  · rw [show (y.loc.objs a).log.given = [] from List.prefix_nil.mp given] at written
    exact List.prefix_nil.mp written
  · rw [wf.type client.known]
    exact Node.localSide_reach localSide joined.loc

end Few

end Streams

/-- **The streams of a session.** In every run under the condition, with fewer than 2^32
sessions, a raw_tcp of a remote side belongs to a session that a client got; what it wrote
begins what was read from that client, and what was written to the client begins what it read,
and is nothing when the session has no raw_tcp there. -/
theorem streams_intact (localSide : type ≠ .remoteServer)
    (run : Reach step StreamsMeet (init type) y) (few : y.loc.allocated < 2 ^ 32) (s : UInt32) :
    (∀ k r, (y.rem k).Home s r → ∃ a, Issue.tcp s a ∈ y.loc.issued) ∧
    ∀ a, Issue.tcp s a ∈ y.loc.issued →
      (∀ k r, (y.rem k).Home s r →
        ((y.rem k).objs r).log.written <+: (y.loc.objs a).log.readLog ∧
        (y.loc.objs a).log.written <+: ((y.rem k).objs r).log.readLog) ∧
      ((∀ k r, ¬ (y.rem k).Home s r) → (y.loc.objs a).log.written = []) := by
  refine ⟨fun k r home => ?_, fun a issued => ⟨fun k r home => ⟨?_, ?_⟩, fun homeless => ?_⟩⟩
  · obtain ⟨a, issued, _⟩ := writes_down localSide run few home
    exact ⟨a, issued⟩
  · obtain ⟨b, issued', begins⟩ := writes_down localSide run few home
    rw [Node.issued_once (loc_streams run) few issued issued']
    exact begins
  · exact writes_up localSide run few issued home
  · exact writes_nothing localSide run few issued homeless

/-! ## Runs -/

/-- Something comes from the client, and its raw_tcp asks for it. -/
def clientSends (bytes : List UInt8) : List SystemAction :=
  [.loc (.relay 1 (.arrive (.stream bytes))), .loc (.relay 1 .read)]

/-- The request reaches the ssl relay, which begins to send. -/
def passes : List SystemAction :=
  [.loc (.manager {}), .loc (.relay 2 .task), .loc (.relay 2 (.startSend 0))]

/-- The raw_tcp at the other end connects and writes the first byte. -/
def serverGets : List SystemAction :=
  [.rem 2 (.relay 1 (.startup true)), .rem 2 (.relay 1 (.startup true)), .rem 2 (.relay 1 .task),
    .rem 2 (.relay 1 (.startSend 0)), .rem 2 (.relay 1 (.take 1))]

/-- The server answers, and the answer is written to the client. -/
def answer (buf : Frame) : List SystemAction :=
  [.rem 2 (.relay 1 (.arrive (.stream buf.payload))), .rem 2 (.relay 1 .read),
    .rem 2 (.manager {}), .rem 2 (.relay 0 .task), .rem 2 (.relay 0 (.startSend 0)),
    .rem 2 (.relay 0 (.take buf.encode.length)), .rem 2 (.relay 0 (.sent 0)),
    .loc (.relay 2 (.arrive (.stream (buf.encode.take headerSize)))), .loc (.relay 2 .read),
    .loc (.relay 2 (.arrive (.stream (buf.encode.drop headerSize)))), .loc (.relay 2 .read),
    .loc (.manager {}), .loc (.relay 1 .task), .loc (.relay 1 .task),
    .loc (.relay 1 (.startSend 0)), .loc (.relay 1 (.take 1))]

/-- A byte goes each way. -/
theorem streams_intact_exchange :
    ∃ y, Reach step StreamsMeet (init .localTransparent) y ∧
      ((y.rem 2).objs 1).log.written = [7] ∧ (y.loc.objs 1).log.written = [9] ∧
      ((y.rem 2).objs 1).log.written <+: (y.loc.objs 1).log.readLog ∧
      (y.loc.objs 1).log.written <+: ((y.rem 2).objs 1).log.readLog := by
  have run := @Reach.of_isSome _ _ step StreamsMeet (init .localTransparent) _
    (connection ++ connectSsl 2 1 ++ carry 2 (opening 1) ++ clientSends [7] ++ passes ++
      carry 2 ⟨1, .dataTcp, [7]⟩ ++ serverGets ++ answer ⟨1, .dataTcp, [9]⟩) (by decide +kernel)
  have localSide : ServerType.localTransparent ≠ .remoteServer := by decide
  have intact := (streams_intact localSide run (by decide +kernel) 1).2 1 (by decide +kernel)
  have both := intact.1 2 1 ⟨by decide +kernel, by decide +kernel, by decide +kernel⟩
  exact ⟨_, run, by decide +kernel, by decide +kernel, both⟩

/-- No UDP packet comes. -/
def NoPackets (_ : System) : SystemAction → Prop
  | .loc (.udpPacket _ _ _) => False
  | _ => True

instance (y : System) : DecidablePred y.NoPackets
  | .loc (.udpPacket _ _ _) => isFalse id
  | .loc (.accept _) | .loc (.manager _) | .loc .tick | .loc .release | .loc (.relay _ _)
  | .rem _ _ => isTrue trivial

/-- The local ssl relay expires while it resolves. A byte that is asked for after `stop_relay`
was called, and before it has run, is dropped. -/
def expiry : List SystemAction :=
  [.loc (.relay 2 .task)] ++ List.replicate (timeoutTicks - 1) (.loc .tick) ++ clientSends [7] ++
    [.loc .tick, .loc (.manager {}), .loc (.relay 2 .stop), .loc (.relay 2 .closed),
      .loc (.relay 2 .task)]

/-- **A byte is skipped**: the relay was stopped, but it connects and goes on with the messages
that it has and gets. -/
theorem streams_broken :
    ∃ y, Reach step NoPackets (init .localTransparent) y ∧ y.loc.allocated = 1 ∧
      Issue.tcp 1 1 ∈ y.loc.issued ∧ (y.rem 2).Home 1 1 ∧
      (y.loc.objs 1).log.readLog = [7, 8] ∧ ((y.rem 2).objs 1).log.written = [8] ∧
      ¬ ((y.rem 2).objs 1).log.written <+: (y.loc.objs 1).log.readLog := by
  have run := @Reach.of_isSome _ _ step NoPackets (init .localTransparent) _
    (connection ++ expiry ++ connectSsl 2 0 ++ carry 2 (opening 1) ++ clientSends [8] ++ passes ++
      carry 2 ⟨1, .dataTcp, [8]⟩ ++ serverGets) (by decide +kernel)
  exact ⟨_, run, by decide +kernel, by decide +kernel,
    ⟨by decide +kernel, by decide +kernel, by decide +kernel⟩, by decide +kernel,
    by decide +kernel, by decide +kernel⟩

end System

end SslSocks
