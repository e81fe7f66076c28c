import SslSocks.UdpAnswers
import SslSocks.UdpSender

/-!
# UDP replies from end to end

The datagrams that arrive at the raw_udps of the remote side go back through the tunnel to
`_udp_send` of the transparent proxy, and leave for the clients (`replies_relayed`): from the
address of the peer that sent them, to a source of the session that the raw_udp has. They may be
lost at every stage; none is made up, sent twice or sent to a source of another session.
-/

namespace SslSocks

open Lib

/-- The datagram that the step brings to the remote side. -/
def SystemAction.answers : SystemAction → List Answer
  | .loc _ => []
  | .rem k a => a.answers k

namespace Node

/-- No two sources have a session in common, as long as the ids do not start anew. -/
theorem oneSource_reach {C : Node → NodeAction → Prop} {type : ServerType} {n : Node}
    (run : Reach step C (initLocal type) n) (few : n.allocated + 1 < 2 ^ 32) {s : UInt32}
    {src src' : Endpoint} (first : Issue.udp s src ∈ n.issued) (second : Issue.udp s src' ∈ n.issued) :
    src = src' := by
  revert few s src src'
  refine run.invariant (P := fun n => n.allocated + 1 < 2 ^ 32 → ∀ {s src src'},
    Issue.udp s src ∈ n.issued → Issue.udp s src' ∈ n.issued → src = src') (fun _ {_ _ _} first => ?_)
    fun {t a t'} before one _ stepped few {s src src'} first second => ?_
  · cases first
  · obtain ⟨issued, _, drawn⟩ := counts_step stepped
    have counted := counted_reach before
    have fewer : t.allocated + 1 < 2 ^ 32 :=
      Nat.lt_of_le_of_lt (Nat.succ_le_succ (allocated_le_step stepped)) few
    -- an id that is drawn went to no source before
    have new {e e' : Endpoint} (draws : t.draws a = some (.udp s e))
        (old : Issue.udp s e' ∈ t.issued) : False := by
      obtain ⟨i, before, same⟩ := counted.udp ⟨_, old, rfl⟩
      have isNew : s = UInt32.ofNat (t.allocated + 2) := by
        rw [draws_udp draws, counted.counter, ofNat_succ]
      have more : t'.allocated = t.allocated + 1 := drawn (by rw [draws]; rfl)
      have value := congrArg UInt32.toNat (same.symm.trans isNew)
      rw [toNat_ofNat (by omega), toNat_ofNat (by omega)] at value
      omega
    rw [issued] at first second
    rcases List.mem_append.mp first with old | drawn
    · rcases List.mem_append.mp second with old' | drawn'
      · exact one fewer old old'
      · exact (new (Option.mem_toList.mp drawn') old).elim
    · rcases List.mem_append.mp second with old' | drawn'
      · exact (new (Option.mem_toList.mp drawn) old').elim
      · cases (Option.mem_toList.mp drawn).symm.trans (Option.mem_toList.mp drawn')
        rfl

end Node

namespace System

open Node

variable {C : System → SystemAction → Prop} {y : System} {answers : List Answer}

/-- The message that the answer becomes. -/
def answerFrame (y : System) (answer : Answer) : Frame := answer.frame (y.rem answer.conn)

/-- The answer left as this datagram. -/
def Returned (y : System) (datagram : Datagram) (answer : Answer) : Prop :=
  datagram.1 = some answer.peer ∧ datagram.2.2 = answer.bytes ∧
    PeerOf y.loc.issued ((y.rem answer.conn).objs answer.relay).session datagram.2.1

theorem addr_answerFrame (answer : Answer) :
    getDataAddr (y.answerFrame answer).payload = answer.peer := by
  show getDataAddr (udpHead (some answer.peer) ++ answer.bytes) = answer.peer
  unfold udpHead
  rw [List.append_assoc]
  exact getDataAddr_parseAddr answer.peer _

/-- What a message that is an answer goes as. -/
theorem returned_of_returns {datagram : Datagram} {answer : Answer}
    (returns : Frame.Returns y.loc.issued datagram (y.answerFrame answer)) :
    y.Returned datagram answer := by
  obtain ⟨window, left, peer⟩ := returns
  have bytes : udpWindow (y.answerFrame answer) = some answer.bytes := udpWindow_append
  exact ⟨addr_answerFrame answer ▸ left, Option.some.inj (window.symm.trans bytes), peer⟩

/-- The raw_udps of the remote side repeat what arrived. -/
theorem repeats_reach {type : ServerType} (localSide : type ≠ .remoteServer)
    (run : Trace (Trace.Shows step C SystemAction.answers) (init type) answers y) (k : RelayId) :
    Repeats k answers (y.rem k) := by
  revert k
  refine run.fold (P := Reach step C (init type))
    (R := fun answers y => ∀ k, Repeats k answers (y.rem k)) .refl (fun before one => ?_)
    (fun k => ?_) fun {t u _ shown} before repeats one k => ?_
  · obtain ⟨a, meets, stepped, _⟩ := one
    exact before.tail meets stepped
  · exact ⟨nofun, fun _ _ => nofun⟩
  · obtain ⟨a, _, stepped, rfl⟩ := one
    cases a with
    | loc a =>
      obtain ⟨_, n, _, rfl⟩ := step_loc stepped
      rw [show SystemAction.answers (.loc a) = [] from rfl, List.append_nil]
      exact repeats k
    | rem j a =>
      obtain ⟨_, n, step, rfl⟩ := step_rem stepped
      have joined := joined_reach localSide before
      obtain ⟨wf, _, live⟩ := joined.soundRem j
      by_cases same : k = j
      · subst same
        show Repeats k _ (Function.update t.rem k n k)
        rw [Function.update_self]
        exact repeats_step wf live (repeats k) step
      · show Repeats k _ (Function.update t.rem j n k)
        rw [Function.update_of_ne same]
        refine Repeats.others (repeats k) fun answer there own => same ?_
        exact own.symm.trans (of_mem_answers there).1

/-- The `DATA_UDP` that came from an ssl relay. -/
theorem came_dataUdp (deals : List Deal) (k : RelayId) :
    ((deals.filter fun deal => deal.buf.cmd = .dataUdp).filter fun deal => deal.via = k).map
      Deal.buf = (deals.filterMap (Deal.cameBy k)).filter fun buf => buf.cmd = .dataUdp := by
  induction deals with
  | nil => rfl
  | cons deal deals ih =>
    simp only [List.filter_cons, List.filterMap_cons, Deal.cameBy]
    by_cases there : deal.via = k <;> by_cases isData : deal.buf.cmd = .dataUdp <;>
      simpa [there, isData] using ih

/-- The `DATA_UDP` that the local side handled are answers, in order for each raw_udp of the
remote side. -/
theorem exists_returns {type : ServerType} (localSide : type ≠ .remoteServer)
    (run : Trace (Trace.Shows step C SystemAction.answers) (init type) answers y)
    {deals : List Deal} (divides : Divides y.loc deals) :
    ∃ pairs : List (Answer × Deal),
      pairs.map Prod.snd = deals.filter (fun deal => deal.buf.cmd = .dataUdp) ∧
      (∀ pair ∈ pairs, y.answerFrame pair.1 = pair.2.buf) ∧
      ∀ k r, ((pairs.map Prod.fst).filter (Answer.At k r)).Sublist
        (answers.filter (Answer.At k r)) := by
  have joined := joined_reach localSide run.reach
  choose sent frames conn order using fun k =>
    exists_answers (joined.rem k) (repeats_reach localSide run k)
  have fewer (k : RelayId) :
      (((deals.filter fun deal => deal.buf.cmd = .dataUdp).filter fun deal => deal.via = k).map
        Deal.buf).Sublist ((sent k).map y.answerFrame) := by
    have images : (sent k).map y.answerFrame = (sent k).map (Answer.frame (y.rem k)) := by
      refine List.map_congr_left fun answer there => ?_
      show answer.frame (y.rem answer.conn) = _
      rw [conn k answer there]
    rw [came_dataUdp, divides.answersOf, images, frames]
    exact (answers_up_sublist localSide run.reach k).filter _
  obtain ⟨pairs, isFst, same, each⟩ := exists_keyed Deal.via fewer
  have own {pair : Deal × Answer} (there : pair ∈ pairs) : pair.2.conn = pair.1.via := by
    refine conn pair.1.via pair.2 ((each pair.1.via).subset ?_)
    exact List.mem_map_of_mem (List.mem_filter.mpr ⟨there, decide_eq_true rfl⟩)
  refine ⟨pairs.map Prod.swap, ?_, fun pair there => ?_, fun k r => ?_⟩
  · rw [List.map_map]
    exact isFst
  · obtain ⟨pair, isPair, rfl⟩ := List.mem_map.mp there
    exact (same pair isPair).symm
  · refine List.Sublist.trans ?_ (order k r)
    rw [List.map_map, show Prod.fst ∘ Prod.swap = (Prod.snd : Deal × Answer → Answer) from rfl]
    -- those of the raw_udp came from its connection
    have fewer : (pairs.map Prod.snd).filter (Answer.At k r) =
        ((pairs.filter fun pair => pair.1.via = k).map Prod.snd).filter (Answer.At k r) := by
      rw [List.filter_map, List.filter_map, List.filter_filter]
      refine congrArg _ (List.filter_congr fun pair there => ?_)
      by_cases at' : Answer.At k r pair.2
      · simp [at', (own there).symm.trans at'.1]
      · simp [at']
    rw [fewer]
    exact (each k).filter _

/-- **UDP replies.** In every run of a transparent proxy in which the peers have a port, some
datagrams that arrived at the remote side come back, in order for each raw_udp that got them, and
each goes to one raw_udp of the proxy at most; what such a raw_udp sent are, in order, some of
those that went to it, each from the address of its peer to a source of its session. -/
theorem replies_relayed
    (run : Trace (Trace.Shows step C SystemAction.answers) (init .localTransparent) answers y)
    (ported : ∀ answer ∈ answers, answer.peer.port ≠ 0) :
    ∃ gone : List (Answer × Option RelayId),
      (∀ k r, ((gone.map Prod.fst).filter (Answer.At k r)).Sublist
        (answers.filter (Answer.At k r))) ∧
      ∀ u, u < y.loc.next → (y.loc.objs u).kind = .rawUdp →
        List.SublistForall₂ y.Returned (y.loc.objs u).log.sent (gone.filterMap (goneTo u)) := by
  have localSide : ServerType.localTransparent ≠ .remoteServer := nofun
  have starts : Starts (.initLocal .localTransparent) := .localSide localSide
  have joined := joined_reach localSide run.reach
  obtain ⟨deals, divides⟩ := exists_divides starts joined.loc
  obtain ⟨pairs, isSnd, frames, order⟩ := exists_returns localSide run divides
  refine ⟨pairs.map fun pair => (pair.1, pair.2.target), fun k r => ?_, fun u known udp => ?_⟩
  · rw [List.map_map]
    exact order k r
  · have served := (servesUdps_reach joined.loc).1 u known udp
    obtain ⟨_, _, lives⟩ := Relay.transparent_reach served
    have raw : y.loc.Raw u := ⟨known, by rw [udp]; exact nofun⟩
    have given := divides.given_dataUdp raw (Relay.given_dataUdp served)
    have isPorted : (y.loc.objs u).Ported := by
      intro buf passed
      have there : buf ∈ y.loc.givenTo u := lives.passed_given passed
      rw [given] at there
      obtain ⟨deal, isDeal, target⟩ := List.mem_filterMap.mp there
      rw [← isSnd] at isDeal
      obtain ⟨pair, isPair, rfl⟩ := List.mem_map.mp isDeal
      have is : y.answerFrame pair.1 = buf := by
        rw [frames pair isPair]
        unfold Deal.dealtTo at target
        split at target
        · exact Option.some.inj target
        · cases target
      rw [← is, addr_answerFrame]
      refine ported pair.1 (List.mem_of_mem_filter ((order pair.1.conn pair.1.relay).subset ?_))
      exact List.mem_filter.mpr ⟨List.mem_map_of_mem isPair, decide_eq_true ⟨rfl, rfl⟩⟩
    have sent := lives.sent_given (Relay.replies_sent served isPorted)
    rw [show (y.loc.objs u).log.given = _ from given, ← isSnd, ← gone_dealt frames u,
      List.sublistForall₂_map_right_iff] at sent
    obtain ⟨took, left, fewer⟩ := List.sublistForall₂_iff.mp sent
    exact List.sublistForall₂_iff.mpr ⟨took, left.imp fun _ _ => returned_of_returns, fewer⟩

/-- A message of the remote side is written, read and handled. -/
def carryBack (k : RelayId) (buf : Frame) : List SystemAction :=
  [.rem k (.relay 0 .task), .rem k (.relay 0 (.startSend 0)),
    .rem k (.relay 0 (.take buf.encode.length)), .rem k (.relay 0 (.sent 0)),
    .loc (.relay k (.arrive (.stream (buf.encode.take headerSize)))), .loc (.relay k .read),
    .loc (.relay k (.arrive (.stream (buf.encode.drop headerSize)))), .loc (.relay k .read),
    .loc (.manager {})]

/-- The name server answers, and the answer leaves for the client. -/
def serverAnswers : List SystemAction :=
  asksServer ++
    [.rem 1 (.relay 1 (.arrive (.datagram (.mapped 8 8 8 8 53) [9]))), .rem 1 (.relay 1 .read),
      .rem 1 (.manager {})] ++ carryBack 1 (datagramFrame 2 (.mapped 8 8 8 8 53) [9]) ++
    [.loc (.relay 0 .task), .loc (.relay 0 .task), .loc (.relay 0 .task),
      .loc (.relay 0 (.startSend 5)), .loc (.relay 0 .transmit)]

theorem replies_relayed_server : ∃ y answers,
    Trace (Trace.Shows step anyStep SystemAction.answers) (init .localTransparent) answers y ∧
    (y.loc.objs 0).log.sent = [(some (.mapped 8 8 8 8 53), .ipv4 127 0 0 1 9, [9])] ∧
    ∃ gone : List (Answer × Option RelayId),
      List.SublistForall₂ y.Returned (y.loc.objs 0).log.sent (gone.filterMap (goneTo 0)) := by
  have run := @Trace.of_isSome _ _ (init .localTransparent) _ step anyStep _ SystemAction.answers
    serverAnswers (by decide +kernel)
  obtain ⟨gone, _, sent⟩ := replies_relayed run (by decide +kernel)
  exact ⟨_, _, run, by decide +kernel, gone, sent 0 (by decide +kernel) (by decide +kernel)⟩

/-! ## Who gets a reply -/

/-- What the step captures on the local side and what it brings to the remote side. -/
def hears (a : SystemAction) : List (Packet ⊕ Answer) :=
  a.captured.map .inl ++ a.answers.map .inr

variable {heard : List (Packet ⊕ Answer)}

theorem captured_eq :
    (fun a : SystemAction => (hears a).filterMap Sum.getLeft?) = SystemAction.captured := by
  funext a
  unfold hears
  rw [List.filterMap_append, List.filterMap_map, List.filterMap_map]
  simp [Function.comp_def]

theorem answers_eq :
    (fun a : SystemAction => (hears a).filterMap Sum.getRight?) = SystemAction.answers := by
  funext a
  unfold hears
  rw [List.filterMap_append, List.filterMap_map, List.filterMap_map]
  simp [Function.comp_def]

/-- The raw_udp serves this client alone: it was made for a `DATA_UDP` of its session, and each
that came is a packet of the client. -/
structure ServesClient (y : System) (heard : List (Packet ⊕ Answer)) (k r : RelayId)
    (client : Endpoint) : Prop where
  made : (y.rem k).Brought .dataUdp ((y.rem k).objs r).session
  own : ∀ buf ∈ (y.rem k).handled, buf.cmd = .dataUdp →
    buf.session = ((y.rem k).objs r).session →
    ∃ packet : Packet, .inl packet ∈ heard ∧ packet.src = client ∧ buf.payload = packet.frame.payload

theorem servesClient_of_issued {type : ServerType} (localSide : type ≠ .remoteServer)
    (run : Trace (Trace.Shows step C hears) (init type) heard y)
    (few : y.loc.allocated + 1 < 2 ^ 32) {k r : RelayId} (known : r < (y.rem k).next)
    (udp : ((y.rem k).objs r).kind = .rawUdp) {client : Endpoint}
    (issued : Issue.udp ((y.rem k).objs r).session client ∈ y.loc.issued) :
    y.ServesClient heard k r client := by
  have joined := joined_reach localSide run.reach
  have makes : maker ((y.rem k).objs r).kind = some .dataUdp := by
    rw [udp]
    rfl
  refine ⟨(made_reach (joined.rem k)).relays known makes, fun buf handled isData session => ?_⟩
  have captured := run.project Sum.getLeft?
  rw [captured_eq] at captured
  obtain ⟨qs, queries⟩ := queries_reach localSide captured
  -- the message is that of a packet
  have sent := (handled_down_sublist localSide run.reach k).subset handled
  have there : buf ∈ (y.loc.requestsTo k).filter fun buf => buf.cmd = .dataUdp :=
    List.mem_filter.mpr ⟨sent, decide_eq_true isData⟩
  rw [requestsTo_queries localSide joined.loc queries k] at there
  obtain ⟨query, member, rfl⟩ := List.mem_map.mp there
  have isQuery := List.mem_of_mem_filter member
  obtain ⟨later, _, order⟩ := queries.order
  have packet : query.packet ∈ heard.filterMap Sum.getLeft? :=
    order.subset (List.mem_append_left _ (List.mem_map_of_mem isQuery))
  obtain ⟨seen, isSeen, left⟩ := List.mem_filterMap.mp packet
  refine ⟨query.packet, ?_, ?_, rfl⟩
  · rw [← Sum.getLeft?_eq_some_iff.mp left]
    exact isSeen
  · have src := queries.issued query isQuery
    rw [show query.session = ((y.rem k).objs r).session from session] at src
    exact oneSource_reach joined.loc few src issued

/-- **Who gets a reply.** In every run of a transparent proxy in which the peers have a port and
the ids do not start anew, every datagram that a raw_udp of the proxy sent is one that arrived at
a raw_udp of the remote side, and leaves from the address of its peer; it goes to the client
which that raw_udp serves alone, unless the client has left `_peers`. -/
theorem replies_reach_askers
    (run : Trace (Trace.Shows step C hears) (init .localTransparent) heard y)
    (ported : ∀ answer, .inr answer ∈ heard → answer.peer.port ≠ 0)
    (few : y.loc.allocated + 1 < 2 ^ 32) {u : RelayId} (known : u < y.loc.next)
    (udp : (y.loc.objs u).kind = .rawUdp) {datagram : Datagram}
    (left : datagram ∈ (y.loc.objs u).log.sent) :
    ∃ answer, .inr answer ∈ heard ∧ datagram.1 = some answer.peer ∧ datagram.2.2 = answer.bytes ∧
      (datagram.2.1 = default ∨
        y.ServesClient heard answer.conn answer.relay datagram.2.1) := by
  have localSide : ServerType.localTransparent ≠ .remoteServer := nofun
  have answered := run.project Sum.getRight?
  rw [answers_eq] at answered
  have seen {answer : Answer} (there : answer ∈ heard.filterMap Sum.getRight?) :
      .inr answer ∈ heard := by
    obtain ⟨seen, isSeen, right⟩ := List.mem_filterMap.mp there
    rw [← Sum.getRight?_eq_some_iff.mp right]
    exact isSeen
  obtain ⟨gone, order, sent⟩ := replies_relayed answered fun answer there => ported answer (seen there)
  obtain ⟨answer, went, from', bytes, peer⟩ := exists_of_sublistForall₂ (sent u known udp) left
  have there : answer ∈ heard.filterMap Sum.getRight? := by
    refine List.mem_of_mem_filter ((order answer.conn answer.relay).subset ?_)
    refine List.mem_filter.mpr ⟨?_, decide_eq_true ⟨rfl, rfl⟩⟩
    obtain ⟨pair, isPair, isTarget⟩ := List.mem_filterMap.mp went
    refine List.mem_map.mpr ⟨pair, isPair, ?_⟩
    unfold goneTo at isTarget
    split at isTarget
    · exact Option.some.inj isTarget
    · cases isTarget
  refine ⟨answer, seen there, from', bytes, peer.imp id fun issued => ?_⟩
  obtain ⟨isKnown, isUdp⟩ := (repeats_reach localSide answered answer.conn).known answer there rfl
  exact servesClient_of_issued localSide run few isKnown isUdp issued

theorem replies_reach_askers_server : ∃ y heard,
    Trace (Trace.Shows step anyStep hears) (init .localTransparent) heard y ∧
    ∃ answer, .inr answer ∈ heard ∧ answer.bytes = [9] ∧
      y.ServesClient heard answer.conn answer.relay (.ipv4 127 0 0 1 9) := by
  have run := @Trace.of_isSome _ _ (init .localTransparent) _ step anyStep _ hears
    serverAnswers (by decide +kernel)
  have answered : ∀ answer ∈ serverAnswers.flatMap SystemAction.answers, answer.peer.port ≠ 0 := by
    decide +kernel
  have ported (answer : Answer) (there : .inr answer ∈ serverAnswers.flatMap hears) :
      answer.peer.port ≠ 0 := by
    obtain ⟨a, acts, there⟩ := List.mem_flatMap.mp there
    exact answered answer (List.mem_flatMap.mpr ⟨a, acts, by simpa [hears] using there⟩)
  have left : (some (Endpoint.mapped 8 8 8 8 53), Endpoint.ipv4 127 0 0 1 9, [9]) ∈
      (((runFrom step anyStep (init .localTransparent) serverAnswers).get
        (by decide +kernel)).loc.objs 0).log.sent := by decide +kernel
  obtain ⟨answer, there, _, bytes, none | serves⟩ := replies_reach_askers run ported
    (by decide +kernel) (by decide +kernel) (by decide +kernel) left
  · exact absurd none (by decide)
  · exact ⟨_, _, run, answer, there, bytes.symm, serves⟩

end System

end SslSocks
