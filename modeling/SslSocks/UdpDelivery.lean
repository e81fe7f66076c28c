import SslSocks.Lib.Pairing
import SslSocks.Tunnel
import SslSocks.UdpCaptured
import SslSocks.UdpDatagrams

/-!
# UDP from end to end

A packet that the local side captures is passed on once at most, goes through one connection,
is given to one raw_udp of the manager at its end, and leaves as one datagram to the address
that the client meant (`packets_relayed`). Packets may be lost at every stage; none is made up,
sent twice or sent before an earlier one of its raw_udp.
-/

namespace SslSocks

open Lib

/-- The query left as this datagram. -/
def Query.Left (datagram : Option Endpoint × Endpoint × List UInt8) (query : Query) : Prop :=
  ∃ data, query.packet.received = some data ∧
    datagram.2.2 = data.take (readBufferSize - udpOffset) ∧
    ∀ dst, query.packet.dst = some dst → datagram.2.1 = dst

/-- What goes out of the message of a query are the bytes captured, to the address captured. -/
theorem Query.left_of_goes {datagram : Option Endpoint × Endpoint × List UInt8} {query : Query}
    (goes : query.frame.Goes .remoteServer datagram) : query.Left datagram := by
  obtain ⟨window, target⟩ := goes
  replace target := target rfl
  cases received : query.packet.received with
  | none =>
    -- a failed `recvmsg` leaves less than the place of the address
    have payload : query.frame.payload = (udpHead query.packet.dst).take (udpOffset - 1) := by
      show (transparentUdpRecvOn _ _).payload = _
      rw [received]
      rfl
    unfold udpWindow at window
    have short : ¬ udpOffset ≤ ((udpHead query.packet.dst).take (udpOffset - 1)).length := by
      rw [List.length_take, length_udpHead]
      decide
    rw [payload, if_neg short] at window
    cases window
  | some data =>
    have payload : query.frame.payload =
        udpHead query.packet.dst ++ data.take (readBufferSize - udpOffset) := by
      show (transparentUdpRecvOn _ _).payload = _
      rw [received]
      rfl
    refine ⟨data, received, ?_, fun dst isDst => ?_⟩
    · have shown : udpWindow query.frame = some (data.take (readBufferSize - udpOffset)) := by
        rw [← @udpWindow_append query.session .dataUdp query.packet.dst]
        unfold udpWindow
        rw [payload]
      exact Option.some.inj (window.symm.trans shown)
    · rw [target, payload, isDst, udpHead, List.append_assoc]
      exact getDataAddr_parseAddr dst _

section Gone

variable {α : Type}

/-- The one of a pair, when the relay got its message. -/
def goneTo (r : RelayId) (pair : α × Option RelayId) : Option α :=
  if pair.2 = some r then some pair.1 else none

/-- The messages of deals went where these went. -/
theorem gone_dealt {frame : α → Frame} {pairs : List (α × Node.Deal)}
    (same : ∀ pair ∈ pairs, frame pair.1 = pair.2.buf) (r : RelayId) :
    ((pairs.map fun pair => (pair.1, pair.2.target)).filterMap (goneTo r)).map frame =
      (pairs.map Prod.snd).filterMap (Node.Deal.dealtTo r) := by
  induction pairs with
  | nil => rfl
  | cons pair pairs ih =>
    have rest := ih fun other there => same other (List.mem_cons_of_mem _ there)
    have first := same pair List.mem_cons_self
    simp only [List.map_cons, List.filterMap_cons]
    unfold goneTo Node.Deal.dealtTo
    by_cases went : pair.2.target = some r
    · rw [if_pos went, if_pos went]
      simp only [List.map_cons, first]
      congr 1
    · rw [if_neg went, if_neg went]
      exact rest

end Gone

/-- The datagrams that a relay sent are some of the messages that it was given. -/
theorem Relay.Lives.sent_given {r : Relay} (lives : r.Lives) {R : Datagram → Frame → Prop}
    (datagrams : r.Datagrams R) : List.SublistForall₂ R r.log.sent r.log.given := by
  obtain ⟨took, pairs, fewer⟩ := List.sublistForall₂_iff.mp datagrams.sent
  have passed := lives.placed.begins.sublist.trans lives.accepted_given
  exact List.sublistForall₂_iff.mpr ⟨took, pairs, fewer.trans passed⟩

namespace Node

/-- The `DATA_UDP` that an ssl relay is asked to send are the packets passed on to it. -/
theorem requestsTo_queries {C : Node → NodeAction → Prop} {type : ServerType} {n : Node}
    (localSide : type ≠ .remoteServer) (run : Reach step C (initLocal type) n)
    {packets : List Packet} {qs : List Query} (queries : Queries n packets qs) (k : RelayId) :
    (n.requestsTo k).filter (fun buf => buf.cmd = .dataUdp) =
      (qs.filter fun query => query.ssl = some k).map Query.frame := by
  have starts : Starts (initLocal type) := .localSide localSide
  have isLocal : n.type ≠ .remoteServer := by
    rw [(grows_reach starts.wellFormed run).type]
    exact localSide
  -- no relay of the local side asks for a datagram
  have passes (q : Request) (there : q ∈ n.requests) (isData : q.buf.cmd = .dataUdp) :
      q.relay = none := by
    cases relay : q.relay with
    | none => rfl
    | some r =>
      obtain ⟨known, emitted, asks⟩ := asks_of_request starts run there relay
      have type := (wellFormed_reach starts.wellFormed run).type known
      cases kind : (n.objs r).kind with
      | ssl =>
        rw [asks.ssl kind] at emitted
        cases emitted
      | rawUdp => exact absurd (type.symm.trans (asks.udp kind _ emitted).1) isLocal
      | rawTcp =>
        rcases asks.tcp kind _ emitted with data | stop | ⟨_, start, _⟩
        · cases data.symm.trans isData
        · cases stop.symm.trans isData
        · cases start.symm.trans isData
  have both : n.requests.filter (fun q => q.buf.cmd = .dataUdp) = n.passedOn := by
    refine List.filter_congr fun q there => ?_
    rw [decide_eq_decide]
    exact ⟨fun isData => ⟨passes q there isData, isData⟩, fun both => both.2⟩
  have sent (requests : List Request) :
      (requests.filterMap (Request.sentTo k)).filter (fun buf => buf.cmd = .dataUdp) =
        (requests.filter fun q => q.buf.cmd = .dataUdp).filterMap (Request.sentTo k) := by
    induction requests with
    | nil => rfl
    | cons q requests ih =>
      by_cases there : q.ssl = some k <;> by_cases isData : q.buf.cmd = .dataUdp <;>
        simp [Request.sentTo, there, isData, ih]
  unfold requestsTo
  rw [sent, both, queries.passed, List.filterMap_map]
  clear both sent queries
  induction qs with
  | nil => rfl
  | cons query qs ih =>
    by_cases there : query.ssl = some k <;>
      simp [Request.sentTo, Query.request, there, ih]

/-- A relay that is given `DATA_UDP` only. -/
theorem Divides.given_dataUdp {n : Node} {deals : List Deal} (divides : Divides n deals)
    {r : RelayId} (raw : n.Raw r) (isData : ∀ buf ∈ n.givenTo r, buf.cmd = .dataUdp) :
    n.givenTo r = (deals.filter fun deal => deal.buf.cmd = .dataUdp).filterMap (Deal.dealtTo r) := by
  have given := divides.given raw
  rw [List.filterMap_filter, given]
  refine List.filterMap_congr fun deal there => ?_
  split
  · rfl
  · rename_i other
    unfold Deal.dealtTo
    refine if_neg fun target => other (decide_eq_true (isData deal.buf ?_))
    rw [given]
    exact List.mem_filterMap.mpr ⟨deal, there, if_pos target⟩

/-- What a raw_udp of the remote side sent are messages that it was given. -/
theorem sent_given {C : Node → NodeAction → Prop} {n : Node} (run : Reach step C initRemote n)
    {r : RelayId} (known : r < n.next) :
    List.SublistForall₂ (Frame.Goes .remoteServer) (n.objs r).log.sent (n.givenTo r) := by
  have sound := Starts.remote.sound run
  have lives := sound.live r known
  have type : (n.objs r).type = .remoteServer :=
    (sound.wf.type known).trans (grows_reach Starts.remote.wellFormed run).type
  have sent := lives.sent_given lives.datagrams
  rw [type] at sent
  exact sent

end Node

/-- The packet that the step captures. -/
def SystemAction.captured : SystemAction → List Packet
  | .loc a => a.captured
  | .rem _ _ => []

namespace System

open Node

variable {C : System → SystemAction → Prop} {y : System} {type : ServerType}
variable {packets : List Packet} {qs : List Query}

theorem queries_reach (localSide : type ≠ .remoteServer)
    (run : Trace (Trace.Shows step C SystemAction.captured) (init type) packets y) :
    ∃ qs, Queries y.loc packets qs := by
  have starts : Starts (.initLocal type) := .localSide localSide
  refine run.fold (P := Reach step C (init type))
    (R := fun packets y => ∃ qs, Queries y.loc packets qs) .refl (fun before one => ?_)
    ⟨[], rfl, ⟨[], rfl, List.Sublist.refl _⟩, nofun⟩ fun {t u _ shown} before found one => ?_
  · obtain ⟨a, meets, stepped, _⟩ := one
    exact before.tail meets stepped
  · obtain ⟨qs, queries⟩ := found
    obtain ⟨a, _, stepped, rfl⟩ := one
    cases a with
    | loc a =>
      obtain ⟨_, n, step, rfl⟩ := step_loc stepped
      have joined := joined_reach localSide before
      have isLocal := localSide_reach localSide joined.loc
      obtain ⟨more, queries⟩ := queries_step (starts.sound joined.loc).wf isLocal queries step
      exact ⟨_, queries⟩
    | rem k a =>
      obtain ⟨_, n, _, rfl⟩ := step_rem stepped
      refine ⟨qs, ?_⟩
      rw [show SystemAction.captured (.rem k a) = [] from rfl, List.append_nil]
      exact queries

/-- What the manager at the end of a connection did with the queries that came. -/
structure Serves (y : System) (k : RelayId) (gone : List (Query × Option RelayId)) : Prop where
  relay : ∀ {query r}, (query, some r) ∈ gone → r < (y.rem k).next ∧
    ((y.rem k).objs r).kind = .rawUdp ∧ ((y.rem k).objs r).session = query.session
  sent : ∀ {r}, r < (y.rem k).next → ((y.rem k).objs r).kind = .rawUdp →
    List.SublistForall₂ Query.Left ((y.rem k).objs r).log.sent (gone.filterMap (goneTo r))

/-- Each query went to the raw_udp of its session, or to none. -/
theorem serves_dealt (localSide : type ≠ .remoteServer)
    (run : Reach step KindsMeet (init type) y) (queries : Queries y.loc packets qs) (k : RelayId) :
    ∃ gone, (gone.map Prod.fst).Sublist (qs.filter fun query => query.ssl = some k) ∧
      y.Serves k gone := by
  have joined := joined_reach localSide run
  have apart := apart_reach localSide run
  obtain ⟨deals, divides⟩ := exists_divides .remote (joined.rem k)
  -- the datagrams among the messages handled are some of the queries
  have came : ((deals.filter fun deal => deal.buf.cmd = .dataUdp).map Deal.buf).Sublist
      ((qs.filter fun query => query.ssl = some k).map Query.frame) := by
    rw [← requestsTo_queries localSide joined.loc queries k]
    have handled := (handled_down_sublist localSide run k).filter fun buf => buf.cmd = .dataUdp
    rw [← divides.handled, List.filter_map] at handled
    exact handled
  obtain ⟨asked, fewer, same⟩ := List.sublist_map_iff.mp came
  obtain ⟨pairs, isAsked, isDealt, frames⟩ := exists_pairs same.symm
  refine ⟨pairs.map fun pair => (pair.1, pair.2.target), ?_, ?_, ?_⟩
  · rw [List.map_map]
    exact isAsked ▸ fewer
  · intro query r there
    obtain ⟨⟨isQuery, deal⟩, isPair, is⟩ := List.mem_map.mp there
    obtain ⟨rfl, target⟩ := Prod.mk.inj is
    have member : deal ∈ pairs.map Prod.snd := List.mem_map_of_mem isPair
    rw [isDealt] at member
    obtain ⟨isDeal, isData⟩ := List.mem_filter.mp member
    obtain ⟨known, raw⟩ := divides.raw isDeal target
    have given : deal.buf ∈ (y.rem k).givenTo r := by
      rw [divides.given ⟨known, raw⟩]
      exact List.mem_filterMap.mpr ⟨deal, isDeal, if_pos target⟩
    have udp : ((y.rem k).objs r).kind = .rawUdp := by
      cases kind : ((y.rem k).objs r).kind with
      | ssl => exact absurd kind raw
      | rawUdp => rfl
      | rawTcp =>
        have tcp := (apart.given k known deal.buf given).1 kind
        cases tcp.symm.trans (of_decide_eq_true isData)
    have own : (y.rem k).OfSession r :=
      .inr ⟨udp, (grows_reach Starts.remote.wellFormed (joined.rem k)).type⟩
    have session := (routed_reach .remote (joined.rem k) r known own deal.buf given).1
    rw [← frames _ isPair] at session
    exact ⟨known, udp, session.symm⟩
  · intro r known udp
    have raw : (y.rem k).Raw r := ⟨known, by rw [udp]; decide⟩
    have sent := sent_given (joined.rem k) known
    rw [divides.given_dataUdp raw fun buf there => (apart.given k known buf there).2 udp, ← isDealt,
      ← gone_dealt frames r, List.sublistForall₂_map_right_iff] at sent
    obtain ⟨took, left, fewer⟩ := List.sublistForall₂_iff.mp sent
    exact List.sublistForall₂_iff.mpr ⟨took, left.imp fun _ _ => Query.left_of_goes, fewer⟩

/-- **UDP from end to end.** In every run in which no session goes to a connection and to a UDP
source at once, some of the packets captured were passed on, in order and once each, under
sessions that their sources got. Of those passed on to a connection some came, in order, each
to one raw_udp at most, which has their session; and the datagrams that a raw_udp sent are, in
order, those of some of its packets, sent to the addresses that these were meant for. -/
theorem packets_relayed (localSide : type ≠ .remoteServer)
    (run : Trace (Trace.Shows step KindsMeet SystemAction.captured) (init type) packets y) :
    ∃ qs : List Query, (qs.map Query.packet).Sublist packets ∧
      (∀ query ∈ qs, Issue.udp query.session query.packet.src ∈ y.loc.issued) ∧
      ∀ k, ∃ gone, (gone.map Prod.fst).Sublist (qs.filter fun query => query.ssl = some k) ∧
        y.Serves k gone := by
  obtain ⟨qs, queries⟩ := queries_reach localSide run
  obtain ⟨later, _, order⟩ := queries.order
  refine ⟨qs, (List.sublist_append_left _ _).trans order, queries.issued, fun k => ?_⟩
  exact serves_dealt localSide run.reach queries k

/-- A datagram from a client to a name server. -/
def asksServer : List SystemAction :=
  packet ++ connectSsl 1 1 ++ carry 1 (query 2) ++
    [.rem 1 (.relay 1 .task), .rem 1 (.relay 1 .task), .rem 1 (.relay 1 (.startSend 0)),
      .rem 1 (.relay 1 .transmit)]

theorem packets_relayed_query : ∃ y packets,
    Trace (Trace.Shows step KindsMeet SystemAction.captured) (init .localTransparent) packets y ∧
    ((y.rem 1).objs 1).log.sent = [(some ⟨.v6 (Vector.replicate 16 0), 0⟩, .ipv4 8 8 8 8 53, [7])] ∧
    ∃ qs : List Query, (qs.map Query.packet).Sublist packets ∧
      ∀ k, ∃ gone, (gone.map Prod.fst).Sublist (qs.filter fun query => query.ssl = some k) ∧
        y.Serves k gone := by
  have run := @Reach.of_isSome _ _ step NewIds (init .localTransparent) _ asksServer
    (by decide +kernel)
  have localSide : ServerType.localTransparent ≠ .remoteServer := by decide
  obtain ⟨packets, path⟩ :=
    Trace.of_reach SystemAction.captured (kindsMeet_of_newIds localSide run)
  obtain ⟨qs, captured, _, served⟩ := packets_relayed localSide path
  exact ⟨_, packets, path, by decide +kernel, qs, captured, served⟩

end System

end SslSocks
