import SslSocks.ReadLoops

/-!
# What a relay asks of its manager

The messages that the handlers of a relay give to `add_request`, over its life
(`Lives.asks`). A raw_tcp sends on what its read loop received, in order, and on the
local side its `START_TCP` comes first and once. A raw_udp asks for `DATA_UDP` only,
and an `ssl_relay` for nothing.
-/

namespace SslSocks

open Lib

namespace Relay

variable {r r' : Relay} {alive : Bool} {ev : RelayEvent} {outs : List RelayOut}

/-- The bytes that the `DATA_TCP` messages carry. -/
def tcpText (frames : List Frame) : List UInt8 :=
  (frames.filter fun buf => buf.cmd = .dataTcp).flatMap Frame.payload

theorem tcpText_append (xs ys : List Frame) : tcpText (xs ++ ys) = tcpText xs ++ tcpText ys := by
  unfold tcpText
  rw [List.filter_append, List.flatMap_append]

/-- The steps of `impl_start_local` before anything is asked of the manager. -/
def Unopened (r : Relay) : Prop :=
  r.startup ∈ [.greeting, .greetingReply, .request, .directResolve, .directConnect]

/-- The messages that a relay gave to `add_request`. -/
structure Asks (r : Relay) : Prop where
  own : ∀ buf ∈ r.log.emitted, buf.session = r.session ∧ buf.Fits
  ssl : r.kind = .ssl → r.log.emitted = []
  udp : r.kind = .rawUdp → ∀ buf ∈ r.log.emitted, r.type = .remoteServer ∧ buf.cmd = .dataUdp
  tcp : r.kind = .rawTcp → ∀ buf ∈ r.log.emitted,
    buf.cmd = .dataTcp ∨ buf.cmd = .stopTcp ∨ r.type ≠ .remoteServer ∧ Connects buf
  bytes : r.kind = .rawTcp → tcpText r.log.emitted = r.log.readLog
  /-- On the local side `START_TCP` comes first, and once. -/
  opens : r.type ≠ .remoteServer → r.kind = .rawTcp →
    (r.reading ∨ ∃ buf ∈ r.log.emitted, buf.cmd = .dataTcp) →
    ∃ buf rest, r.log.emitted = buf :: rest ∧ buf.cmd = .startTcp
  once : ∀ buf ∈ r.log.emitted.tail, buf.cmd ≠ .startTcp
  unopened : r.Unopened → r.log.emitted = []

theorem asks_of_nil (emitted : r.log.emitted = []) (readLog : r.log.readLog = [])
    (reading : r.kind = .rawTcp → r.reading = false) : Asks r := by
  have none {buf : Frame} (member : buf ∈ r.log.emitted) : False := by
    rw [emitted] at member
    cases member
  refine ⟨fun _ member => (none member).elim, fun _ => emitted, fun _ _ member => (none member).elim,
    fun _ _ member => (none member).elim, fun _ => ?_, fun _ kind some => ?_, fun buf member => ?_,
    fun _ => emitted⟩
  · rw [emitted, readLog]
    rfl
  · rcases some with on | ⟨_, member, _⟩
    · exact absurd on (Bool.eq_false_iff.mp (reading kind))
    · exact (none member).elim
  · rw [emitted] at member
    cases member

/-- The relay has asked for its connection. -/
theorem asks_of_start {payload : List UInt8}
    (emitted : r.log.emitted = [⟨r.session, .startTcp, payload⟩]) (tcp : r.kind = .rawTcp)
    (localSide : r.type ≠ .remoteServer) (connects : Connects ⟨r.session, .startTcp, payload⟩)
    (readLog : r.log.readLog = []) (opened : ¬ r.Unopened) : Asks r := by
  have only {buf : Frame} (member : buf ∈ r.log.emitted) :
      buf = ⟨r.session, .startTcp, payload⟩ := List.mem_singleton.mp (emitted ▸ member)
  refine ⟨fun buf member => ?_, fun ssl => absurd (tcp.symm.trans ssl) nofun,
    fun udp => absurd (tcp.symm.trans udp) nofun, fun _ buf member => ?_, fun _ => ?_,
    fun _ _ _ => ⟨_, _, emitted, rfl⟩, fun buf member => ?_, fun early => absurd early opened⟩
  · rw [only member]
    exact ⟨rfl, connects.2.1⟩
  · rw [only member]
    exact .inr (.inr ⟨localSide, connects⟩)
  · rw [emitted, readLog]
    rfl
  · rw [emitted] at member
    cases member

/-- The relay asks for more, of what a running one asks. -/
theorem Asks.more (asks : Asks r) (frames : List Frame)
    (same : r'.kind = r.kind ∧ r'.type = r.type ∧ r'.session = r.session)
    (emitted : r'.log.emitted = r.log.emitted ++ frames)
    (readLog : r.kind = .rawTcp → r'.log.readLog = r.log.readLog ++ tcpText frames)
    (own : ∀ buf ∈ frames, buf.session = r.session ∧ buf.Fits)
    (allowed : ∀ buf ∈ frames,
      r.kind = .rawTcp ∧ (buf.cmd = .dataTcp ∧ r.reading ∨ buf.cmd = .stopTcp) ∨
        r.kind = .rawUdp ∧ r.type = .remoteServer ∧ buf.cmd = .dataUdp)
    (reading : r.type ≠ .remoteServer → r.kind = .rawTcp → r'.reading → r.reading)
    (unopened : r'.Unopened → r.Unopened ∧ frames = []) : Asks r' := by
  obtain ⟨kind, type, session⟩ := same
  have either {buf : Frame} (member : buf ∈ r'.log.emitted) : buf ∈ r.log.emitted ∨ buf ∈ frames :=
    List.mem_append.mp (emitted ▸ member)
  refine ⟨fun buf member => ?_, fun ssl => ?_, fun udp buf member => ?_, fun tcp buf member => ?_,
    fun tcp => ?_, fun localSide tcp some => ?_, fun buf member => ?_, fun early => ?_⟩
  · rw [session]
    exact (either member).elim (asks.own buf) (own buf)
  · rw [kind] at ssl
    have none : frames = [] := by
      refine List.eq_nil_iff_forall_not_mem.mpr fun buf member => ?_
      rcases allowed buf member with ⟨tcp, _⟩ | ⟨udp, _⟩
      · exact absurd (ssl.symm.trans tcp) nofun
      · exact absurd (ssl.symm.trans udp) nofun
    rw [emitted, asks.ssl ssl, none]
    rfl
  · rw [kind] at udp
    rw [type]
    rcases either member with old | new
    · exact asks.udp udp buf old
    · rcases allowed buf new with ⟨tcp, _⟩ | ⟨_, both⟩
      · exact absurd (udp.symm.trans tcp) nofun
      · exact both
  · rw [kind] at tcp
    rw [type]
    rcases either member with old | new
    · exact asks.tcp tcp buf old
    · rcases allowed buf new with ⟨_, ⟨data, _⟩ | stop⟩ | ⟨udp, _⟩
      · exact .inl data
      · exact .inr (.inl stop)
      · exact absurd (tcp.symm.trans udp) nofun
  · rw [kind] at tcp
    rw [emitted, tcpText_append, asks.bytes tcp, readLog tcp]
  · rw [type] at localSide
    rw [kind] at tcp
    have before : r.reading ∨ ∃ buf ∈ r.log.emitted, buf.cmd = .dataTcp := by
      rcases some with on | ⟨buf, member, data⟩
      · exact .inl (reading localSide tcp on)
      · rcases either member with old | new
        · exact .inr ⟨buf, old, data⟩
        · rcases allowed buf new with ⟨_, ⟨_, on⟩ | stop⟩ | ⟨udp, _⟩
          · exact .inl on
          · exact absurd (data.symm.trans stop) nofun
          · exact absurd (tcp.symm.trans udp) nofun
    obtain ⟨first, rest, list, start⟩ := asks.opens localSide tcp before
    exact ⟨first, rest ++ frames, by rw [emitted, list, List.cons_append], start⟩
  · have new (member : buf ∈ frames) : buf.cmd ≠ .startTcp := by
      rcases allowed buf member with ⟨_, ⟨data, _⟩ | stop⟩ | ⟨_, _, data⟩
      · exact data ▸ nofun
      · exact stop ▸ nofun
      · exact data ▸ nofun
    rw [emitted] at member
    cases list : r.log.emitted with
    | nil =>
      rw [list, List.nil_append] at member
      exact new (List.mem_of_mem_tail member)
    | cons first rest =>
      rw [list, List.cons_append, List.tail_cons] at member
      rcases List.mem_append.mp member with old | recent
      · exact asks.once buf (by rwa [list])
      · exact new recent
  · obtain ⟨early, none⟩ := unopened early
    rw [emitted, asks.unopened early, none]
    rfl

/-- A handler that asks for nothing. -/
theorem Asks.quiet (asks : Asks r)
    (same : r'.kind = r.kind ∧ r'.type = r.type ∧ r'.session = r.session)
    (emitted : r'.log.emitted = r.log.emitted) (readLog : r'.log.readLog = r.log.readLog)
    (reading : r'.reading → r.reading) (unopened : r'.Unopened → r.Unopened) : Asks r' :=
  asks.more [] same (emitted.trans (List.append_nil _).symm)
    (fun _ => readLog.trans (List.append_nil _).symm) nofun nofun (fun _ _ => reading)
    fun early => ⟨unopened early, rfl⟩

theorem SameReads.asks (same : SameReads r r') (asks : Asks r) : Asks r' := by
  refine asks.quiet ⟨same.kind, same.type, same.session⟩ same.emitted same.readLog
    (fun on => same.reading ▸ on) fun early => ?_
  unfold Unopened at early ⊢
  rwa [same.startup] at early

theorem Asks.note_nil (asks : Asks r) (none : outs.filterMap RelayOut.asRequest = []) :
    Asks (r.note outs) := by
  refine asks.quiet ⟨rfl, rfl, rfl⟩ ?_ rfl id id
  show r.log.emitted ++ outs.filterMap RelayOut.asRequest = _
  rw [none, List.append_nil]

/-- The catch block of a raw_tcp. -/
theorem Asks.caught {a : Relay} (asks : Asks a) (kind : a.kind = r.kind)
    (session : a.session = r.session) (late : ¬ a.Unopened) :
    Asks (a.stopHere.note (r.farewell alive)) := by
  have stopped := sameReads_stopHere a
  unfold farewell
  split
  · rename_i tells
    refine (stopped.asks asks).more [⟨r.session, .stopTcp, []⟩] ⟨rfl, rfl, rfl⟩ rfl
      (fun _ => (List.append_nil _).symm) (fun buf member => ?_) (fun buf member => ?_)
      (fun _ _ => id) fun early => absurd ?_ late
    · obtain rfl := List.mem_singleton.mp member
      exact ⟨(stopped.session.trans session).symm, Nat.zero_le _⟩
    · obtain rfl := List.mem_singleton.mp member
      exact .inl ⟨(stopped.kind.trans kind).trans tells.1, .inr rfl⟩
    · unfold Unopened at early ⊢
      rwa [show (a.stopHere.note _).startup = a.startup from stopped.startup] at early
  · exact (stopped.asks asks).note_nil rfl

theorem not_unopened (startup : r.startup = .idle ∨ r.startup = .okReply) : ¬ r.Unopened := by
  unfold Unopened
  rcases startup with idle | reply
  · rw [idle]
    decide
  · rw [reply]
    decide

/-- A request that is read lies in the buffer. -/
theorem connects_request {buf : List UInt8} (accepts : AcceptsRequest buf)
    (fits : buf.length ≤ readBufferSize) : Connects ⟨r.session, .startTcp, buf.drop 3⟩ := by
  refine ⟨rfl, ?_, ?_⟩
  · show (buf.drop 3).length ≤ readBufferSize
    rw [List.length_drop]
    omega
  · show (parseAddress (buf.drop 3) (buf.drop 3).length).isOk
    rw [List.length_drop]
    exact accepts.2.2

/-- **One handler** and what it asks. -/
theorem Handles.asks (handled : Handles alive r ev r' outs) (ok : KindOk r) (starts : StartsOnce r)
    (asks : Asks r) : Asks (r'.note outs) := by
  by_cases send : RelayEvent.IsSend ev
  · obtain ⟨same, rfl⟩ := handled.sameReads send
    exact (same.asks asks).note_nil rfl
  have late (reads : r.Reads) : ¬ r.Unopened := not_unopened (starts.later reads)
  have noted {a : Relay} (after : Asks a) (none : outs.filterMap RelayOut.asRequest = []) :
      Asks (a.note outs) := after.note_nil none
  have moved {a : Relay} (s : Startup) (startup : a.startup = s)
      (other : s ∉ [.greeting, .greetingReply, .request, .directResolve, .directConnect])
      (isEarly : a.Unopened) : r.Unopened := by
    unfold Unopened at isEarly
    exact absurd (startup ▸ isEarly) other
  have early {s : Startup} (startup : r.startup = s)
      (is : s ∈ [.greeting, .greetingReply, .request, .directResolve, .directConnect]) :
      r.Unopened := by
    unfold Unopened
    rwa [startup]
  cases handled with
  | arrive => exact noted (asks.quiet ⟨rfl, rfl, rfl⟩ rfl rfl id id) rfl
  | @readRaw bytes arrived reading raw _ =>
    have tcp : r.kind = .rawTcp := by
      cases kind : r.kind with
      | rawTcp => rfl
      | ssl => exact absurd kind raw
      | rawUdp => exact absurd kind (ok.stream arrived).1
    refine asks.more [⟨r.session, .dataTcp, bytes⟩] ⟨rfl, rfl, rfl⟩ rfl (fun _ => ?_)
      (fun buf member => ?_) (fun buf member => ?_) (fun _ _ => id)
      fun isEarly => absurd isEarly (late (.inl reading))
    · show r.log.readLog ++ bytes = r.log.readLog ++ (bytes ++ [])
      rw [List.append_nil]
    · obtain rfl := List.mem_singleton.mp member
      exact ⟨rfl, (ok.stream arrived).2.2.2 tcp⟩
    · obtain rfl := List.mem_singleton.mp member
      exact .inl ⟨tcp, .inl ⟨rfl, reading⟩⟩
  | @readDatagram peer bytes arrived reading _ =>
    obtain ⟨udp, fits⟩ := ok.datagram arrived
    have remote : r.type = .remoteServer := by
      by_contra localSide
      exact absurd reading (Bool.eq_false_iff.mp (ok.localUdp udp localSide))
    refine asks.more [⟨r.session, .dataUdp, udpHead (some peer) ++ bytes⟩] ⟨rfl, rfl, rfl⟩ rfl
      (fun tcp => absurd (udp.symm.trans tcp) nofun) (fun buf member => ?_) (fun buf member => ?_)
      (fun _ _ => id) fun isEarly => absurd isEarly (late (.inl reading))
    · obtain rfl := List.mem_singleton.mp member
      refine ⟨rfl, ?_⟩
      have whole : udpOffset ≤ readBufferSize := by decide
      show (udpHead (some peer) ++ bytes).length ≤ readBufferSize
      rw [List.length_append, length_udpHead]
      omega
    · obtain rfl := List.mem_singleton.mp member
      exact .inr ⟨udp, remote, rfl⟩
  | readMore _ _ ssl | readMessage _ _ ssl | readMessageDead _ _ ssl | readOverrun _ _ ssl =>
    refine asks.more [] ⟨rfl, rfl, rfl⟩ rfl (fun tcp => absurd (ssl.symm.trans tcp) nofun) nofun
      nofun (fun _ tcp => absurd (ssl.symm.trans tcp) nofun) fun isEarly => ⟨isEarly, rfl⟩
  | readThrew _ _ ssl =>
    refine noted ((sameReads_stopHere _).asks ?_) rfl
    exact asks.more [] ⟨rfl, rfl, rfl⟩ (List.append_nil _).symm
      (fun tcp => absurd (ssl.symm.trans tcp) nofun) nofun nofun (fun _ _ => nofun)
      fun isEarly => ⟨isEarly, rfl⟩
  | readRawDead | readDatagramDead => exact noted asks rfl
  | readError reading =>
    exact Asks.caught (asks.quiet ⟨rfl, rfl, rfl⟩ rfl rfl nofun id) rfl rfl (late (.inl reading))
  | greeting startup | greetingReply startup | directResolve startup | requestDead startup
  | requestDirect startup =>
    exact noted (asks.quiet ⟨rfl, rfl, rfl⟩ rfl rfl id fun _ => early startup (by decide)) rfl
  | directConnect =>
    exact noted (asks.quiet ⟨rfl, rfl, rfl⟩ rfl rfl id (moved .okReply rfl (by decide))) rfl
  | okReply => exact noted (asks.quiet ⟨rfl, rfl, rfl⟩ rfl rfl id (moved .idle rfl (by decide))) rfl
  | resolve =>
    exact noted (asks.quiet ⟨rfl, rfl, rfl⟩ rfl rfl id (moved .connect rfl (by decide))) rfl
  | connectSsl =>
    exact noted (asks.quiet ⟨rfl, rfl, rfl⟩ rfl rfl id (moved .handshake rfl (by decide))) rfl
  | connectRaw startup =>
    refine noted (asks.more [] ⟨rfl, rfl, rfl⟩ (List.append_nil _).symm
      (fun _ => (List.append_nil _).symm) nofun nofun (fun localSide tcp => ?_)
      fun isEarly => ⟨moved .idle rfl (by decide) isEarly, rfl⟩) rfl
    -- a raw_tcp that connects is one of the remote side
    rcases ok.connects (.inr startup) with ⟨ssl, _⟩ | ⟨_, remote⟩
    · exact absurd (ssl.symm.trans tcp) nofun
    · exact absurd remote localSide
  | handshake startup =>
    refine noted (asks.more [] ⟨rfl, rfl, rfl⟩ (List.append_nil _).symm
      (fun _ => (List.append_nil _).symm) nofun nofun (fun _ tcp => ?_)
      fun isEarly => ⟨moved .idle rfl (by decide) isEarly, rfl⟩) rfl
    exact absurd ((ok.handshakes startup).symm.trans tcp) nofun
  | startupThrew | requestBad =>
    exact Asks.caught (asks.quiet ⟨rfl, rfl, rfl⟩ rfl rfl id (moved .idle rfl (by decide))) rfl rfl
      (not_unopened (.inl rfl))
  | @requestBlocked _ buf startup arrived accepts _ _ =>
    obtain ⟨tcp, isLocal⟩ := ok.localServer (by rw [startup]; decide)
    have none := asks.unopened (early startup (by decide))
    have bytes := asks.bytes tcp
    have localSide : r.type ≠ .remoteServer := isLocal ▸ nofun
    have connects := connects_request (r := r) accepts ((ok.stream arrived).2.2.2 tcp)
    rw [none] at bytes
    have emitted : r.log.emitted ++ [⟨r.session, .startTcp, buf.drop 3⟩] =
        [⟨r.session, .startTcp, buf.drop 3⟩] := by rw [none, List.nil_append]
    refine @asks_of_start _ (buf.drop 3) emitted tcp localSide connects ?_ ?_
    · exact bytes.symm
    · exact not_unopened (.inr rfl)
  | direct => exact noted (asks.quiet ⟨rfl, rfl, rfl⟩ rfl rfl id id) rfl
  | directFailed _ _ on =>
    exact Asks.caught (asks.quiet ⟨rfl, rfl, rfl⟩ rfl rfl id id) rfl rfl (late (.inr on))
  | _ => exact absurd trivial send

theorem Born.asks (born : r.Born) : Asks r := by
  have log := born.log
  exact asks_of_nil (by rw [log]) (by rw [log]) fun _ => born.reading

theorem Calls.asks {c : RelayCall} (called : Calls r c r') (proper : r.Proper (.call c))
    (ok : KindOk r) (asks : Asks r) : Asks r' := by
  cases called with
  | begin =>
    obtain ⟨_, born⟩ := proper
    have log := born.log
    refine asks_of_nil ?_ ?_ fun _ => born.reading
    · show r.log.emitted = []
      rw [log]
    · show r.log.readLog = []
      rw [log]
  | @emit buf =>
    obtain ⟨tcp, transparent, session, ⟨stop, empty⟩ | ⟨born, connects⟩⟩ := proper
    · refine asks.more [buf] ⟨rfl, rfl, rfl⟩ rfl (fun _ => ?_) (fun b member => ?_)
        (fun b member => ?_) (fun _ _ => id) fun isEarly => ?_
      · unfold tcpText
        rw [List.filter_cons_of_neg (by rw [stop]; decide)]
        exact (List.append_nil _).symm
      · obtain rfl := List.mem_singleton.mp member
        refine ⟨session, ?_⟩
        unfold Frame.Fits
        rw [empty]
        exact Nat.zero_le _
      · obtain rfl := List.mem_singleton.mp member
        exact .inl ⟨tcp, .inr stop⟩
      · -- `impl_start_transparent` has no await
        have known := ok.startup
        rw [tcp, transparent] at known
        exact absurd isEarly (not_unopened (.inl (List.mem_singleton.mp known)))
    · obtain ⟨_, cmd, payload⟩ := buf
      obtain rfl : cmd = .startTcp := connects.1
      obtain rfl := session
      have log := born.log
      refine @asks_of_start _ payload ?_ tcp (transparent ▸ nofun) connects ?_
        (not_unopened (.inl (born.idle (tcp ▸ nofun))))
      · show r.log.emitted ++ [_] = _
        rw [log]
        rfl
      · show r.log.readLog = []
        rw [log]
  | startRead =>
    obtain ⟨tcp, transparent, _, payload, log⟩ := proper
    have emitted : r.log.emitted = [⟨r.session, .startTcp, payload⟩] := by rw [log]
    obtain ⟨own, ssl, udp, tcpAsks, bytes, _, once, unopened⟩ := asks
    exact ⟨own, ssl, udp, tcpAsks, bytes, fun _ _ _ => ⟨_, _, emitted, rfl⟩, once, unopened⟩
  | startUdpRemote =>
    exact asks.more [] ⟨rfl, rfl, rfl⟩ (List.append_nil _).symm (fun _ => (List.append_nil _).symm)
      nofun nofun (fun _ tcp => absurd (proper.1.symm.trans tcp) nofun) fun early => ⟨early, rfl⟩
  | _ => exact asks.quiet ⟨rfl, rfl, rfl⟩ rfl rfl id id

theorem Lives.asks (lives : r.Lives) : Asks r :=
  lives.invariant Born.asks (fun lives asks proper called => called.asks proper lives.kindOk asks)
    fun lives asks handled => handled.asks lives.kindOk lives.startsOnce asks

end Relay

end SslSocks
