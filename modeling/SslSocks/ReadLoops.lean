import SslSocks.SendQueue

/-!
# The read loops over the life of a relay

`KindOk` says how a relay of each kind starts and what its reads bring. From it comes
what an `ssl_relay` hands on: the text of its messages begins what its read loop
received (`Lives.sslReads`).
-/

namespace SslSocks

open Lib

namespace Relay

/-- The await points of the start-up of a relay. -/
def startups : RelayKind → ServerType → List Startup
  | .rawUdp, _ | .rawTcp, .localTransparent => [.idle]
  | .rawTcp, .remoteServer => [.idle, .resolve, .connect]
  | .rawTcp, .localServer =>
    [.idle, .greeting, .greetingReply, .request, .directResolve, .directConnect, .okReply]
  | .ssl, .remoteServer => [.idle, .handshake]
  | .ssl, _ => [.idle, .resolve, .connect, .handshake]

/-- A relay starts as its kind does, and a completed read is one of its kind. -/
structure KindOk (r : Relay) : Prop where
  startup : r.startup ∈ startups r.kind r.type
  direct : r.tcp.toClient ≠ .off ∨ r.tcp.toRemote ≠ .off →
    r.kind = .rawTcp ∧ r.type = .localServer
  stream : ∀ {bytes}, r.arrived = some (.stream bytes) → r.kind ≠ .rawUdp ∧ bytes ≠ [] ∧
    (r.kind = .ssl → bytes.length ≤ r.ssl.reader.want) ∧
    (r.kind = .rawTcp → bytes.length ≤ readBufferSize)
  datagram : ∀ {peer bytes}, r.arrived = some (.datagram peer bytes) →
    r.kind = .rawUdp ∧ bytes.length ≤ readBufferSize - udpOffset
  localUdp : r.kind = .rawUdp → r.type ≠ .remoteServer → r.reading = false

variable {r r' : Relay} {alive : Bool} {ev : RelayEvent} {outs : List RelayOut}

theorem startups_idle (kind : RelayKind) (type : ServerType) : .idle ∈ startups kind type := by
  cases kind <;> cases type <;> simp [startups]

/-- The steps of `impl_start_local` are those of a raw_tcp of a local server. -/
theorem KindOk.localServer (ok : KindOk r)
    (other : r.startup ∉ [.idle, .resolve, .connect, .handshake]) :
    r.kind = .rawTcp ∧ r.type = .localServer := by
  have known := ok.startup
  cases kind : r.kind <;> cases type : r.type <;> rw [kind, type] at known <;>
    simp_all [startups]

/-- A relay that connects is a local `ssl_relay` or a raw_tcp of the remote side. -/
theorem KindOk.connects (ok : KindOk r) (startup : r.startup = .resolve ∨ r.startup = .connect) :
    r.kind = .ssl ∧ r.type ≠ .remoteServer ∨ r.kind = .rawTcp ∧ r.type = .remoteServer := by
  have known := ok.startup
  cases kind : r.kind <;> cases type : r.type <;> rw [kind, type] at known <;>
    rcases startup with startup | startup <;> rw [startup] at known <;>
    simp [startups] at known ⊢

theorem KindOk.handshakes (ok : KindOk r) (startup : r.startup = .handshake) : r.kind = .ssl := by
  have known := ok.startup
  cases kind : r.kind <;> cases type : r.type <;> rw [kind, type, startup] at known <;>
    simp [startups] at known ⊢

/-- An `ssl_relay` that reads has started. -/
theorem KindOk.idle_of_reading (ok : KindOk r) (starts : StartsOnce r) (ssl : r.kind = .ssl)
    (reading : r.reading) : r.startup = .idle := by
  rcases starts.later (.inl reading) with idle | reply
  · exact idle
  · have isLocal := ok.localServer (by rw [reply]; decide)
    exact absurd (ssl.symm.trans isLocal.1) nofun

/-- What a step may do to the parts that `KindOk` speaks of. -/
theorem KindOk.of_step (ok : KindOk r) (kind : r'.kind = r.kind) (type : r'.type = r.type)
    (startup : r'.startup ∈ startups r.kind r.type)
    (direct : r'.tcp.toClient ≠ .off ∨ r'.tcp.toRemote ≠ .off → r.kind = .rawTcp ∧ r.type = .localServer)
    (arrived : r'.arrived = none ∨ r'.arrived = r.arrived ∧ r'.ssl.reader = r.ssl.reader)
    (reading : r.kind = .rawUdp → r.type ≠ .remoteServer → r'.reading = false) : KindOk r' := by
  refine ⟨?_, fun on => ?_, fun came => ?_, fun came => ?_, fun udp localSide => ?_⟩
  · rw [kind, type]
    exact startup
  · rw [kind, type]
    exact direct on
  · rcases arrived with none | ⟨same, reader⟩
    · exact absurd (none.symm.trans came) nofun
    · rw [kind, reader]
      exact ok.stream (same ▸ came)
  · rcases arrived with none | ⟨same, _⟩
    · exact absurd (none.symm.trans came) nofun
    · rw [kind]
      exact ok.datagram (same ▸ came)
  · exact reading (kind ▸ udp) (type ▸ localSide)

/-! ## What a step leaves -/

/-- The parts of a relay that reading and asking go by. -/
structure SameReads (r r' : Relay) : Prop where
  kind : r'.kind = r.kind
  type : r'.type = r.type
  session : r'.session = r.session
  startup : r'.startup = r.startup
  tcp : r'.tcp = r.tcp
  arrived : r'.arrived = r.arrived
  reader : r'.ssl.reader = r.ssl.reader
  reading : r'.reading = r.reading
  readLog : r'.log.readLog = r.log.readLog
  emitted : r'.log.emitted = r.log.emitted
  delivered : r'.log.delivered = r.log.delivered

theorem SameReads.after {a b : Relay} (same : SameReads a b) (first : SameReads r a) :
    SameReads r b where
  kind := same.kind.trans first.kind
  type := same.type.trans first.type
  session := same.session.trans first.session
  startup := same.startup.trans first.startup
  tcp := same.tcp.trans first.tcp
  arrived := same.arrived.trans first.arrived
  reader := same.reader.trans first.reader
  reading := same.reading.trans first.reading
  readLog := same.readLog.trans first.readLog
  emitted := same.emitted.trans first.emitted
  delivered := same.delivered.trans first.delivered

theorem sameReads_stopHere (r : Relay) : SameReads r r.stopHere := by
  rcases stopHere_cases r with ⟨_, same⟩ | ⟨_, ⟨_, same⟩ | ⟨bound, same⟩⟩ <;> rw [same] <;>
    exact ⟨rfl, rfl, rfl, rfl, rfl, rfl, rfl, rfl, rfl, rfl, rfl⟩

theorem SendLoop.sameReads (loop : SendLoop r r') : SameReads r r' := by
  cases loop with
  | threw =>
    exact (sameReads_stopHere _).after ⟨rfl, rfl, rfl, rfl, rfl, rfl, rfl, rfl, rfl, rfl, rfl⟩
  | _ => exact ⟨rfl, rfl, rfl, rfl, rfl, rfl, rfl, rfl, rfl, rfl, rfl⟩

/-- The posted handlers, the stop of an `ssl_relay` and the sends. -/
def RelayEvent.IsSend : RelayEvent → Prop
  | .task | .stop | .closed | .startSend _ | .take _ | .transmit | .sent _ | .sendError => True
  | _ => False

theorem Handles.sameReads (handled : Handles alive r ev r' outs) (send : RelayEvent.IsSend ev) :
    SameReads r r' ∧ outs = [] := by
  cases handled with
  | @stopTask inbox _ =>
    refine ⟨?_, rfl⟩
    rcases stopTask_cases { r with inbox } with ⟨_, same⟩ | ⟨bound, same⟩ <;> rw [same] <;>
      exact ⟨rfl, rfl, rfl, rfl, rfl, rfl, rfl, rfl, rfl, rfl, rfl⟩
  | startSend _ _ loop | sent _ loop =>
    exact ⟨loop.sameReads.after ⟨rfl, rfl, rfl, rfl, rfl, rfl, rfl, rfl, rfl, rfl, rfl⟩, rfl⟩
  | sendError =>
    exact ⟨(sameReads_stopHere _).after
      ⟨rfl, rfl, rfl, rfl, rfl, rfl, rfl, rfl, rfl, rfl, rfl⟩, rfl⟩
  | dropped | pushed | startInit | addPeer | delPeer | sslStop | closed | startIdle | take
  | transmit => exact ⟨⟨rfl, rfl, rfl, rfl, rfl, rfl, rfl, rfl, rfl, rfl, rfl⟩, rfl⟩
  | _ => exact send.elim

theorem KindOk.of_same (ok : KindOk r) (same : SameReads r r') : KindOk r' := by
  refine ok.of_step same.kind same.type (same.startup ▸ ok.startup) (fun on => ?_)
    (.inr ⟨same.arrived, same.reader⟩) fun udp localSide => same.reading.trans (ok.localUdp udp localSide)
  rw [same.tcp] at on
  exact ok.direct on

theorem KindOk.stopHere (ok : KindOk r) : KindOk r.stopHere := ok.of_same (sameReads_stopHere r)

theorem Handles.kindOk (handled : Handles alive r ev r' outs) (ok : KindOk r) : KindOk r' := by
  have idle := startups_idle r.kind r.type
  have notLocalUdp {t : ServerType} (kind : r.kind = .rawTcp ∧ r.type = t) (udp : r.kind = .rawUdp) :
      False := absurd (kind.1.symm.trans udp) nofun
  -- a step of `impl_start_local`
  have goes {a : Relay} (other : r.startup ∉ [.idle, .resolve, .connect, .handshake])
      (kind : a.kind = r.kind) (type : a.type = r.type) {step : Startup}
      (startup : a.startup = step) (next : step ∈ startups .rawTcp .localServer)
      (arrived : a.arrived = none ∨ a.arrived = r.arrived ∧ a.ssl.reader = r.ssl.reader) :
      KindOk a := by
    have isLocal := ok.localServer other
    refine ok.of_step kind type ?_ (fun _ => isLocal) arrived fun udp => (notLocalUdp isLocal udp).elim
    rw [isLocal.1, isLocal.2, startup]
    exact next
  cases handled with
  | @arrive arrival _ _ _ fits =>
    refine ⟨ok.startup, ok.direct, fun {bytes} came => ?_, fun {peer bytes} came => ?_, ok.localUdp⟩
    · obtain rfl : arrival = .stream bytes := Option.some.inj came
      obtain ⟨raw, full, within⟩ := fits
      refine ⟨raw, full, fun ssl => ?_, fun tcp => ?_⟩
      · simp only [readSize, show r.kind = .ssl from ssl] at within
        exact within
      · simp only [readSize, show r.kind = .rawTcp from tcp] at within
        split at within
        · exact within
        · exact Nat.le_trans within (by decide)
    · obtain rfl : arrival = .datagram peer bytes := Option.some.inj came
      obtain ⟨udp, within⟩ := fits
      simp only [readSize, show r.kind = .rawUdp from udp] at within
      exact ⟨udp, within⟩
  | readRaw | readMore | readMessage | readOverrun | readDatagram =>
    exact ok.of_step rfl rfl ok.startup ok.direct (.inl rfl) ok.localUdp
  | readMessageDead => exact ok.of_step rfl rfl ok.startup ok.direct (.inl rfl) fun _ _ => rfl
  | readThrew =>
    exact KindOk.stopHere (ok.of_step rfl rfl ok.startup ok.direct (.inl rfl) fun _ _ => rfl)
  | readError =>
    exact KindOk.stopHere (ok.of_step rfl rfl ok.startup ok.direct (.inr ⟨rfl, rfl⟩) fun _ _ => rfl)
  | greeting startup | requestBlocked startup | requestDirect startup =>
    exact goes (by rw [startup]; decide) rfl rfl rfl (by simp [startups]) (.inl rfl)
  | greetingReply startup | directResolve startup | directConnect startup | okReply startup =>
    exact goes (by rw [startup]; decide) rfl rfl rfl (by simp [startups]) (.inr ⟨rfl, rfl⟩)
  | requestDead startup =>
    exact goes (by rw [startup]; decide) rfl rfl startup (by simp [startups]) (.inl rfl)
  | requestBad startup =>
    exact KindOk.stopHere (goes (by rw [startup]; decide) rfl rfl rfl (by simp [startups]) (.inl rfl))
  | resolve startup =>
    refine ok.of_step rfl rfl ?_ ok.direct (.inr ⟨rfl, rfl⟩) ok.localUdp
    rcases ok.connects (.inl startup) with ⟨kind, localSide⟩ | ⟨kind, type⟩
    · rw [kind]
      cases type : r.type with
      | remoteServer => exact absurd type localSide
      | localServer | localTransparent => simp [startups]
    · rw [kind, type]
      simp [startups]
  | connectSsl startup _ ssl =>
    refine ok.of_step rfl rfl ?_ ok.direct (.inr ⟨rfl, rfl⟩) ok.localUdp
    rw [ssl]
    cases r.type <;> simp [startups]
  | connectRaw startup _ notSsl =>
    rcases ok.connects (.inr startup) with ⟨kind, _⟩ | isRemote
    · exact absurd kind notSsl
    · exact ok.of_step rfl rfl idle ok.direct (.inr ⟨rfl, rfl⟩) fun udp =>
        (notLocalUdp isRemote udp).elim
  | handshake startup =>
    refine ok.of_step rfl rfl idle ok.direct (.inr ⟨rfl, rfl⟩) fun udp => ?_
    exact absurd ((ok.handshakes startup).symm.trans udp) nofun
  | startupThrew =>
    exact KindOk.stopHere (ok.of_step rfl rfl idle ok.direct (.inr ⟨rfl, rfl⟩) ok.localUdp)
  | direct _ _ on =>
    exact ok.of_step rfl rfl ok.startup (fun _ => ok.direct on) (.inr ⟨rfl, rfl⟩) ok.localUdp
  | directFailed _ _ on =>
    exact KindOk.stopHere
      (ok.of_step rfl rfl ok.startup (fun _ => ok.direct on) (.inr ⟨rfl, rfl⟩) ok.localUdp)
  | readRawDead | readDatagramDead => exact ok
  | stopTask queue => exact ok.of_same (@Handles.sameReads _ _ alive _ _ (.stopTask queue) trivial).1
  | startSend some init loop =>
    exact ok.of_same (@Handles.sameReads _ _ alive (.startSend 0) _ (.startSend some init loop) trivial).1
  | sent sends loop =>
    exact ok.of_same (@Handles.sameReads _ _ alive (.sent 0) _ (.sent sends loop) trivial).1
  | sendError sends => exact ok.of_same (@Handles.sameReads _ _ alive _ _ (.sendError sends) trivial).1
  | _ => exact ok.of_same ⟨rfl, rfl, rfl, rfl, rfl, rfl, rfl, rfl, rfl, rfl, rfl⟩

/-- A call of the manager. -/
theorem Calls.kindOk {c : RelayCall} (called : Calls r c r') (proper : r.Proper (.call c))
    (ok : KindOk r) : KindOk r' := by
  cases called with
  | begin =>
    obtain ⟨kind, born⟩ := proper
    have idle := born.idle (kind ▸ nofun)
    refine ok.of_step rfl rfl ?_ (fun on => ?_) (.inr ⟨rfl, rfl⟩) fun udp => ?_
    · rw [Relay.begin, kind, idle]
      cases r.type <;> simp [startups]
    · rcases on with client | remote
      · exact absurd born.toClient client
      · exact absurd born.toRemote remote
    · exact absurd (kind.symm.trans udp) nofun
  | startRead =>
    refine ok.of_step rfl rfl ok.startup ok.direct (.inr ⟨rfl, rfl⟩) fun udp => ?_
    exact absurd (proper.1.symm.trans udp) nofun
  | startUdpRemote _ remote =>
    exact ok.of_step rfl rfl ok.startup ok.direct (.inr ⟨rfl, rfl⟩) fun _ localSide =>
      absurd remote localSide
  | _ => exact ok.of_step rfl rfl ok.startup ok.direct (.inr ⟨rfl, rfl⟩) ok.localUdp

theorem Born.kindOk (born : r.Born) : KindOk r := by
  refine ⟨?_, fun on => ?_, fun came => ?_, fun came => ?_, fun _ _ => born.reading⟩
  · rw [born.startup, firstStartup]
    cases kind : r.kind <;> cases type : r.type <;> simp [startups]
  · rcases on with client | remote
    · exact absurd born.toClient client
    · exact absurd born.toRemote remote
  · rw [born.arrived] at came
    cases came
  · rw [born.arrived] at came
    cases came

theorem KindOk.note (ok : KindOk r) : KindOk (r.note outs) :=
  ok.of_step rfl rfl ok.startup ok.direct (.inr ⟨rfl, rfl⟩) ok.localUdp

theorem Lives.kindOk (lives : r.Lives) : KindOk r :=
  lives.invariant Born.kindOk (fun _ ok proper called => called.kindOk proper ok)
    fun _ ok handled => (handled.kindOk ok).note

/-! ## The messages of an `ssl_relay` -/

/-- The messages handed on, and the one at hand, are what the read loop received. A loop
that has ended may have received more. -/
structure SslReads (r : Relay) : Prop where
  fits : ∀ buf ∈ r.log.delivered, buf.Fits
  reader : r.ssl.reader.Ok
  text : frameCode.encodeAll r.log.delivered ++ r.ssl.reader.text = r.log.readLog ∨
    r.reading = false ∧ r.startup = .idle ∧
      frameCode.encodeAll r.log.delivered <+: r.log.readLog

theorem SslReads.begins (reads : SslReads r) :
    frameCode.encodeAll r.log.delivered <+: r.log.readLog := by
  rcases reads.text with all | ⟨_, _, begins⟩
  · exact ⟨_, all⟩
  · exact begins

/-- A handler that reads nothing. -/
theorem SslReads.of_quiet (reads : SslReads r) (delivered : r'.log.delivered = r.log.delivered)
    (reader : r'.ssl.reader = r.ssl.reader) (readLog : r'.log.readLog = r.log.readLog)
    (ended : r.reading = false → r.startup = .idle → r'.reading = false ∧ r'.startup = .idle) :
    SslReads r' := by
  refine ⟨delivered ▸ reads.fits, reader ▸ reads.reader, ?_⟩
  rw [delivered, reader, readLog]
  rcases reads.text with all | ⟨off, idle, begins⟩
  · exact .inl all
  · obtain ⟨off, idle⟩ := ended off idle
    exact .inr ⟨off, idle, begins⟩

theorem responses_farewell : (r.farewell alive).filterMap RelayOut.asResponse = [] := by
  unfold farewell
  split <;> rfl

theorem SameReads.sslReads (same : SameReads r r') (reads : SslReads r) : SslReads r' :=
  reads.of_quiet same.delivered same.reader same.readLog fun off idle =>
    ⟨same.reading.trans off, same.startup.trans idle⟩

theorem SslReads.stopHere (reads : SslReads r) : SslReads r.stopHere :=
  (sameReads_stopHere r).sslReads reads

/-- **One handler** of an `ssl_relay`. -/
theorem Handles.sslReads (handled : Handles alive r ev r' outs) (ssl : r.kind = .ssl)
    (ok : KindOk r) (starts : StartsOnce r) (reads : SslReads r) : SslReads (r'.note outs) := by
  have quiet {a : Relay} (delivered : a.log.delivered = r.log.delivered)
      (reader : a.ssl.reader = r.ssl.reader) (readLog : a.log.readLog = r.log.readLog)
      (ended : r.reading = false → r.startup = .idle → a.reading = false ∧ a.startup = .idle) :=
    reads.of_quiet delivered reader readLog ended
  have noted {a : Relay} (after : SslReads a) (none : outs.filterMap RelayOut.asResponse = []) :
      SslReads (a.note outs) := by
    have delivered : (a.note outs).log.delivered = a.log.delivered := by
      show a.log.delivered ++ outs.filterMap RelayOut.asResponse = _
      rw [none, List.append_nil]
    exact after.of_quiet delivered rfl rfl fun off idle => ⟨off, idle⟩
  have busy {s : Startup} (startup : r.startup = s) (other : s ≠ .idle) (idle : r.startup = .idle) :
      False := other (startup.symm.trans idle)
  by_cases send : RelayEvent.IsSend ev
  · obtain ⟨same, rfl⟩ := handled.sameReads send
    exact noted (same.sslReads reads) rfl
  -- the read loop runs, so it has received what it handed on
  have all (reading : r.reading) :
      frameCode.encodeAll r.log.delivered ++ r.ssl.reader.text = r.log.readLog := by
    rcases reads.text with all | ⟨off, _⟩
    · exact all
    · exact absurd reading (Bool.eq_false_iff.mp off)
  have fed {bytes : List UInt8} (arrived : r.arrived = some (.stream bytes)) :=
    Reader.feed_spec reads.reader (ok.stream arrived).2.1 ((ok.stream arrived).2.2.1 ssl)
  have message {bytes : List UInt8} {buf : RelayData} (arrived : r.arrived = some (.stream bytes))
      (reading : r.reading) (is : r.ssl.reader.feed bytes = .message buf) :
      buf.frame.Fits ∧ frameCode.encodeAll (r.log.delivered ++ [buf.frame]) =
        r.log.readLog ++ bytes := by
    have spec := fed arrived
    rw [is] at spec
    refine ⟨RelayData.frame_fits spec.1, ?_⟩
    have encoded : frameCode.encode buf.frame = r.ssl.reader.text ++ bytes :=
      (RelayData.encode_frame spec.1).trans spec.2
    rw [PrefixCode.encodeAll_append, PrefixCode.encodeAll_cons, PrefixCode.encodeAll_nil,
      List.append_nil, encoded, ← List.append_assoc, all reading]
  cases handled with
  | arrive => exact noted (quiet rfl rfl rfl fun off idle => ⟨off, idle⟩) rfl
  | readRaw _ _ raw | readRawDead _ _ raw => exact absurd ssl raw
  | readDatagram arrived | readDatagramDead arrived =>
    exact absurd (ssl.symm.trans (ok.datagram arrived).1) nofun
  | @readMore bytes rd arrived reading _ is =>
    have spec := fed arrived
    rw [is] at spec
    refine noted ⟨reads.fits, spec.1, .inl ?_⟩ rfl
    show frameCode.encodeAll r.log.delivered ++ rd.text = r.log.readLog ++ bytes
    rw [spec.2, ← List.append_assoc, all reading]
  | @readMessage bytes buf arrived reading _ is =>
    obtain ⟨fits, text⟩ := message arrived reading is
    refine ⟨fun f member => ?_, Reader.ok_header, .inl ?_⟩
    · rcases List.mem_append.mp member with old | new
      · exact reads.fits f old
      · rw [List.mem_singleton.mp new]
        exact fits
    · show frameCode.encodeAll (r.log.delivered ++ [buf.frame]) ++ [] = r.log.readLog ++ bytes
      rw [List.append_nil, text]
  | @readMessageDead bytes buf arrived reading _ is =>
    have idle := ok.idle_of_reading starts ssl reading
    refine noted ⟨reads.fits, Reader.ok_header, .inr ⟨rfl, idle, ?_⟩⟩ rfl
    exact reads.begins.trans (List.prefix_append _ _)
  | readThrew arrived reading _ _ =>
    have idle := ok.idle_of_reading starts ssl reading
    refine noted (SslReads.stopHere ⟨reads.fits, reads.reader, .inr ⟨rfl, idle, ?_⟩⟩) rfl
    exact reads.begins.trans (List.prefix_append _ _)
  | readOverrun arrived _ _ is =>
    have spec := fed arrived
    rw [is] at spec
    exact spec.elim
  | readError =>
    exact noted (SslReads.stopHere (quiet rfl rfl rfl fun _ idle => ⟨rfl, idle⟩)) responses_farewell
  | greeting startup | greetingReply startup | directResolve startup | directConnect startup
  | okReply startup | resolve startup | connectSsl startup | connectRaw startup
  | handshake startup | requestDead startup | requestDirect startup | requestBlocked startup =>
    exact noted (quiet rfl rfl rfl fun _ idle => (busy startup nofun idle).elim) rfl
  | startupThrew | requestBad =>
    exact noted (SslReads.stopHere (quiet rfl rfl rfl fun off _ => ⟨off, rfl⟩)) responses_farewell
  | directFailed =>
    exact noted (SslReads.stopHere (quiet rfl rfl rfl fun off idle => ⟨off, idle⟩)) responses_farewell
  | direct => exact noted (quiet rfl rfl rfl fun off idle => ⟨off, idle⟩) rfl
  | _ => exact absurd trivial send

theorem Born.sslReads (born : r.Born) : SslReads r := by
  have log := born.log
  refine ⟨fun buf member => ?_, ?_, .inl ?_⟩
  · rw [log] at member
    cases member
  · rw [born.ssl]
    exact Reader.ok_header
  · rw [log, born.ssl]
    rfl

theorem Calls.sslReads {c : RelayCall} (called : Calls r c r') (proper : r.Proper (.call c))
    (ssl : r.kind = .ssl) (reads : SslReads r) : SslReads r' := by
  cases called with
  | begin | emit | startRead | startUdpRemote | startUdpLocal =>
    exact absurd (ssl.symm.trans proper.1) nofun
  | _ => exact reads.of_quiet rfl rfl rfl fun off idle => ⟨off, idle⟩

theorem Lives.sslReads (lives : r.Lives) (ssl : r.kind = .ssl) : SslReads r := by
  revert ssl
  refine lives.invariant (P := fun r => r.kind = .ssl → SslReads r) (fun born _ => born.sslReads)
    (fun {r c r'} _ reads proper called ssl => ?_) fun lives reads handled ssl => ?_
  · have before : r.kind = .ssl := by cases called <;> exact ssl
    exact called.sslReads proper before (reads before)
  · have before := handled.sameCalls.kind.symm.trans ssl
    exact handled.sslReads before lives.kindOk lives.startsOnce (reads before)

end Relay

end SslSocks
