import SslSocks.Relay

/-!
# What one handler of a relay can do

`Relay.Handles` lists the outcomes of `Relay.handle` with their guards, and
`Relay.handles_of_handle` shows that the list is complete: an invariant of a relay
is checked by cases on it. `Relay.SendLoop` does the same for the loop of
`start_send`, which is entered from two events.
-/

namespace SslSocks

namespace Relay

/-- The bytes `internal_send_data` writes to a stream. -/
def text (r : Relay) (buf : Frame) : List UInt8 :=
  if r.kind = .ssl then buf.encode else buf.payload

/-- `impl_start_local` goes on with the request: it is a complete connect request. -/
def AcceptsRequest (buf : List UInt8) : Prop :=
  6 ≤ buf.length ∧ buf.getD 1 0 = 1 ∧ (parseAddress (buf.drop 3) (buf.length - 3)).isOk

/-- The entries of `_peers` are still there. -/
def KeepsPeers (udp udp' : UdpImpl) : Prop :=
  ∀ {s peer}, udp.peers.lookup s = some peer → udp'.peers.lookup s = some peer

/-- The loop of `start_send` up to its next await. A raw_udp may add to its table
before a datagram is sent or an exception thrown; `_udp_send` may change its socket. -/
inductive SendLoop (r : Relay) : Relay → Prop
  | empty : r.bufs = [] → SendLoop r { r with state := .init }
  | stopped : r.bufs ≠ [] → r.state = .stop → SendLoop r r
  | stream {buf : Frame} {rest : List Frame} :
    r.bufs = buf :: rest → r.state ≠ .stop → r.kind ≠ .rawUdp →
    SendLoop r { r with
      timeout := timeoutTicks
      sending := some (.stream (r.text buf))
      log.passed := r.log.passed ++ [buf] }
  | datagram {buf : Frame} {rest : List Frame} (udp : UdpImpl) (sock : Bool) (dst : Endpoint) :
    r.bufs = buf :: rest → r.state ≠ .stop → r.kind = .rawUdp → KeepsPeers r.udp udp →
    sock = r.sock ∨ r.type = .localTransparent →
    (∃ done, getSendDataAddr
        { r with timeout := timeoutTicks, log.passed := r.log.passed ++ [buf] } buf done =
      .ok ({ r with timeout := timeoutTicks, sock, udp, log.passed := r.log.passed ++ [buf] }, dst)) →
    SendLoop r { r with
      timeout := timeoutTicks
      sending := some (.datagram dst (udpWindow buf) false)
      sock
      udp
      log.passed := r.log.passed ++ [buf] }
  | threw {buf : Frame} {rest : List Frame} (udp : UdpImpl) (sock : Bool) :
    r.bufs = buf :: rest → r.state ≠ .stop → r.kind = .rawUdp → KeepsPeers r.udp udp →
    sock = r.sock ∨ r.type = .localTransparent →
    (∃ done, getSendDataAddr
        { r with timeout := timeoutTicks, log.passed := r.log.passed ++ [buf] } buf done =
      .error { r with timeout := timeoutTicks, sock, udp, log.passed := r.log.passed ++ [buf] }) →
    SendLoop r (stopHere { r with
      timeout := timeoutTicks
      sock
      udp
      log.passed := r.log.passed ++ [buf] })

theorem rebind_eq (r : Relay) (addr : Endpoint) (done : Nat) :
    ∃ udp sock, r.rebind addr done = { r with udp, sock } ∧ udp.peers = r.udp.peers := by
  unfold rebind
  split
  · exact ⟨r.udp, r.sock, rfl, rfl⟩
  · split
    · exact ⟨_, _, rfl, rfl⟩
    · split <;> exact ⟨_, _, rfl, rfl⟩

theorem rebind_of_rebinds {addr : Endpoint} {done : Nat} (all : rebinds addr done) (r : Relay) :
    r.rebind addr done = { r with sock := true, udp.bound := some addr } := by
  have calls : 5 ≤ done := by
    rw [rebinds, Bool.and_eq_true, decide_eq_true_iff] at all
    exact all.1
  unfold rebind
  rw [if_neg (by omega), if_neg (by omega), if_pos all]

theorem getSendDataAddr_eq (r : Relay) (buf : Frame) (done : Nat) :
    ∃ udp sock, KeepsPeers r.udp udp ∧ (sock = r.sock ∨ r.type = .localTransparent) ∧
      ((∃ dst, r.getSendDataAddr buf done = .ok ({ r with udp, sock }, dst)) ∨
        r.getSendDataAddr buf done = .error { r with udp, sock }) := by
  unfold getSendDataAddr
  split
  · refine ⟨_, r.sock, ?_, .inl rfl, .inl ⟨_, rfl⟩⟩
    exact id
  · rename_i transparent
    have moved : ∃ udp sock,
        (if r.udp.localAddr ≠ getDataAddr buf.payload then
            { r with udp.localAddr := getDataAddr buf.payload }.rebind
              (getDataAddr buf.payload) done
          else r) = { r with udp, sock } ∧ udp.peers = r.udp.peers := by
      split
      · obtain ⟨udp, sock, same, peers⟩ :=
          rebind_eq { r with udp.localAddr := getDataAddr buf.payload }
            (getDataAddr buf.payload) done
        exact ⟨udp, sock, same, peers⟩
      · exact ⟨r.udp, r.sock, rfl, rfl⟩
    obtain ⟨udp, sock, same, peers⟩ := moved
    have kept : KeepsPeers r.udp udp := fun there => peers ▸ there
    simp only [same]
    split
    · exact ⟨udp, sock, kept, .inr transparent, .inr rfl⟩
    · cases peer : udp.peers.lookup buf.session with
      | some dst => exact ⟨udp, sock, kept, .inr transparent, .inl ⟨_, rfl⟩⟩
      | none =>
        refine ⟨_, sock, fun {s e} there => ?_, .inr transparent, .inl ⟨_, rfl⟩⟩
        -- the entry that the lookup inserts is new
        have other : s ≠ buf.session := by
          rintro rfl
          rw [kept there] at peer
          cases peer
        exact Lib.Map.lookup_insert.trans ((if_neg other).trans (kept there))
  · exact ⟨r.udp, r.sock, id, .inl rfl, .inl ⟨_, rfl⟩⟩

theorem sendLoop_spec (r : Relay) (done : Nat) : SendLoop r (r.sendLoop done) := by
  obtain bufs | ⟨buf, rest, bufs⟩ : r.bufs = [] ∨ ∃ buf rest, r.bufs = buf :: rest := by
    cases r.bufs <;> simp
  · have loop : r.sendLoop done = { r with state := .init } := by simp only [sendLoop, bufs]
    rw [loop]
    exact .empty bufs
  · by_cases stopped : r.state = .stop
    · have loop : r.sendLoop done = r := by simp only [sendLoop, bufs, stopped, ↓reduceIte]
      rw [loop]
      exact .stopped (bufs ▸ List.cons_ne_nil _ _) stopped
    · -- the relay as `internal_send_data` finds it
      let started : Relay :=
        { r with timeout := timeoutTicks, log.passed := r.log.passed ++ [buf] }
      have loopOk {m : Relay} (sent : started.internalSendData buf done = .ok m) :
          r.sendLoop done = m := by
        unfold sendLoop
        rw [bufs]
        refine (if_neg stopped).trans ?_
        split
        · rename_i ok
          exact Except.ok.inj (ok.symm.trans sent)
        · rename_i threw
          cases threw.symm.trans sent
      have loopError {m : Relay} (sent : started.internalSendData buf done = .error m) :
          r.sendLoop done = m.stopHere := by
        unfold sendLoop
        rw [bufs]
        refine (if_neg stopped).trans ?_
        split
        · rename_i ok
          cases ok.symm.trans sent
        · rename_i threw
          rw [Except.error.inj (threw.symm.trans sent)]
      obtain stream | udp : r.kind ≠ .rawUdp ∨ r.kind = .rawUdp := ne_or_eq _ _
      · have sent : started.internalSendData buf done =
            .ok { started with sending := some (.stream (r.text buf)) } := by
          simp only [internalSendData, text, started, resetTimeout]
          split <;> simp_all only [reduceCtorEq, ↓reduceIte, ne_eq, not_true_eq_false]
        rw [loopOk sent]
        exact .stream bufs stopped stream
      · obtain ⟨impl, sock, kept, moves, ⟨dst, found⟩ | threw⟩ := getSendDataAddr_eq started buf done
        · have sent : started.internalSendData buf done =
              .ok { started with
                sock
                udp := impl
                sending := some (.datagram dst (udpWindow buf) false) } := by
            have kind : started.kind = .rawUdp := udp
            simp only [internalSendData, kind, found]
          rw [loopOk sent]
          exact .datagram impl sock dst bufs stopped udp kept moves ⟨done, found⟩
        · have sent : started.internalSendData buf done =
              .error { started with sock, udp := impl } := by
            have kind : started.kind = .rawUdp := udp
            simp only [internalSendData, kind, threw]
          rw [loopError sent]
          exact .threw impl sock bufs stopped udp kept moves ⟨done, threw⟩

/-- The handler of `stop_relay`. -/
theorem stopTask_cases (r : Relay) :
    r.state = .stop ∧ r.stopTask = r ∨
      ∃ bound, r.stopTask = { r with state := .stop, sock := false, udp.bound := bound } := by
  unfold stopTask
  split
  · split
    · rename_i stopped
      exact .inl ⟨stopped, rfl⟩
    · exact .inr ⟨r.udp.bound, rfl⟩
  · exact .inr ⟨none, rfl⟩

/-- `stop_relay` in the strand, by the kind of the relay. -/
theorem stopHere_cases (r : Relay) :
    r.kind = .ssl ∧ r.stopHere = { r with ssl.stops := r.ssl.stops + 1 } ∨
      r.kind ≠ .ssl ∧ (r.state = .stop ∧ r.stopHere = r ∨
        ∃ bound, r.stopHere = { r with state := .stop, sock := false, udp.bound := bound }) := by
  unfold stopHere
  split
  · rename_i ssl
    exact .inl ⟨ssl, rfl⟩
  · rename_i raw
    exact .inr ⟨raw, stopTask_cases r⟩

/-- What the catch block of a raw_tcp sends. -/
def farewell (r : Relay) (alive : Bool) : List RelayOut :=
  if r.kind = .rawTcp ∧ alive then [.request ⟨r.session, .stopTcp, []⟩] else []

/-- The outcomes of one handler. -/
inductive Handles (alive : Bool) (r : Relay) :
    RelayEvent → Relay → List RelayOut → Prop
  | dropped {buf : Frame} {inbox : List RelayTask} :
    r.inbox = .sendData buf :: inbox → r.state = .stop →
    Handles alive r .task { r with inbox } []
  | pushed {buf : Frame} {inbox : List RelayTask} :
    r.inbox = .sendData buf :: inbox → r.state ≠ .stop →
    Handles alive r .task
      { r with
        inbox
        bufs := r.bufs ++ [buf]
        activations := if r.state = .init ∧ r.bufs = [] then r.activations + 1 else r.activations
        log.accepted := r.log.accepted ++ [buf] } []
  | stopTask {inbox : List RelayTask} :
    r.inbox = .stopRelay :: inbox → Handles alive r .task (stopTask { r with inbox }) []
  | startInit {inbox : List RelayTask} :
    r.inbox = .startInit :: inbox →
    Handles alive r .task
      { r with inbox, state := .init, activations := r.activations + 1 } []
  | addPeer {session : UInt32} {peer : Endpoint} {inbox : List RelayTask} :
    r.inbox = .addPeer session peer :: inbox →
    Handles alive r .task ({ r with inbox }.addPeerTask session peer) []
  | delPeer {session : UInt32} {inbox : List RelayTask} :
    r.inbox = .delPeer session :: inbox →
    Handles alive r .task ({ r with inbox }.delPeerTask session) []
  | sslStop : 0 < r.ssl.stops → Handles alive r .stop r.sslStopTask []
  | closed :
    0 < r.ssl.closing →
    Handles alive r .closed { r with sock := false, ssl.closing := r.ssl.closing - 1 } []
  | startIdle {done : Nat} :
    0 < r.activations → r.state ≠ .init →
    Handles alive r (.startSend done) { r with activations := r.activations - 1 } []
  | startSend {done : Nat} {r' : Relay} :
    0 < r.activations → r.state = .init →
    SendLoop { r with activations := r.activations - 1, state := .start } r' →
    Handles alive r (.startSend done) r' []
  | take {count : Nat} {rest : List UInt8} :
    r.sending = some (.stream rest) → r.writable → 0 < count → count ≤ rest.length →
    Handles alive r (.take count)
      { r with
        sending := some (.stream (rest.drop count))
        log.written := r.log.written ++ rest.take count } []
  | transmit {dst : Endpoint} {window : List UInt8} :
    r.sending = some (.datagram dst (some window) false) → r.sock →
    Handles alive r .transmit
      { r with
        sending := some (.datagram dst (some window) true)
        log.sent := r.log.sent ++ [(r.udp.bound, dst, window)] } []
  | sent {done : Nat} {r' : Relay} :
    (r.sending = some (.stream []) ∨
      ∃ dst window, r.sending = some (.datagram dst window true)) →
    SendLoop { r with sending := none, bufs := r.bufs.tail } r' →
    Handles alive r (.sent done) r' []
  | sendError :
    r.sending ≠ none → Handles alive r .sendError (stopHere { r with sending := none }) []
  | arrive {arrival : Arrival} :
    r.awaitsRead → r.sock → r.arrived = none → r.CanArrive arrival →
    Handles alive r (.arrive arrival) { r with arrived := some arrival } []
  | readRaw {bytes : List UInt8} :
    r.arrived = some (.stream bytes) → r.reading → r.kind ≠ .ssl → alive →
    Handles alive r .read
      { r with
        arrived := none
        timeout := timeoutTicks
        log.readLog := r.log.readLog ++ bytes } [.request ⟨r.session, .dataTcp, bytes⟩]
  | readRawDead {bytes : List UInt8} :
    r.arrived = some (.stream bytes) → r.reading → r.kind ≠ .ssl → alive = false →
    Handles alive r .read r [.crash]
  | readMore {bytes : List UInt8} {rd : Reader} :
    r.arrived = some (.stream bytes) → r.reading → r.kind = .ssl →
    r.ssl.reader.feed bytes = .more rd →
    Handles alive r .read
      { r with
        arrived := none
        ssl.reader := rd
        log.readLog := r.log.readLog ++ bytes } []
  | readMessage {bytes : List UInt8} {buf : RelayData} :
    r.arrived = some (.stream bytes) → r.reading → r.kind = .ssl →
    r.ssl.reader.feed bytes = .message buf → alive →
    Handles alive r .read
      { r with
        arrived := none
        timeout := timeoutTicks
        ssl.reader := .header
        log.readLog := r.log.readLog ++ bytes } [.response buf.frame]
  | readMessageDead {bytes : List UInt8} {buf : RelayData} :
    r.arrived = some (.stream bytes) → r.reading → r.kind = .ssl →
    r.ssl.reader.feed bytes = .message buf → alive = false →
    Handles alive r .read
      { r with
        arrived := none
        reading := false
        timeout := timeoutTicks
        ssl.reader := .header
        log.readLog := r.log.readLog ++ bytes } []
  | readThrew {bytes : List UInt8} :
    r.arrived = some (.stream bytes) → r.reading → r.kind = .ssl →
    r.ssl.reader.feed bytes = .threw →
    Handles alive r .read
      (stopHere { r with
        arrived := none
        reading := false
        log.readLog := r.log.readLog ++ bytes }) []
  | readOverrun {bytes : List UInt8} :
    r.arrived = some (.stream bytes) → r.reading → r.kind = .ssl →
    r.ssl.reader.feed bytes = .overrun →
    Handles alive r .read
      { r with arrived := none, log.readLog := r.log.readLog ++ bytes } [.crash]
  | readDatagram {peer : Endpoint} {bytes : List UInt8} :
    r.arrived = some (.datagram peer bytes) → r.reading → alive →
    Handles alive r .read { r with arrived := none }
      [.request ⟨r.session, .dataUdp, udpHead (some peer) ++ bytes⟩]
  | readDatagramDead {peer : Endpoint} {bytes : List UInt8} :
    r.arrived = some (.datagram peer bytes) → r.reading → alive = false →
    Handles alive r .read r [.crash]
  | readError :
    r.reading → r.arrived = none →
    Handles alive r .readError (stopHere { r with reading := false }) (r.farewell alive)
  /-- The start-up steps after which only the start-up goes on. -/
  | greeting :
    r.startup = .greeting → r.arrived ≠ none →
    Handles alive r (.startup true) { r with startup := .greetingReply, arrived := none } []
  | greetingReply :
    r.startup = .greetingReply → Handles alive r (.startup true) { r with startup := .request } []
  | directResolve :
    r.startup = .directResolve →
    Handles alive r (.startup true)
      { r with startup := .directConnect, tcp.sockRemote := true } []
  | directConnect :
    r.startup = .directConnect →
    Handles alive r (.startup true)
      { r.enterInit with
        startup := .okReply
        tcp.toClient := .reading
        tcp.toRemote := .reading } []
  | okReply :
    r.startup = .okReply → Handles alive r (.startup true) { r with startup := .idle } []
  | resolve :
    r.startup = .resolve →
    Handles alive r (.startup true) { r with startup := .connect, sock := true } []
  | connectSsl :
    r.startup = .connect → r.sock → r.kind = .ssl →
    Handles alive r (.startup true) { r with startup := .handshake } []
  | connectRaw :
    r.startup = .connect → r.sock → r.kind ≠ .ssl →
    Handles alive r (.startup true) { r.enterInit with startup := .idle, reading := true } []
  | handshake :
    r.startup = .handshake →
    Handles alive r (.startup true)
      { r.enterInit with startup := .idle, reading := true, ssl.established := true } []
  | startupThrew :
    r.startup ≠ .idle → r.arrived = none →
    Handles alive r (.startup false) (stopHere { r with startup := .idle }) (r.farewell alive)
  | requestBad {blocked : Bool} {buf : List UInt8} :
    r.startup = .request → r.arrived = some (.stream buf) → ¬ AcceptsRequest buf →
    Handles alive r (.request blocked) (stopHere { r with arrived := none, startup := .idle })
      (r.farewell alive)
  | requestBlocked {blocked : Bool} {buf : List UInt8} :
    r.startup = .request → r.arrived = some (.stream buf) → AcceptsRequest buf → blocked → alive →
    Handles alive r (.request blocked)
      { r.enterInit with arrived := none, startup := .okReply, reading := true }
      [.request ⟨r.session, .startTcp, buf.drop 3⟩]
  | requestDead {blocked : Bool} {buf : List UInt8} :
    r.startup = .request → r.arrived = some (.stream buf) → AcceptsRequest buf → blocked →
    alive = false → Handles alive r (.request blocked) { r with arrived := none } [.crash]
  | requestDirect {blocked : Bool} {buf : List UInt8} :
    r.startup = .request → r.arrived = some (.stream buf) → AcceptsRequest buf →
    blocked = false →
    Handles alive r (.request blocked)
      { r with arrived := none, startup := .directResolve } []
  | direct {toClient : Bool} (toClient' toRemote' : Loop) :
    r.tcp.toClient ≠ .off ∨ r.tcp.toRemote ≠ .off →
    Handles alive r (.direct toClient true)
      { r with tcp.toClient := toClient', tcp.toRemote := toRemote' } []
  | directFailed {toClient : Bool} (toClient' toRemote' : Loop) :
    r.tcp.toClient ≠ .off ∨ r.tcp.toRemote ≠ .off →
    Handles alive r (.direct toClient false)
      (stopHere { r with tcp.toClient := toClient', tcp.toRemote := toRemote' }) (r.farewell alive)

/-! ## The list is complete -/

theorem caught_of_ne {alive : Bool} {r : Relay} (other : r.kind ≠ .rawTcp) :
    r.caught alive = (r.stopHere, []) := by
  unfold caught
  rw [if_neg fun both => other both.1]

theorem handles_readDone {alive : Bool} {r : Relay} {arrival : Arrival}
    (arrived : r.arrived = some arrival) (reading : r.reading) :
    Handles alive r .read (r.readDone alive arrival).1 (r.readDone alive arrival).2 := by
  cases arrival with
  | stream bytes =>
    obtain raw | ssl := ne_or_eq r.kind .ssl
    · cases alive with
      | true =>
        have read := @Handles.readRaw true r bytes arrived reading raw rfl
        simpa only [readDone, raw, ↓reduceIte, resetTimeout] using read
      | false =>
        have read := @Handles.readRawDead false r bytes arrived reading raw rfl
        simpa only [readDone, raw, ↓reduceIte, Bool.false_eq_true] using read
    · unfold readDone
      dsimp only
      rw [if_pos ssl]
      split
      · rename_i rd fed
        exact .readMore arrived reading ssl fed
      · rename_i buf fed
        cases alive with
        | true => exact .readMessage arrived reading ssl fed rfl
        | false => exact .readMessageDead arrived reading ssl fed rfl
      · rename_i fed
        rw [caught_of_ne (ssl ▸ nofun)]
        exact .readThrew arrived reading ssl fed
      · rename_i fed
        exact .readOverrun arrived reading ssl fed
  | datagram peer bytes =>
    cases alive with
    | true => exact .readDatagram arrived reading rfl
    | false => exact .readDatagramDead arrived reading rfl

theorem handles_startupDone {alive : Bool} {r r' : Relay} (done : r.startupDone = some r') :
    Handles alive r (.startup true) r' [] := by
  unfold startupDone at done
  cases startup : r.startup with
  | idle | request => simp only [startup, reduceCtorEq] at done
  | greeting =>
    simp only [startup, Option.ite_none_right_eq_some, Option.some.injEq] at done
    obtain ⟨arrived, rfl⟩ := done
    exact .greeting startup (Option.isSome_iff_ne_none.mp arrived)
  | greetingReply =>
    simp only [startup, Option.some.injEq] at done
    exact done ▸ .greetingReply startup
  | directResolve =>
    simp only [startup, Option.some.injEq] at done
    exact done ▸ .directResolve startup
  | directConnect =>
    simp only [startup, Option.some.injEq] at done
    exact done ▸ .directConnect startup
  | okReply =>
    simp only [startup, Option.some.injEq] at done
    exact done ▸ .okReply startup
  | resolve =>
    simp only [startup, Option.some.injEq] at done
    exact done ▸ .resolve startup
  | handshake =>
    simp only [startup, Option.some.injEq] at done
    exact done ▸ .handshake startup
  | connect =>
    simp only [startup, Option.ite_none_right_eq_some] at done
    obtain ⟨sock, done⟩ := done
    split at done
    · rename_i ssl
      cases done
      exact .connectSsl startup sock ssl
    · rename_i raw
      cases done
      exact .connectRaw startup sock raw

theorem handles_requestDone {alive blocked : Bool} {r : Relay} {buf : List UInt8}
    (startup : r.startup = .request) (arrived : r.arrived = some (.stream buf)) :
    Handles alive r (.request blocked) (r.requestDone alive blocked buf).1
      (r.requestDone alive blocked buf).2 := by
  unfold requestDone
  simp only
  split
  · rename_i short
    refine .requestBad startup arrived fun accepts => ?_
    rcases short with short | other
    · exact absurd accepts.1 (Nat.not_le_of_lt short)
    · exact other accepts.2.1
  · rename_i complete
    obtain ⟨long, connect⟩ := not_or.mp complete
    split
    · rename_i parsed
      refine .requestBad startup arrived fun accepts => ?_
      have isOk := accepts.2.2
      rw [parsed] at isOk
      cases isOk
    · rename_i parsed
      have accepts : AcceptsRequest buf :=
        ⟨Nat.le_of_not_lt long, not_not.mp connect, by rw [parsed]; rfl⟩
      cases blocked with
      | true =>
        cases alive with
        | true => exact .requestBlocked startup arrived accepts rfl rfl
        | false => exact .requestDead startup arrived accepts rfl rfl
      | false => exact .requestDirect startup arrived accepts rfl

theorem handles_directDone {alive toClient ok : Bool} {r r' : Relay} {outs : List RelayOut}
    (done : r.directDone alive toClient ok = some (r', outs)) :
    Handles alive r (.direct toClient ok) r' outs := by
  have next (l : Loop) : (if toClient then { r with tcp.toClient := l }
      else { r with tcp.toRemote := l }) =
      { r with
        tcp.toClient := if toClient then l else r.tcp.toClient
        tcp.toRemote := if toClient then r.tcp.toRemote else l } := by
    cases toClient <;> rfl
  have runs (on : (if toClient then r.tcp.toClient else r.tcp.toRemote) ≠ .off) :
      r.tcp.toClient ≠ .off ∨ r.tcp.toRemote ≠ .off := by
    cases toClient with
    | true => exact .inl on
    | false => exact .inr on
  unfold directDone at done
  simp only [next] at done
  split at done
  · cases done
  · rename_i loop
    obtain ⟨_, done⟩ := Option.ite_none_right_eq_some.mp done
    cases done
    exact .direct _ _ (runs (loop ▸ nofun))
  · rename_i loop
    obtain ⟨_, done⟩ := Option.ite_none_right_eq_some.mp done
    cases done
    exact .direct _ _ (runs (loop ▸ nofun))
  · rename_i off
    cases done
    exact .directFailed _ _ (runs off)

theorem handles_of_handle {alive : Bool} {r r' : Relay} {ev : RelayEvent}
    {outs : List RelayOut} (handled : r.handle alive ev = some (r', outs)) :
    Handles alive r ev r' outs := by
  cases ev with
  | task =>
    simp only [handle] at handled
    cases inbox : r.inbox with
    | nil => simp only [inbox, reduceCtorEq] at handled
    | cons task rest =>
      simp only [inbox, Option.some.injEq, Prod.mk.injEq] at handled
      obtain ⟨rfl, rfl⟩ := handled
      cases task with
      | sendData buf =>
        by_cases stopped : r.state = .stop
        · have same : { r with inbox := rest }.runTask (.sendData buf) = { r with inbox := rest } := by
            simp only [runTask, sendDataTask, stopped, ↓reduceIte]
          rw [same]
          exact .dropped inbox stopped
        · have push := @Handles.pushed alive r buf rest inbox stopped
          have same : { r with inbox := rest }.runTask (.sendData buf) =
              { r with
                inbox := rest
                bufs := r.bufs ++ [buf]
                activations :=
                  if r.state = .init ∧ r.bufs = [] then r.activations + 1 else r.activations
                log.accepted := r.log.accepted ++ [buf] } := by
            have one : (r.bufs ++ [buf]).length = 1 ↔ r.bufs = [] := by simp
            simp only [runTask, sendDataTask, stopped, ↓reduceIte, one]
            split <;> rfl
          rw [same]
          exact push
      | stopRelay => exact .stopTask inbox
      | startInit => exact .startInit inbox
      | addPeer session peer => exact .addPeer inbox
      | delPeer session => exact .delPeer inbox
  | stop =>
    simp only [handle, Option.ite_none_right_eq_some, Option.some.injEq, Prod.mk.injEq] at handled
    obtain ⟨some, rfl, rfl⟩ := handled
    exact .sslStop some
  | closed =>
    simp only [handle, Option.ite_none_right_eq_some, Option.some.injEq, Prod.mk.injEq] at handled
    obtain ⟨some, rfl, rfl⟩ := handled
    exact .closed some
  | startSend done =>
    simp only [handle, Option.ite_none_right_eq_some, Option.some.injEq, Prod.mk.injEq] at handled
    obtain ⟨some, rfl, rfl⟩ := handled
    unfold startSend
    simp only
    split
    · rename_i other
      exact .startIdle some other
    · rename_i init
      exact .startSend some (not_not.mp init) (sendLoop_spec _ done)
  | take count =>
    simp only [handle] at handled
    split at handled
    · rename_i rest sending
      simp only [Option.ite_none_right_eq_some, Option.some.injEq, Prod.mk.injEq] at handled
      obtain ⟨⟨writable, positive, within⟩, rfl, rfl⟩ := handled
      exact .take sending writable positive within
    · cases handled
  | transmit =>
    simp only [handle] at handled
    split at handled
    · rename_i dst window sending
      simp only [Option.ite_none_right_eq_some, Option.some.injEq, Prod.mk.injEq] at handled
      obtain ⟨sock, rfl, rfl⟩ := handled
      exact .transmit sending sock
    · cases handled
  | sent done =>
    simp only [handle] at handled
    split at handled
    · rename_i sending
      cases handled
      exact .sent (.inl sending) (sendLoop_spec _ done)
    · rename_i dst window sending
      cases handled
      exact .sent (.inr ⟨dst, window, sending⟩) (sendLoop_spec _ done)
    · cases handled
  | sendError =>
    simp only [handle, Option.ite_none_right_eq_some, Option.some.injEq, Prod.mk.injEq] at handled
    obtain ⟨some, rfl, rfl⟩ := handled
    exact .sendError (Option.isSome_iff_ne_none.mp some)
  | arrive arrival =>
    simp only [handle, Option.ite_none_right_eq_some, Option.some.injEq, Prod.mk.injEq] at handled
    obtain ⟨⟨awaits, sock, none, fits⟩, rfl, rfl⟩ := handled
    exact .arrive awaits sock (Option.isNone_iff_eq_none.mp none) fits
  | read =>
    simp only [handle] at handled
    split at handled
    · rename_i arrival arrived
      simp only [Option.ite_none_right_eq_some, Option.some.injEq] at handled
      obtain ⟨reading, done⟩ := handled
      have read := @handles_readDone alive r arrival arrived reading
      rw [done] at read
      exact read
    · cases handled
  | readError =>
    simp only [handle, Option.ite_none_right_eq_some, Option.some.injEq] at handled
    obtain ⟨⟨reading, none⟩, done⟩ := handled
    cases done
    exact .readError reading (Option.isNone_iff_eq_none.mp none)
  | startup ok =>
    cases ok with
    | true =>
      simp only [handle, Option.map_eq_some_iff, Prod.mk.injEq] at handled
      obtain ⟨_, done, rfl, rfl⟩ := handled
      exact handles_startupDone done
    | false =>
      simp only [handle, startupThrew, Option.ite_none_left_eq_some, not_or,
        Option.some.injEq] at handled
      obtain ⟨⟨busy, none⟩, done⟩ := handled
      cases done
      exact .startupThrew busy (by simpa using none)
  | request blocked =>
    simp only [handle] at handled
    split at handled
    · rename_i startup arrived
      simp only [Option.some.injEq] at handled
      have request := @handles_requestDone alive blocked r _ startup arrived
      rw [handled] at request
      exact request
    · cases handled
  | direct toClient ok => exact handles_directDone handled

/-! ## Calls -/

/-- The outcomes of a call from the manager's strand. -/
inductive Calls (r : Relay) : RelayCall → Relay → Prop
  | sendData {buf : Frame} :
    Calls r (.sendData buf)
      { r with
        inbox := r.inbox ++ [.sendData buf]
        log.given := r.log.given ++ [buf]
        log.late := r.log.late || r.log.stopCalled }
  | stopRaw {c : RelayCall} (timeout : Nat) :
    c = .stopRelay ∨ c = .timeoutDown → r.kind ≠ .ssl →
    Calls r c
      { r with
        timeout
        inbox := r.inbox ++ [.stopRelay]
        log.stopCalled := true }
  | stopSsl {c : RelayCall} (timeout : Nat) :
    c = .stopRelay ∨ c = .timeoutDown → r.kind = .ssl →
    Calls r c
      { r with
        timeout
        ssl.stops := r.ssl.stops + 1
        log.stopCalled := true }
  | count (timeout : Nat) : Calls r .timeoutDown { r with timeout }
  | addPeer {session : UInt32} {peer : Endpoint} :
    Calls r (.addPeer session peer) { r with inbox := r.inbox ++ [.addPeer session peer] }
  | delPeer {session : UInt32} :
    Calls r (.delPeer session) { r with inbox := r.inbox ++ [.delPeer session] }
  | begin {session : UInt32} : Calls r (.begin session) (r.begin session)
  | emit {buf : Frame} : Calls r (.emit buf) { r with log.emitted := r.log.emitted ++ [buf] }
  | startRead :
    Calls r .startRead { r with reading := true, inbox := r.inbox ++ [.startInit] }
  | startUdpRemote (bound : Option Endpoint) :
    r.type = .remoteServer →
    Calls r .startUdp
      { r with
        udp.bound := bound
        reading := true
        inbox := r.inbox ++ [.startInit] }
  | startUdpLocal :
    r.type ≠ .remoteServer →
    Calls r .startUdp { r with inbox := r.inbox ++ [.startInit] }

theorem calls_stopRelay (r : Relay) {c : RelayCall} (timeout : Nat)
    (stops : c = .stopRelay ∨ c = .timeoutDown) :
    Calls r c (stopRelay { r with timeout }) := by
  unfold stopRelay
  split
  · rename_i ssl
    exact .stopSsl timeout stops ssl
  · rename_i raw
    exact .stopRaw timeout stops raw

theorem calls_call (r : Relay) (c : RelayCall) : Calls r c (r.call c) := by
  cases c with
  | sendData buf => exact .sendData
  | stopRelay => exact calls_stopRelay r r.timeout (.inl rfl)
  | timeoutDown =>
    simp only [call, timeoutDown]
    split
    · exact .count r.timeout
    · split
      · exact calls_stopRelay r 0 (.inr rfl)
      · exact .count _
  | addPeer session peer => exact .addPeer
  | delPeer session => exact .delPeer
  | begin session => exact .begin
  | emit buf => exact .emit
  | startRead => exact .startRead
  | startUdp =>
    simp only [call, startUdp]
    split
    · rename_i remote
      exact .startUdpRemote _ remote
    · rename_i localSide
      exact .startUdpLocal localSide

end Relay

end SslSocks
