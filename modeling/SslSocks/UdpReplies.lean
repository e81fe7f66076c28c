import SslSocks.UdpRoundTrip
import SslSocks.UdpWindows

/-!
# The address a UDP reply leaves from

A LOCAL_TRANSPARENT raw_udp sends each message from the address that the message names.
`_local` says where `_sock` was last bound and saves the binding when the address is the
same; it is set before the four calls that bind, any of which may throw. `Binds` is what
holds of the two in every run, and `replies_leave_bound` what comes of it.
-/

namespace SslSocks

open Lib

namespace Relay

/-- An open socket is bound to `_local`, unless it never was; a datagram that waits to go
is that of the first message in the queue, and its socket is bound to the address in it. -/
structure Binds (r : Relay) : Prop where
  bound : r.sock = true → r.udp.localAddr.port ≠ 0 → r.udp.bound = some r.udp.localAddr
  sending : ∀ {dst window}, r.sending = some (.datagram dst window false) →
    ∃ buf rest, r.bufs = buf :: rest ∧ buf ∈ r.log.passed ∧ window = udpWindow buf ∧
      (r.sock = true → r.udp.bound = some (getDataAddr buf.payload))
  sent : ∀ {bound dst window}, (bound, dst, window) ∈ r.log.sent →
    ∃ buf ∈ r.log.passed, bound = some (getDataAddr buf.payload) ∧ udpWindow buf = some window

/-- Every message that was passed on names a port. -/
def Ported (r : Relay) : Prop := ∀ buf ∈ r.log.passed, (getDataAddr buf.payload).port ≠ 0

variable {r r' : Relay} {alive : Bool} {ev : RelayEvent} {outs : List RelayOut}

/-- The parts that `Binds` looks at. -/
theorem Binds.of_same (binds : Binds r) (sock : r'.sock = r.sock) (udp : r'.udp.bound = r.udp.bound)
    (addr : r'.udp.localAddr = r.udp.localAddr) (sending : r'.sending = r.sending)
    (bufs : r.bufs <+: r'.bufs) (passed : r'.log.passed = r.log.passed)
    (sent : r'.log.sent = r.log.sent) : Binds r' where
  bound := by
    rw [sock, udp, addr]
    exact binds.bound
  sending := by
    intro dst window waits
    rw [sending] at waits
    obtain ⟨buf, rest, queue, there, isWindow, here⟩ := binds.sending waits
    obtain ⟨later, more⟩ := bufs
    refine ⟨buf, rest ++ later, ?_, passed ▸ there, isWindow, ?_⟩
    · rw [← more, queue, List.cons_append]
    · rw [sock, udp]
      exact here
  sent := by
    intro bound dst window there
    rw [sent] at there
    rw [passed]
    exact binds.sent there

/-- A closed socket sends nothing. -/
theorem Binds.closed (binds : Binds r) (sock : r'.sock = false)
    (sending : r'.sending = r.sending ∨ r'.sending = none) (bufs : r'.bufs = r.bufs)
    (passed : r.log.passed <+: r'.log.passed) (sent : r'.log.sent = r.log.sent) : Binds r' where
  bound := by
    intro open'
    rw [sock] at open'
    cases open'
  sending := by
    intro dst window waits
    rcases sending with still | none
    · rw [still] at waits
      obtain ⟨buf, rest, queue, there, isWindow, _⟩ := binds.sending waits
      refine ⟨buf, rest, bufs.trans queue, passed.subset there, isWindow, ?_⟩
      rw [sock]
      exact nofun
    · rw [none] at waits
      cases waits
  sent := by
    intro bound dst window there
    rw [sent] at there
    obtain ⟨buf, member, here⟩ := binds.sent there
    exact ⟨buf, passed.subset member, here⟩

/-- `stop_relay` closes the socket of a raw_udp. -/
theorem stopHere_udp (udp : r.kind = .rawUdp) :
    r.stopHere = { r with state := .stop, sock := false, udp.bound := none } := by
  unfold Relay.stopHere Relay.stopTask
  simp only [udp]

/-- `get_send_data_addr` leaves the socket bound to the address in the message, or takes
it as it is for the address of `_local`, or throws. -/
theorem getSendDataAddr_transparent (transparent : r.type = .localTransparent) (buf : Frame)
    (done : Nat) :
    (∃ udp sock dst, r.getSendDataAddr buf done = .ok ({ r with udp, sock }, dst) ∧
      udp.localAddr = getDataAddr buf.payload ∧
      (udp.bound = some (getDataAddr buf.payload) ∨
        r.udp.localAddr = getDataAddr buf.payload ∧ udp.bound = r.udp.bound ∧ sock = r.sock)) ∨
    ∃ udp sock, r.getSendDataAddr buf done = .error { r with udp, sock } := by
  unfold getSendDataAddr
  split
  · rename_i remote
    exact absurd (transparent.symm.trans remote) (by decide)
  · simp only
    by_cases same : r.udp.localAddr = getDataAddr buf.payload
    · -- the socket is taken as it is
      have still : ¬ r.udp.localAddr ≠ getDataAddr buf.payload := not_not.mpr same
      refine .inl ?_
      rw [if_neg still, if_neg fun moved => still moved.1]
      cases r.udp.peers.lookup buf.session with
      | some peer => exact ⟨r.udp, r.sock, peer, rfl, same, .inr ⟨same, rfl, rfl⟩⟩
      | none => exact ⟨_, r.sock, default, rfl, same, .inr ⟨same, rfl, rfl⟩⟩
    · rw [if_pos same]
      cases all : rebinds (getDataAddr buf.payload) done with
      | false =>
        obtain ⟨udp, sock, rebound, _⟩ := rebind_eq
          { r with udp.localAddr := getDataAddr buf.payload } (getDataAddr buf.payload) done
        rw [if_pos ⟨same, rfl⟩, rebound]
        exact .inr ⟨udp, sock, rfl⟩
      | true =>
        rw [if_neg fun both => Bool.noConfusion both.2]
        simp only [rebind_of_rebinds all]
        refine .inl ?_
        cases r.udp.peers.lookup buf.session with
        | some peer => exact ⟨_, true, peer, rfl, rfl, .inl rfl⟩
        | none => exact ⟨_, true, default, rfl, rfl, .inl rfl⟩
  · rename_i socks
    exact absurd (transparent.symm.trans socks) (by decide)

/-- What `internal_send_data` of such a raw_udp comes to. -/
theorem internalSendData_transparent (udp : r.kind = .rawUdp)
    (transparent : r.type = .localTransparent) (buf : Frame) (done : Nat) :
    (∃ impl sock dst, r.internalSendData buf done =
        .ok { r with udp := impl, sock, sending := some (.datagram dst (udpWindow buf) false) } ∧
      impl.localAddr = getDataAddr buf.payload ∧
      (impl.bound = some (getDataAddr buf.payload) ∨
        r.udp.localAddr = getDataAddr buf.payload ∧ impl.bound = r.udp.bound ∧ sock = r.sock)) ∨
    ∃ impl sock, r.internalSendData buf done = .error { r with udp := impl, sock } := by
  unfold internalSendData
  split
  · rename_i tcp
    exact absurd (udp.symm.trans tcp) nofun
  · rename_i ssl
    exact absurd (udp.symm.trans ssl) nofun
  · rcases getSendDataAddr_transparent transparent buf done with
      ⟨impl, sock, dst, found, here⟩ | ⟨impl, sock, threw⟩
    · rw [found]
      exact .inl ⟨impl, sock, dst, rfl, here⟩
    · rw [threw]
      exact .inr ⟨impl, sock, rfl⟩

/-- The loop of `start_send` keeps the binding right. -/
theorem binds_sendLoop (binds : Binds r) (udp : r.kind = .rawUdp)
    (transparent : r.type = .localTransparent) (done : Nat)
    (ported : Ported (r.sendLoop done)) : Binds (r.sendLoop done) := by
  unfold sendLoop at ported ⊢
  split at ported
  · rename_i queue
    exact binds.of_same rfl rfl rfl rfl (List.prefix_refl _) rfl rfl
  · rename_i buf rest queue
    by_cases stopped : r.state = .stop
    · rw [if_pos stopped]
      exact binds
    · rw [if_neg stopped] at ported ⊢
      generalize nextIs : { r.resetTimeout with log.passed := r.log.passed ++ [buf] } = next
        at ported ⊢
      have same : next.kind = r.kind ∧ next.type = r.type ∧ next.sock = r.sock ∧
          next.udp = r.udp ∧ next.bufs = r.bufs ∧ next.log.passed = r.log.passed ++ [buf] ∧
          next.log.sent = r.log.sent := by
        subst nextIs
        exact ⟨rfl, rfl, rfl, rfl, rfl, rfl, rfl⟩
      obtain ⟨kind, type, sock, impl, bufs, passed, sent⟩ := same
      have here : buf ∈ next.log.passed := by
        rw [passed]
        exact List.mem_append_right _ List.mem_cons_self
      have grows : r.log.passed <+: next.log.passed := passed ▸ List.prefix_append _ _
      rcases internalSendData_transparent (kind.trans udp) (type.trans transparent) buf done with
        ⟨impl', sock', dst, found, addr, leaves⟩ | ⟨impl', sock', threw⟩
      · rw [found] at ported ⊢
        have port := ported buf here
        have bound : sock' = true → impl'.bound = some (getDataAddr buf.payload) := by
          intro open'
          rcases leaves with rebound | ⟨same, still, isSock⟩
          · exact rebound
          · -- `_local` names a port, so it is where the socket is bound
            rw [impl] at same still
            rw [isSock, sock] at open'
            rw [still, ← same]
            exact binds.bound open' (same ▸ port)
        refine ⟨fun open' _ => ?_, ?_, ?_⟩
        · show impl'.bound = some impl'.localAddr
          rw [addr]
          exact bound open'
        · intro dst' window waits
          cases waits
          exact ⟨buf, rest, bufs.trans queue, here, rfl, bound⟩
        · intro at' dst' window there
          rw [sent] at there
          obtain ⟨old, member, is⟩ := binds.sent there
          exact ⟨old, grows.subset member, is⟩
      · rw [threw]
        have stopped : ({ next with udp := impl', sock := sock' } : Relay).stopHere = _ :=
          stopHere_udp (kind.trans udp)
        simp only [stopped]
        refine binds.closed rfl (.inl ?_) bufs grows sent
        subst nextIs
        rfl

theorem Binds.note (binds : Binds r) (outs : List RelayOut) : Binds (r.note outs) :=
  binds.of_same rfl rfl rfl rfl (List.prefix_refl _) rfl rfl

theorem binds_call (binds : Binds r) (transparent : r.type = .localTransparent) (c : RelayCall) :
    Binds (r.call c) := by
  have called := calls_call r c
  generalize r.call c = r' at called
  cases called with
  | startUdpRemote _ remote => exact absurd (transparent.symm.trans remote) nofun
  | _ => exact binds.of_same rfl rfl rfl rfl (List.prefix_refl _) rfl rfl

/-- A handler other than those of the queue. -/
theorem binds_handles (binds : Binds r) (lives : r.Lives) (udp : r.kind = .rawUdp)
    (handled : Handles alive r ev r' outs) (noStart : ∀ done, ev ≠ .startSend done)
    (noSent : ∀ done, ev ≠ .sent done) : Binds r' := by
  have idle : r.startup = .idle := by
    have startup := lives.kindOk.startup
    rw [udp] at startup
    simpa [startups] using startup
  have other {s : Startup} (here : r.startup = s) (ne : s ≠ .idle) : False :=
    ne (here.symm.trans idle)
  have noDirect (on : r.tcp.toClient ≠ .off ∨ r.tcp.toRemote ≠ .off) : False :=
    absurd ((lives.kindOk.direct on).1.symm.trans udp) (by decide)
  have stopped {h : Relay} (kind : h.kind = r.kind)
      (sending : h.sending = r.sending ∨ h.sending = none) (bufs : h.bufs = r.bufs)
      (passed : h.log.passed = r.log.passed) (sent : h.log.sent = r.log.sent) :
      Binds h.stopHere := by
    rw [stopHere_udp (kind.trans udp)]
    exact binds.closed rfl sending bufs (passed ▸ List.prefix_refl _) sent
  cases handled with
  | pushed _ _ => exact binds.of_same rfl rfl rfl rfl (List.prefix_append _ _) rfl rfl
  | @stopTask inbox queue =>
    have here : Relay.stopTask { r with inbox } = Relay.stopHere { r with inbox } := by
      unfold Relay.stopHere
      simp only [udp]
    rw [here]
    exact stopped rfl (.inl rfl) rfl rfl rfl
  | closed _ => exact binds.closed rfl (.inl rfl) rfl (List.prefix_refl _) rfl
  | startIdle _ _ => exact absurd rfl (noStart _)
  | startSend _ _ _ => exact absurd rfl (noStart _)
  | sent _ _ => exact absurd rfl (noSent _)
  | take waits _ _ _ =>
    refine ⟨binds.bound, ?_, binds.sent⟩
    intro dst window there
    cases there
  | @transmit dst window waits sock =>
    obtain ⟨buf, rest, queue, passed, isWindow, bound⟩ := binds.sending waits
    refine ⟨binds.bound, ?_, ?_⟩
    · intro dst' window' there
      cases there
    · intro at' dst' window' there
      rcases List.mem_append.mp there with old | new
      · exact binds.sent old
      · cases List.mem_singleton.mp new
        exact ⟨buf, passed, bound sock, isWindow.symm⟩
  | sendError _ => exact stopped rfl (.inr rfl) rfl rfl rfl
  | readThrew _ _ ssl _ => exact absurd (udp.symm.trans ssl) (by decide)
  | readError _ _ => exact stopped rfl (.inl rfl) rfl rfl rfl
  | greeting here _ => exact (other here (by decide)).elim
  | greetingReply here => exact (other here (by decide)).elim
  | directResolve here => exact (other here (by decide)).elim
  | directConnect here => exact (other here (by decide)).elim
  | okReply here => exact (other here (by decide)).elim
  | resolve here => exact (other here (by decide)).elim
  | connectSsl here _ _ => exact (other here (by decide)).elim
  | connectRaw here _ _ => exact (other here (by decide)).elim
  | handshake here => exact (other here (by decide)).elim
  | startupThrew here _ => exact absurd idle here
  | requestBad here _ _ => exact (other here (by decide)).elim
  | requestBlocked here _ _ _ _ => exact (other here (by decide)).elim
  | requestDead here _ _ _ _ => exact (other here (by decide)).elim
  | requestDirect here _ _ _ => exact (other here (by decide)).elim
  | direct _ _ on => exact (noDirect on).elim
  | directFailed _ _ on => exact (noDirect on).elim
  | _ => exact binds.of_same rfl rfl rfl rfl (List.prefix_refl _) rfl rfl

theorem binds_event {h : Relay} (binds : Binds r) (lives : r.Lives) (udp : r.kind = .rawUdp)
    (transparent : r.type = .localTransparent) (handled : r.handle alive ev = some (h, outs))
    (ported : Ported h) : Binds h := by
  by_cases start : ∃ done, ev = .startSend done
  · obtain ⟨done, rfl⟩ := start
    simp only [handle] at handled
    split at handled
    · cases handled
      unfold startSend at ported ⊢
      simp only at ported ⊢
      split at ported
      · rename_i waits
        rw [if_pos waits]
        exact binds.of_same rfl rfl rfl rfl (List.prefix_refl _) rfl rfl
      · rename_i starts
        rw [if_neg starts]
        have begun : Binds { r with activations := r.activations - 1, state := .start } :=
          binds.of_same rfl rfl rfl rfl (List.prefix_refl _) rfl rfl
        exact binds_sendLoop begun udp transparent done ported
    · cases handled
  · by_cases sent : ∃ done, ev = .sent done
    · obtain ⟨done, rfl⟩ := sent
      have base : Binds { r with sending := none, bufs := r.bufs.tail } := by
        refine ⟨binds.bound, ?_, binds.sent⟩
        intro dst window there
        cases there
      simp only [handle] at handled
      split at handled
      · cases handled
        exact binds_sendLoop base udp transparent done ported
      · cases handled
        exact binds_sendLoop base udp transparent done ported
      · cases handled
    · exact binds_handles binds lives udp (handles_of_handle handled)
        (fun done same => start ⟨done, same⟩) fun done same => sent ⟨done, same⟩

/-! ## Runs -/

/-- `_udp_send` of a transparent proxy, as it is constructed. -/
def udpSend : Relay := (Node.initLocal .localTransparent).newRawUdp 0

theorem born_udpSend : udpSend.Born :=
  ⟨⟨rfl, rfl, rfl, rfl, rfl, rfl, rfl, rfl, rfl, rfl, rfl⟩, rfl⟩

theorem binds_udpSend : Binds udpSend where
  bound := fun _ port => absurd rfl port
  sending := nofun
  sent := nofun

/-- What was passed on stays passed on. -/
theorem ported_of_act {a : RelayAction} (lives : r.Lives) (stepped : r.act a = some r')
    (ported : Ported r') : Ported r := by
  have grows : r.log.passed <+: r'.log.passed := by
    cases a with
    | call c =>
      cases stepped
      have called := calls_call r c
      generalize r.call c = r' at called
      cases called <;> exact List.prefix_refl _
    | event alive ev =>
      obtain ⟨h, outs, handled, rfl⟩ := act_event.mp stepped
      rcases (handles_of_handle handled).passesOne lives.startsOnce with same | ⟨buf, one, _⟩
      · exact ⟨[], (List.append_nil _).trans same.symm⟩
      · exact ⟨[buf], one.symm⟩
  intro buf there
  exact ported buf (grows.subset there)

theorem binds_reach (run : Reach act Proper udpSend r) (ported : Ported r) :
    r.kind = .rawUdp ∧ r.type = .localTransparent ∧ Binds r := by
  revert ported
  refine run.invariant (P := fun r => Ported r → r.kind = .rawUdp ∧ r.type = .localTransparent ∧
    Binds r) (fun _ => ⟨rfl, rfl, binds_udpSend⟩) ?_
  intro t a t' before ih proper stepped ported
  have lives : t.Lives := ⟨udpSend, born_udpSend, before⟩
  obtain ⟨udp, transparent, binds⟩ := ih (ported_of_act lives stepped ported)
  cases a with
  | call c =>
    cases stepped
    exact ⟨(call_kind t c).trans udp, (call_type t c).trans transparent,
      binds_call binds transparent c⟩
  | event alive ev =>
    obtain ⟨h, outs, handled, rfl⟩ := act_event.mp stepped
    have same := (handles_of_handle handled).sameCalls
    exact ⟨same.kind.trans udp, same.type.trans transparent,
      (binds_event binds lives udp transparent handled ported).note outs⟩

/-- A message with the address record of a socket address in front, and a port in it. -/
def RepliesFrom (buf : Frame) (e : Endpoint) : Prop := e.port ≠ 0 ∧ parseAddr e <+: buf.payload

theorem RepliesFrom.addr {buf : Frame} {e : Endpoint} (replies : RepliesFrom buf e) :
    getDataAddr buf.payload = e := by
  obtain ⟨_, rest, same⟩ := replies
  rw [← same]
  exact getDataAddr_parseAddr e rest

/-- **UDP replies leave from the address they came from.** In every run of a transparent
raw_udp that is given messages with an address and a port, every datagram sent left a socket
bound to the address in its message; the datagram that goes next is that of the first
message in the queue, on an open socket bound to its address; and an open socket for which
`_local` is the address of a message is bound to it. -/
theorem replies_leave_bound (run : Reach act Proper udpSend r)
    (replies : ∀ buf ∈ r.log.given, ∃ e, RepliesFrom buf e) :
    (∀ bound dst window, (bound, dst, window) ∈ r.log.sent →
      ∃ buf ∈ r.log.passed, udpWindow buf = some window ∧
        ∀ e, RepliesFrom buf e → bound = some e) ∧
    (∀ alive r' outs, r.step alive .transmit = some (r', outs) →
      ∃ buf rest dst window, r.bufs = buf :: rest ∧ udpWindow buf = some window ∧
        r'.log.sent = r.log.sent ++ [(r.udp.bound, dst, window)] ∧ r.sock = true ∧
        ∀ e, RepliesFrom buf e → r.udp.bound = some e) ∧
    ∀ buf e, RepliesFrom buf e → r.udp.localAddr = e → r.sock = true → r.udp.bound = some e := by
  have lives : r.Lives := ⟨udpSend, born_udpSend, run⟩
  have ported : Ported r := by
    intro buf passed
    obtain ⟨e, from'⟩ := replies buf (lives.passed_given passed)
    rw [from'.addr]
    exact from'.1
  obtain ⟨_, _, binds⟩ := binds_reach run ported
  refine ⟨?_, ?_, ?_⟩
  · intro bound dst window there
    obtain ⟨buf, passed, same, isWindow⟩ := binds.sent there
    refine ⟨buf, passed, isWindow, ?_⟩
    intro e from'
    rw [same, from'.addr]
  · intro alive r' outs stepped
    obtain ⟨h, handled, rfl⟩ := step_eq_some.mp stepped
    cases handles_of_handle handled with
    | @transmit dst window waits sock =>
      obtain ⟨buf, rest, queue, _, isWindow, bound⟩ := binds.sending waits
      refine ⟨buf, rest, dst, window, queue, isWindow.symm, rfl, sock, ?_⟩
      intro e from'
      rw [bound sock, from'.addr]
  · intro buf e from' same sock
    have port : r.udp.localAddr.port ≠ 0 := by
      rw [same]
      exact from'.1
    rw [binds.bound sock port, same]

/-- An answer of a name server. -/
def answer (e : Endpoint) : Frame := ⟨2, .dataUdp, udpHead (some e) ++ [7]⟩

/-- Two name servers. -/
def nameServers : Endpoint × Endpoint := (⟨.v6 (Vector.replicate 16 1), 53⟩, .mapped 8 8 8 8 53)

/-- The raw_udp starts and sends an answer of each name server; for the next of the first one
the socket is opened again, and bind throws. -/
def sendAnswers : List RelayAction :=
  [.event true .task, .call (.addPeer 2 (.mapped 127 0 0 1 9)),
    .call (.sendData (answer nameServers.1)), .call (.sendData (answer nameServers.2)),
    .call (.sendData (answer nameServers.1)),
    .event true .task, .event true .task, .event true .task, .event true .task,
    .event true (.startSend 5), .event true .transmit, .event true (.sent 5),
    .event true .transmit, .event true (.sent 4)]

/-- Both answers left from the address of their name server, and the raw_udp has stopped. -/
theorem replies_leave_bound_answers : ∃ r, Reach act Proper udpSend r ∧ r.state = .stop ∧
    r.log.sent = [(some nameServers.1, .mapped 127 0 0 1 9, [7]),
      (some nameServers.2, .mapped 127 0 0 1 9, [7])] ∧
    ∀ bound dst window, (bound, dst, window) ∈ r.log.sent →
      ∃ buf ∈ r.log.passed, udpWindow buf = some window ∧ ∀ e, RepliesFrom buf e → bound = some e := by
  have started : Reach act Proper udpSend udpSend.startUdp :=
    Reach.refl.tail (a := .call .startUdp) ⟨rfl, born_udpSend⟩ rfl
  have rest := @Reach.of_isSome _ _ act (fun _ a => a ∈ sendAnswers) udpSend.startUdp _ sendAnswers
    (by decide +kernel)
  have proper {r : Relay} {a : RelayAction} (there : a ∈ sendAnswers) : r.Proper a := by
    simp only [sendAnswers, List.mem_cons, List.not_mem_nil, or_false] at there
    rcases there with rfl | rfl | rfl | rfl | rfl | rfl | rfl | rfl | rfl | rfl | rfl | rfl | rfl |
      rfl <;> exact trivial
  have run := started.trans (rest.mono proper)
  generalize endIs : Option.get _ _ = r at run
  have facts : r.state = .stop ∧ r.log.sent = [(some nameServers.1, .mapped 127 0 0 1 9, [7]),
      (some nameServers.2, .mapped 127 0 0 1 9, [7])] ∧
      r.log.given = [answer nameServers.1, answer nameServers.2, answer nameServers.1] := by
    rw [← endIs]
    decide +kernel
  obtain ⟨stopped, sent, given⟩ := facts
  refine ⟨r, run, stopped, sent, (replies_leave_bound run ?_).1⟩
  have names {e : Endpoint} (port : e.port ≠ 0) : ∃ e', RepliesFrom (answer e) e' :=
    ⟨e, port, (List.prefix_append _ _).trans (List.prefix_append _ _)⟩
  intro buf there
  rw [given] at there
  simp only [List.mem_cons, List.not_mem_nil, or_false] at there
  rcases there with rfl | rfl | rfl
  · exact names (by decide)
  · exact names (by decide)
  · exact names (by decide)

end Relay

end SslSocks
