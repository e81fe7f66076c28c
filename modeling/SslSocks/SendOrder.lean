import SslSocks.RelayStop
import SslSocks.SendQueue

/-!
# From `send_data` to the stream

The messages given to `send_data` are pushed in the order of the strand, and one
whose handler finds `RELAY_STOP` is dropped. A raw_tcp that has dropped one writes
nothing more, unless the manager stopped it while it resolved its name and went on
giving it messages: so what its socket took is a prefix of what it was given
(`Lives.written_given`). An `ssl_relay` goes on after a drop only if it leaves
`RELAY_STOP` (`Handles.inOrder`).
-/

namespace SslSocks

open Lib

/-- The message of a posted `send_data`. -/
def RelayTask.message : RelayTask → Option Frame
  | .sendData buf => some buf
  | _ => none

namespace Relay

/-- The messages given to `send_data` whose handlers have not run. -/
def posted (r : Relay) : List Frame := r.inbox.filterMap RelayTask.message

/-- No message was dropped. -/
def InOrder (r : Relay) : Prop := r.log.accepted ++ r.posted = r.log.given

/-- The socket is closed for good. -/
structure Shut (r : Relay) : Prop where
  sock : r.sock = false
  startup : r.startup ≠ .resolve

/-- The manager stopped the relay, and gave it no message after that which is still
to be handled. -/
structure Halted (r : Relay) : Prop where
  remote : r.type = .remoteServer
  stopCalled : r.log.stopCalled
  posted : r.log.late = false → r.posted = []

/-- A raw_tcp and the messages given to it. -/
structure KeepsOrder (r : Relay) : Prop where
  noSsl : r.ssl.stops = 0
  before : r.log.stopCalled = false → .stopRelay ∉ r.inbox
  order : r.log.late = false →
    r.inbox.Pairwise fun first next => first = .stopRelay → next.message = none
  resolves : r.startup = .resolve → r.type = .remoteServer
  stopped : r.state = .stop → r.Shut ∨ r.Halted
  given : r.log.late = false ∨ r.type ≠ .remoteServer →
    r.InOrder ∨ r.Shut ∧ r.log.written <+: r.log.given.flatMap r.text

variable {r r' : Relay} {alive : Bool} {ev : RelayEvent} {outs : List RelayOut}

theorem posted_cons {task : RelayTask} {inbox : List RelayTask} (queue : r.inbox = task :: inbox) :
    r.posted = task.message.toList ++ inbox.filterMap RelayTask.message := by
  unfold posted
  rw [queue, List.filterMap_cons]
  cases task.message <;> rfl

theorem posted_append (tasks : List RelayTask) :
    posted { r with inbox := r.inbox ++ tasks } = r.posted ++ tasks.filterMap RelayTask.message :=
  List.filterMap_append

/-! ## A handler and the order -/

/-- The parts that `KeepsOrder` speaks of. -/
structure SameOrder (r r' : Relay) : Prop where
  kind : r'.kind = r.kind
  type : r'.type = r.type
  inbox : r'.inbox = r.inbox
  stops : r'.ssl.stops = r.ssl.stops
  stopCalled : r'.log.stopCalled = r.log.stopCalled
  late : r'.log.late = r.log.late
  given : r'.log.given = r.log.given
  accepted : r'.log.accepted = r.log.accepted
  written : r'.log.written = r.log.written

theorem SameOrder.posted (same : SameOrder r r') : r'.posted = r.posted := by
  unfold Relay.posted
  rw [same.inbox]

theorem SameOrder.inOrder (same : SameOrder r r') (inOrder : r.InOrder) : r'.InOrder := by
  unfold InOrder at inOrder ⊢
  rw [same.accepted, same.given, same.posted]
  exact inOrder

theorem SameOrder.halted (same : SameOrder r r') (halted : r.Halted) : r'.Halted := by
  refine ⟨same.type.trans halted.remote, same.stopCalled.trans halted.stopCalled, fun late => ?_⟩
  rw [same.posted]
  exact halted.posted (same.late.symm.trans late)

/-- A handler that leaves the messages alone: what it does to the state, the socket and
the start-up. -/
theorem KeepsOrder.of_same (keeps : KeepsOrder r) (same : SameOrder r r')
    (resolves : r'.startup = .resolve → r.startup = .resolve) (shut : r.Shut → r'.Shut)
    (stopped : r'.state = .stop → r.state = .stop ∨ r'.Shut) : KeepsOrder r' where
  noSsl := same.stops.trans keeps.noSsl
  before never := same.inbox ▸ keeps.before (same.stopCalled.symm.trans never)
  order late := same.inbox ▸ keeps.order (same.late.symm.trans late)
  resolves startup := same.type.trans (keeps.resolves (resolves startup))
  stopped isStopped := by
    rcases stopped isStopped with before | isShut
    · exact (keeps.stopped before).imp shut same.halted
    · exact .inl isShut
  given timely := by
    rw [same.late, same.type] at timely
    refine (keeps.given timely).imp same.inOrder fun closed => ⟨shut closed.1, ?_⟩
    rw [same.written, same.given, text_eq same.kind]
    exact closed.2

/-- `stop_relay` in the strand, once the start-up does not resolve. -/
theorem KeepsOrder.stopHere (keeps : KeepsOrder r) (raw : r.kind = .rawTcp)
    (startup : r.startup ≠ .resolve) : KeepsOrder r.stopHere := by
  rcases stopHere_cases r with ⟨ssl, _⟩ | ⟨_, ⟨_, same⟩ | ⟨bound, same⟩⟩
  · exact absurd (raw.symm.trans ssl) nofun
  · rw [same]
    exact keeps
  · rw [same]
    exact keeps.of_same ⟨rfl, rfl, rfl, rfl, rfl, rfl, rfl, rfl, rfl⟩ id
      (fun _ => ⟨rfl, startup⟩) fun _ => .inr ⟨rfl, startup⟩

/-- A posted handler that is no message leaves the inbox. -/
theorem KeepsOrder.pop (keeps : KeepsOrder r) {task : RelayTask} {inbox : List RelayTask}
    (queue : r.inbox = task :: inbox) (other : task.message = none) :
    KeepsOrder { r with inbox } := by
  have posted : r.posted = Relay.posted { r with inbox } := by
    rw [posted_cons queue, other]
    rfl
  refine ⟨keeps.noSsl, fun never => ?_, fun late => ?_, keeps.resolves, fun isStopped => ?_,
    fun timely => ?_⟩
  · exact fun there => keeps.before never (queue ▸ List.mem_cons_of_mem _ there)
  · have order := keeps.order late
    rw [queue] at order
    exact order.of_cons
  · refine (keeps.stopped isStopped).imp (fun shut => ⟨shut.sock, shut.startup⟩) fun halted => ?_
    exact ⟨halted.remote, halted.stopCalled, fun late => posted ▸ halted.posted late⟩
  · refine (keeps.given timely).imp (fun inOrder => ?_) fun closed => ?_
    · unfold InOrder at inOrder ⊢
      rw [posted] at inOrder
      exact inOrder
    · exact ⟨⟨closed.1.sock, closed.1.startup⟩, closed.2⟩

/-- The handler of a message finds `RELAY_STOP`. -/
theorem KeepsOrder.drop (keeps : KeepsOrder r) {buf : Frame} {inbox : List RelayTask}
    (queue : r.inbox = .sendData buf :: inbox) (isStopped : r.state = .stop)
    (written : r.log.written <+: r.log.accepted.flatMap r.text) :
    KeepsOrder { r with inbox } := by
  have posted := posted_cons queue
  -- a relay that was halted in time has no message to come
  have late_of (halted : r.Halted) : r.log.late ≠ false := by
    intro late
    have none := halted.posted late
    rw [posted] at none
    cases none
  refine ⟨keeps.noSsl, fun never => ?_, fun late => ?_, keeps.resolves, fun _ => ?_,
    fun timely => .inr ?_⟩
  · exact fun there => keeps.before never (queue ▸ List.mem_cons_of_mem _ there)
  · have order := keeps.order late
    rw [queue] at order
    exact order.of_cons
  · rcases keeps.stopped isStopped with shut | halted
    · exact .inl ⟨shut.sock, shut.startup⟩
    · exact .inr ⟨halted.remote, halted.stopCalled, fun late => absurd late (late_of halted)⟩
  · have shut : r.Shut := by
      rcases keeps.stopped isStopped with shut | halted
      · exact shut
      · rcases timely with late | localSide
        · exact absurd late (late_of halted)
        · exact absurd halted.remote localSide
    refine ⟨⟨shut.sock, shut.startup⟩, ?_⟩
    rcases keeps.given timely with inOrder | closed
    · show r.log.written <+: r.log.given.flatMap r.text
      rw [← (show r.log.accepted ++ r.posted = r.log.given from inOrder), List.flatMap_append]
      exact written.trans (List.prefix_append _ _)
    · exact closed.2

/-- The handler of a message pushes it. -/
theorem KeepsOrder.push (keeps : KeepsOrder r) {buf : Frame} {inbox : List RelayTask}
    {activations : Nat} (queue : r.inbox = .sendData buf :: inbox) (going : r.state ≠ .stop) :
    KeepsOrder { r with
      inbox
      bufs := r.bufs ++ [buf]
      activations
      log.accepted := r.log.accepted ++ [buf] } := by
  refine ⟨keeps.noSsl, fun never => ?_, fun late => ?_, keeps.resolves,
    fun isStopped => absurd isStopped going, fun timely => ?_⟩
  · exact fun there => keeps.before never (queue ▸ List.mem_cons_of_mem _ there)
  · have order := keeps.order late
    rw [queue] at order
    exact order.of_cons
  · refine (keeps.given timely).imp (fun inOrder => ?_) fun closed => ?_
    · unfold InOrder at inOrder ⊢
      rw [posted_cons queue] at inOrder
      show (r.log.accepted ++ [buf]) ++ inbox.filterMap RelayTask.message = r.log.given
      rw [List.append_assoc]
      exact inOrder
    · exact ⟨⟨closed.1.sock, closed.1.startup⟩, closed.2⟩

/-- The handler of the manager's `stop_relay`. -/
theorem KeepsOrder.stopTask (keeps : KeepsOrder r) {inbox : List RelayTask}
    (queue : r.inbox = .stopRelay :: inbox) : KeepsOrder (Relay.stopTask { r with inbox }) := by
  have popped := keeps.pop queue rfl
  have stopCalled : r.log.stopCalled := by
    refine Bool.of_not_eq_false fun never => keeps.before never ?_
    rw [queue]
    exact List.mem_cons_self
  have posted (late : r.log.late = false) : Relay.posted { r with inbox } = [] := by
    have order := keeps.order late
    rw [queue, List.pairwise_cons] at order
    exact List.filterMap_eq_nil_iff.mpr fun task there => order.1 task there rfl
  rcases stopTask_cases { r with inbox } with ⟨_, same⟩ | ⟨bound, same⟩
  · rw [same]
    exact popped
  · rw [same]
    refine ⟨popped.noSsl, popped.before, popped.order, popped.resolves, fun _ => ?_, fun timely => ?_⟩
    · by_cases remote : r.type = .remoteServer
      · exact .inr ⟨remote, stopCalled, posted⟩
      · exact .inl ⟨rfl, fun startup => remote (keeps.resolves startup)⟩
    · refine (popped.given timely).imp id fun closed => ?_
      exact ⟨⟨rfl, closed.1.startup⟩, closed.2⟩

theorem SendLoop.keepsOrder (loop : SendLoop r r') (raw : r.kind = .rawTcp)
    (keeps : KeepsOrder r) : KeepsOrder r' := by
  cases loop with
  | empty =>
    exact keeps.of_same ⟨rfl, rfl, rfl, rfl, rfl, rfl, rfl, rfl, rfl⟩ id
      (fun shut => ⟨shut.sock, shut.startup⟩) nofun
  | stopped | stream =>
    exact keeps.of_same ⟨rfl, rfl, rfl, rfl, rfl, rfl, rfl, rfl, rfl⟩ id
      (fun shut => ⟨shut.sock, shut.startup⟩) .inl
  | datagram _ _ _ _ _ udp | threw _ _ _ _ udp => exact absurd (raw.symm.trans udp) nofun

/-- **One handler** of a raw_tcp keeps the order of its messages. -/
theorem Handles.keepsOrder (handled : Handles alive r ev r' outs) (raw : r.kind = .rawTcp)
    (starts : StartsOnce r) (written : r.log.written <+: r.log.accepted.flatMap r.text)
    (keeps : KeepsOrder r) : KeepsOrder r' := by
  have same {a : Relay} (order : SameOrder r a) (sock : a.sock = r.sock) (startup : a.startup = r.startup)
      (state : a.state = r.state) : KeepsOrder a :=
    keeps.of_same order (fun is => startup.symm.trans is)
      (fun shut => ⟨sock.trans shut.sock, startup ▸ shut.startup⟩) fun is => .inl (state.symm.trans is)
  have settled (begun : r.startup = .idle ∨ r.startup = .okReply) : r.startup ≠ .resolve := by
    rcases begun with idle | reply
    · exact idle ▸ nofun
    · exact reply ▸ nofun
  -- the start-up goes on, but not to a resolve
  have goes {a : Relay} (order : SameOrder r a) (sock : a.sock = r.sock) (startup : a.startup ≠ .resolve)
      (state : a.state = .stop → r.state = .stop) : KeepsOrder a :=
    keeps.of_same order (fun is => absurd is startup)
      (fun shut => ⟨sock.trans shut.sock, startup⟩) fun is => .inl (state is)
  cases handled with
  | dropped queue stopped => exact keeps.drop queue stopped written
  | pushed queue going => exact keeps.push queue going
  | stopTask queue => exact keeps.stopTask queue
  | startInit queue =>
    have popped := keeps.pop queue rfl
    exact popped.of_same ⟨rfl, rfl, rfl, rfl, rfl, rfl, rfl, rfl, rfl⟩ id
      (fun shut => ⟨shut.sock, shut.startup⟩) nofun
  | addPeer queue | delPeer queue =>
    have popped := keeps.pop queue rfl
    exact popped.of_same ⟨rfl, rfl, rfl, rfl, rfl, rfl, rfl, rfl, rfl⟩ id
      (fun shut => ⟨shut.sock, shut.startup⟩) .inl
  | sslStop some => exact absurd some (keeps.noSsl ▸ Nat.lt_irrefl 0)
  | closed =>
    exact keeps.of_same ⟨rfl, rfl, rfl, rfl, rfl, rfl, rfl, rfl, rfl⟩ id
      (fun shut => ⟨rfl, shut.startup⟩) .inl
  | startSend _ init loop =>
    refine loop.keepsOrder raw (keeps.of_same ⟨rfl, rfl, rfl, rfl, rfl, rfl, rfl, rfl, rfl⟩ id ?_ nofun)
    exact fun shut => ⟨shut.sock, shut.startup⟩
  | sent _ loop =>
    refine loop.keepsOrder raw (keeps.of_same ⟨rfl, rfl, rfl, rfl, rfl, rfl, rfl, rfl, rfl⟩ id ?_ .inl)
    exact fun shut => ⟨shut.sock, shut.startup⟩
  | take _ writable =>
    obtain ⟨noSsl, before, order, resolves, stopped, given⟩ := keeps
    refine ⟨noSsl, before, order, resolves, fun is => ?_, fun timely => ?_⟩
    · refine (stopped is).imp (fun shut => ⟨shut.sock, shut.startup⟩) fun halted => ?_
      exact ⟨halted.remote, halted.stopCalled, halted.posted⟩
    · refine (given timely).imp id fun closed => ?_
      -- a closed socket takes nothing
      unfold Relay.writable at writable
      rw [raw] at writable
      exact absurd (closed.1.sock.symm.trans writable) nofun
  | sendError sends =>
    have begun : r.startup ≠ .resolve := fun resolve =>
      starts.sending sends (.inr (resolve ▸ ⟨nofun, nofun⟩))
    exact KeepsOrder.stopHere (same ⟨rfl, rfl, rfl, rfl, rfl, rfl, rfl, rfl, rfl⟩ rfl rfl rfl) raw begun
  | startIdle | transmit | arrive | readRaw | readRawDead | readMore | readMessage
  | readMessageDead | readOverrun | readDatagram | readDatagramDead | direct | requestDead =>
    exact same ⟨rfl, rfl, rfl, rfl, rfl, rfl, rfl, rfl, rfl⟩ rfl rfl rfl
  | readThrew _ reading | readError reading =>
    have begun := settled (starts.later (.inl reading))
    exact KeepsOrder.stopHere (same ⟨rfl, rfl, rfl, rfl, rfl, rfl, rfl, rfl, rfl⟩ rfl rfl rfl) raw begun
  | directFailed _ _ on =>
    have begun := settled (starts.later (.inr on))
    exact KeepsOrder.stopHere (same ⟨rfl, rfl, rfl, rfl, rfl, rfl, rfl, rfl, rfl⟩ rfl rfl rfl) raw begun
  | greeting | greetingReply | directResolve | okReply | connectSsl | requestDirect =>
    exact goes ⟨rfl, rfl, rfl, rfl, rfl, rfl, rfl, rfl, rfl⟩ rfl nofun id
  | directConnect | requestBlocked | connectRaw | handshake =>
    exact goes ⟨rfl, rfl, rfl, rfl, rfl, rfl, rfl, rfl, rfl⟩ rfl nofun nofun
  | resolve startup =>
    exact keeps.of_same ⟨rfl, rfl, rfl, rfl, rfl, rfl, rfl, rfl, rfl⟩ nofun
      (fun shut => absurd startup shut.startup) .inl
  | startupThrew | requestBad =>
    exact KeepsOrder.stopHere (goes ⟨rfl, rfl, rfl, rfl, rfl, rfl, rfl, rfl, rfl⟩ rfl nofun id) raw nofun

/-- The manager posts something that is no message. -/
theorem KeepsOrder.post (keeps : KeepsOrder r) {task : RelayTask} (other : task.message = none)
    (inbox : r'.inbox = r.inbox ++ [task])
    (stops : r'.log.stopCalled = false → r.log.stopCalled = false ∧ task ≠ .stopRelay)
    (type : r'.type = r.type) (late : r'.log.late = r.log.late) (ssl : r'.ssl = r.ssl)
    (startup : r'.startup = r.startup) (state : r'.state = r.state) (sock : r'.sock = r.sock)
    (given : r'.log.given = r.log.given) (accepted : r'.log.accepted = r.log.accepted)
    (written : r'.log.written = r.log.written) (kind : r'.kind = r.kind) : KeepsOrder r' := by
  have posted : r'.posted = r.posted := by
    unfold Relay.posted
    rw [inbox, List.filterMap_append, List.filterMap_cons, other]
    exact List.append_nil _
  have shut (isShut : r.Shut) : r'.Shut := ⟨sock.trans isShut.sock, startup ▸ isShut.startup⟩
  refine ⟨ssl ▸ keeps.noSsl, fun never there => ?_, fun isLate => ?_, fun resolves => ?_,
    fun isStopped => ?_, fun timely => ?_⟩
  · obtain ⟨before, ne⟩ := stops never
    rw [inbox] at there
    rcases List.mem_append.mp there with old | new
    · exact keeps.before before old
    · exact ne (List.mem_singleton.mp new).symm
  · rw [inbox]
    refine List.pairwise_append.mpr ⟨keeps.order (late.symm.trans isLate), List.pairwise_singleton _ _,
      fun first _ next isNext _ => ?_⟩
    rw [List.mem_singleton.mp isNext]
    exact other
  · exact type.trans (keeps.resolves (startup.symm.trans resolves))
  · refine (keeps.stopped (state.symm.trans isStopped)).imp shut fun halted => ?_
    refine ⟨type.trans halted.remote, Bool.of_not_eq_false fun never => ?_, fun isLate => ?_⟩
    · exact absurd halted.stopCalled (Bool.eq_false_iff.mp (stops never).1)
    · exact posted.trans (halted.posted (late.symm.trans isLate))
  · rw [late, type] at timely
    refine (keeps.given timely).imp (fun inOrder => ?_) fun closed => ⟨shut closed.1, ?_⟩
    · unfold InOrder at inOrder ⊢
      rw [accepted, posted, given]
      exact inOrder
    · rw [written, given, text_eq kind]
      exact closed.2

/-- The manager gives the relay a message. -/
theorem KeepsOrder.sendData (keeps : KeepsOrder r) (buf : Frame) : KeepsOrder (r.sendData buf) := by
  have posted : (r.sendData buf).posted = r.posted ++ [buf] := posted_append [.sendData buf]
  have timely_of (late : (r.sendData buf).log.late = false) :
      r.log.late = false ∧ r.log.stopCalled = false := Bool.or_eq_false_iff.mp late
  refine ⟨keeps.noSsl, fun never there => ?_, fun late => ?_, keeps.resolves, fun isStopped => ?_,
    fun timely => ?_⟩
  · rcases List.mem_append.mp there with old | new
    · exact keeps.before never old
    · cases List.mem_singleton.mp new
  · obtain ⟨late, never⟩ := timely_of late
    refine List.pairwise_append.mpr ⟨keeps.order late, List.pairwise_singleton _ _,
      fun first isFirst _ _ stops => ?_⟩
    exact absurd (stops ▸ isFirst) (keeps.before never)
  · refine (keeps.stopped isStopped).imp (fun shut => ⟨shut.sock, shut.startup⟩) fun halted => ?_
    refine ⟨halted.remote, halted.stopCalled, fun late => ?_⟩
    exact absurd halted.stopCalled (Bool.eq_false_iff.mp (timely_of late).2)
  · refine (keeps.given (timely.imp (fun late => (timely_of late).1) id)).imp (fun inOrder => ?_)
      fun closed => ⟨⟨closed.1.sock, closed.1.startup⟩, ?_⟩
    · unfold InOrder at inOrder ⊢
      show r.log.accepted ++ (r.sendData buf).posted = r.log.given ++ [buf]
      rw [posted, ← List.append_assoc, inOrder]
    · show r.log.written <+: (r.log.given ++ [buf]).flatMap r.text
      rw [List.flatMap_append]
      exact closed.2.trans (List.prefix_append _ _)

theorem Fresh.keepsOrder (fresh : Fresh r) (resolves : r.startup = .resolve → r.type = .remoteServer) :
    KeepsOrder r := by
  refine ⟨?_, fun _ there => ?_, fun _ => ?_, resolves, fun isStopped => ?_, fun _ => .inl ?_⟩
  · rw [fresh.ssl]
  · rw [fresh.inbox] at there
    cases there
  · rw [fresh.inbox]
    exact .nil
  · exact absurd (fresh.state.symm.trans isStopped) nofun
  · unfold InOrder posted
    rw [fresh.inbox, fresh.log]
    rfl

theorem Calls.keepsOrder {c : RelayCall} (called : Calls r c r') (proper : r.Proper (.call c))
    (raw : r.kind = .rawTcp) (keeps : KeepsOrder r) : KeepsOrder r' := by
  cases called with
  | @sendData buf => exact keeps.sendData buf
  | stopRaw =>
    exact @KeepsOrder.post r _ keeps .stopRelay rfl rfl nofun rfl rfl rfl rfl rfl rfl rfl rfl rfl rfl
  | stopSsl _ _ ssl => exact absurd (raw.symm.trans ssl) nofun
  | count | emit =>
    exact keeps.of_same ⟨rfl, rfl, rfl, rfl, rfl, rfl, rfl, rfl, rfl⟩ id
      (fun shut => ⟨shut.sock, shut.startup⟩) .inl
  | @addPeer s peer =>
    exact @KeepsOrder.post r _ keeps (.addPeer s peer) rfl rfl (fun never => ⟨never, nofun⟩) rfl rfl rfl rfl
      rfl rfl rfl rfl rfl rfl
  | @delPeer s =>
    exact @KeepsOrder.post r _ keeps (.delPeer s) rfl rfl (fun never => ⟨never, nofun⟩) rfl rfl rfl rfl rfl rfl
      rfl rfl rfl rfl
  | @begin session =>
    obtain ⟨_, born⟩ := proper
    refine Fresh.keepsOrder ⟨born.state, born.bufs, born.inbox, born.activations, born.sending,
      born.toClient, born.toRemote, born.reading, born.arrived, born.ssl, born.log⟩ fun resolve => ?_
    have startup : (r.begin session).startup = .resolve := resolve
    unfold Relay.begin at startup
    simp only at startup
    split at startup
    · cases startup
    · rename_i remote
      exact remote
    · exact absurd ((born.idle (raw ▸ nofun)).symm.trans startup) nofun
  | startRead =>
    exact @KeepsOrder.post r _ keeps .startInit rfl rfl (fun never => ⟨never, nofun⟩) rfl rfl rfl rfl rfl
      rfl rfl rfl rfl rfl
  | startUdpRemote | startUdpLocal => exact absurd (raw.symm.trans proper.1) nofun

theorem Lives.keepsOrder (lives : r.Lives) (raw : r.kind = .rawTcp) : KeepsOrder r := by
  revert raw
  refine lives.invariant (P := fun r => r.kind = .rawTcp → KeepsOrder r) (fun {r} born raw => ?_)
    (fun {r c r'} _ keeps proper called raw => ?_) fun {r alive ev r' outs} lives keeps handled raw => ?_
  · refine born.toFresh.keepsOrder fun resolve => ?_
    exact absurd ((born.idle (raw ▸ nofun)).symm.trans resolve) nofun
  · have before : r.kind = .rawTcp := by cases called <;> exact raw
    exact called.keepsOrder proper before (keeps before)
  · have before : r.kind = .rawTcp := handled.sameCalls.kind.symm.trans raw
    have stream : r.kind ≠ .rawUdp := before ▸ nofun
    have next := handled.keepsOrder before lives.startsOnce (lives.written_pushed stream) (keeps before)
    exact next.of_same ⟨rfl, rfl, rfl, rfl, rfl, rfl, rfl, rfl, rfl⟩ id
      (fun shut => ⟨shut.sock, shut.startup⟩) .inl

/-- **What a raw_tcp wrote is a prefix of what it was given**, unless the manager of the
remote side gave it a message after it had stopped it. -/
theorem Lives.written_given (lives : r.Lives) (raw : r.kind = .rawTcp)
    (timely : r.log.late = false ∨ r.type ≠ .remoteServer) :
    r.log.written <+: r.log.given.flatMap Frame.payload := by
  have text : r.text = Frame.payload := by
    funext buf
    unfold Relay.text
    rw [raw]
    rfl
  rw [← text]
  rcases (lives.keepsOrder raw).given timely with inOrder | closed
  · rw [← (show r.log.accepted ++ r.posted = r.log.given from inOrder), List.flatMap_append]
    exact (lives.written_pushed (raw ▸ nofun)).trans (List.prefix_append _ _)
  · exact closed.2

/-! ## A relay that does not leave `RELAY_STOP` -/

/-- What was pushed begins what was given, and is all of it that was handled, unless
the relay is stopped. -/
def PushesInOrder (r : Relay) : Prop :=
  r.InOrder ∨ r.state = .stop ∧ r.log.accepted <+: r.log.given

theorem PushesInOrder.begins (pushes : PushesInOrder r) : r.log.accepted <+: r.log.given := by
  rcases pushes with inOrder | stopped
  · exact ⟨r.posted, inOrder⟩
  · exact stopped.2

theorem SendLoop.accepted (loop : SendLoop r r') : r'.log.accepted = r.log.accepted := by
  cases loop with
  | threw => exact (sameQueue_stopHere _).accepted
  | _ => rfl

/-- A handler of a relay that does not leave `RELAY_STOP`. -/
theorem Handles.pushesInOrder (handled : Handles alive r ev r' outs) (pushes : PushesInOrder r)
    (stays : r.state = .stop → StaysStopped r r') : PushesInOrder r' := by
  have given := handled.sameCalls.given
  by_cases stopped : r.state = .stop
  · right
    have same := stays stopped
    refine ⟨same.state, ?_⟩
    rw [same.accepted, given]
    exact pushes.begins
  · have inOrder : r.log.accepted ++ r.posted = r.log.given :=
      pushes.resolve_right fun both => stopped both.1
    have kept (inbox : r'.inbox = r.inbox) (accepted : r'.log.accepted = r.log.accepted) :
        PushesInOrder r' := by
      left
      unfold InOrder posted
      rw [accepted, inbox, given]
      exact inOrder
    have popped {task : RelayTask} {inbox : List RelayTask} (queue : r.inbox = task :: inbox)
        (other : task.message = none) (isInbox : r'.inbox = inbox)
        (accepted : r'.log.accepted = r.log.accepted) : PushesInOrder r' := by
      left
      unfold InOrder Relay.posted
      rw [posted_cons queue, other] at inOrder
      rw [accepted, isInbox, given]
      exact inOrder
    have stop (a : Relay) : a.stopHere.inbox = a.inbox ∧ a.stopHere.log.accepted = a.log.accepted :=
      ⟨(keepsStartup_stopHere a).inbox, (sameQueue_stopHere a).accepted⟩
    cases handled with
    | dropped _ isStopped => exact absurd isStopped stopped
    | pushed queue =>
      left
      unfold InOrder Relay.posted
      rw [posted_cons queue] at inOrder
      show (r.log.accepted ++ [_]) ++ _ = r.log.given
      rw [List.append_assoc]
      exact inOrder
    | @stopTask inbox queue =>
      have frame : (Relay.stopTask { r with inbox }).inbox = inbox ∧
          (Relay.stopTask { r with inbox }).log.accepted = r.log.accepted := by
        rcases stopTask_cases { r with inbox } with ⟨_, same⟩ | ⟨bound, same⟩ <;> rw [same] <;>
          exact ⟨rfl, rfl⟩
      exact popped queue rfl frame.1 frame.2
    | startInit queue | addPeer queue | delPeer queue => exact popped queue rfl rfl rfl
    | startSend _ _ loop | sent _ loop => exact kept loop.keepsStartup.inbox loop.accepted
    | sendError | readThrew | readError | startupThrew | requestBad | directFailed =>
      exact kept (stop _).1 (stop _).2
    | _ => exact kept rfl rfl

/-- A call of the manager. -/
theorem Calls.pushesInOrder {c : RelayCall} (called : Calls r c r') (pushes : PushesInOrder r) :
    PushesInOrder r' := by
  have more {a : Relay} (tasks : List RelayTask) (frames : List Frame)
      (inbox : a.inbox = r.inbox ++ tasks) (messages : tasks.filterMap RelayTask.message = frames)
      (accepted : a.log.accepted = r.log.accepted) (given : a.log.given = r.log.given ++ frames)
      (state : a.state = r.state) : PushesInOrder a := by
    rcases pushes with inOrder | ⟨stopped, begins⟩
    · left
      unfold InOrder posted at inOrder ⊢
      rw [accepted, inbox, List.filterMap_append, messages, given, ← List.append_assoc, inOrder]
    · right
      refine ⟨state.trans stopped, ?_⟩
      rw [accepted, given]
      exact begins.trans (List.prefix_append _ _)
  cases called with
  | @sendData buf => exact more [.sendData buf] [buf] rfl rfl rfl rfl rfl
  | stopRaw => exact more [.stopRelay] [] rfl rfl rfl (List.append_nil _).symm rfl
  | stopSsl | count | emit | begin =>
    exact more [] [] (List.append_nil _).symm rfl rfl (List.append_nil _).symm rfl
  | @addPeer s peer => exact more [.addPeer s peer] [] rfl rfl rfl (List.append_nil _).symm rfl
  | @delPeer s => exact more [.delPeer s] [] rfl rfl rfl (List.append_nil _).symm rfl
  | startRead | startUdpRemote | startUdpLocal =>
    exact more [.startInit] [] rfl rfl rfl (List.append_nil _).symm rfl

theorem Born.pushesInOrder (born : r.Born) : PushesInOrder r := by
  left
  unfold InOrder posted
  rw [born.inbox, born.log]
  rfl

end Relay

end SslSocks
