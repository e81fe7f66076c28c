import SslSocks.RelayLife

/-!
# The send queue over the life of a relay

`send_data` posts, its handler pushes, `start_send` writes the head of the queue and
pops it when the write is complete. `Lives.sends` says what this amounts to: the
bytes the stream took, followed by those still to be written for the queue, are the
bytes of the messages pushed, until a send fails; then nothing is written any more.
What was written is therefore always a prefix of what was pushed
(`Lives.written_pushed`).
-/

namespace SslSocks

open Lib

namespace Relay

/-! ## The start-up comes to `RELAY_INIT` once -/

/-- The start-up has still to set `RELAY_INIT`. -/
def Early (r : Relay) : Prop :=
  .startInit ∈ r.inbox ∨ r.startup ≠ .idle ∧ r.startup ≠ .okReply

/-- The relay reads, or relays directly. -/
def Reads (r : Relay) : Prop := r.reading ∨ r.tcp.toClient ≠ .off ∨ r.tcp.toRemote ≠ .off

/-- Before `RELAY_INIT` nothing is sent, and it is set once. -/
structure StartsOnce (r : Relay) : Prop where
  early : r.Early → (r.state = .uninit ∨ r.state = .stop) ∧ r.sending = none
  busy : r.sending ≠ none → r.state = .start ∨ r.state = .stop
  once : r.inbox.count .startInit ≤ 1
  apart : .startInit ∈ r.inbox → r.startup = .idle
  later : r.Reads → r.startup = .idle ∨ r.startup = .okReply

/-- The start-up stays where it is or is given up, and no read begins. -/
structure KeepsStartup (r r' : Relay) : Prop where
  inbox : r'.inbox = r.inbox
  startup : r'.startup = r.startup ∨ r'.startup = .idle
  reads : r'.Reads → r.Reads

variable {r r' r'' : Relay} {alive : Bool} {ev : RelayEvent} {outs : List RelayOut}

theorem keepsStartup_stopHere (r : Relay) : KeepsStartup r r.stopHere := by
  rcases stopHere_cases r with ⟨_, same⟩ | ⟨_, ⟨_, same⟩ | ⟨bound, same⟩⟩ <;> rw [same] <;>
    exact ⟨rfl, .inl rfl, id⟩

theorem SendLoop.keepsStartup (loop : SendLoop r r') : KeepsStartup r r' := by
  cases loop with
  | threw =>
    obtain ⟨inbox, startup, reads⟩ := keepsStartup_stopHere _
    exact ⟨inbox, startup, reads⟩
  | _ => exact ⟨rfl, .inl rfl, id⟩

theorem stopHere_sending (r : Relay) : r.stopHere.sending = r.sending := by
  rcases stopHere_cases r with ⟨_, same⟩ | ⟨_, ⟨_, same⟩ | ⟨bound, same⟩⟩ <;> rw [same]

theorem stopHere_state (r : Relay) : r.stopHere.state = r.state ∨ r.stopHere.state = .stop := by
  rcases stopHere_cases r with ⟨_, same⟩ | ⟨_, ⟨_, same⟩ | ⟨bound, same⟩⟩ <;> rw [same]
  · exact .inl rfl
  · exact .inl rfl
  · exact .inr rfl

theorem KeepsStartup.early (keeps : KeepsStartup r r') (isEarly : r'.Early) : r.Early := by
  refine isEarly.imp (fun posted => keeps.inbox ▸ posted) fun other => ?_
  rcases keeps.startup with same | idle
  · exact same ▸ other
  · exact absurd idle other.1

/-- Otherwise only the state and the send under way change. -/
theorem StartsOnce.of_keeps (starts : StartsOnce r) (keeps : KeepsStartup r r')
    (early : r.Early → (r'.state = .uninit ∨ r'.state = .stop) ∧ r'.sending = none)
    (busy : r'.sending ≠ none → r'.state = .start ∨ r'.state = .stop) : StartsOnce r' where
  early isEarly := early (keeps.early isEarly)
  busy := busy
  once := keeps.inbox ▸ starts.once
  apart posted := by
    rcases keeps.startup with same | idle
    · exact same.trans (starts.apart (keeps.inbox ▸ posted))
    · exact idle
  later reads := by
    rcases keeps.startup with same | idle
    · rw [same]
      exact starts.later (keeps.reads reads)
    · exact .inl idle

theorem StartsOnce.stopHere (starts : StartsOnce r) : StartsOnce r.stopHere := by
  refine starts.of_keeps (keepsStartup_stopHere r) (fun isEarly => ?_) fun sends => ?_
  · obtain ⟨state, sending⟩ := starts.early isEarly
    rw [stopHere_sending]
    refine ⟨?_, sending⟩
    rcases stopHere_state r with same | stopped
    · rw [same]
      exact state
    · exact .inr stopped
  · rw [stopHere_sending] at sends
    rcases stopHere_state r with same | stopped
    · rw [same]
      exact starts.busy sends
    · exact .inr stopped

/-- The loop is entered when the start-up is over. -/
theorem SendLoop.startsOnce (loop : SendLoop r r') (starts : StartsOnce r) (late : ¬ r.Early)
    (none : r.sending = none) (state : r.state = .start ∨ r.state = .stop) : StartsOnce r' := by
  refine starts.of_keeps loop.keepsStartup (fun isEarly => absurd isEarly late) fun sends => ?_
  cases loop with
  | empty | stopped => exact absurd none sends
  | stream | datagram => exact state
  | threw =>
    rw [stopHere_sending] at sends
    exact absurd none sends

theorem StartsOnce.sending (starts : StartsOnce r) (sends : r.sending ≠ none) : ¬ r.Early :=
  fun isEarly => sends (starts.early isEarly).2

/-- In `RELAY_INIT` the start-up is over and nothing is sent. -/
theorem StartsOnce.ready (starts : StartsOnce r) (init : r.state = .init) :
    ¬ r.Early ∧ r.sending = none := by
  refine ⟨fun isEarly => ?_, Classical.not_not.mp fun sends => ?_⟩
  · rcases (starts.early isEarly).1 with state | state
    · exact absurd (init.symm.trans state) nofun
    · exact absurd (init.symm.trans state) nofun
  · rcases starts.busy sends with state | state
    · exact absurd (init.symm.trans state) nofun
    · exact absurd (init.symm.trans state) nofun

/-- A posted handler other than the switch to `RELAY_INIT` leaves the inbox. -/
theorem StartsOnce.pop (starts : StartsOnce r) {task : RelayTask} {inbox : List RelayTask}
    (queue : r.inbox = task :: inbox) : StartsOnce { r with inbox } := by
  have fewer {t : RelayTask} (there : t ∈ inbox) : t ∈ r.inbox :=
    queue ▸ List.mem_cons_of_mem _ there
  refine ⟨fun isEarly => starts.early (isEarly.imp fewer id), starts.busy, ?_,
    fun posted => starts.apart (fewer posted), starts.later⟩
  have once := starts.once
  rw [queue] at once
  exact Nat.le_trans (List.Sublist.count_le _ (List.sublist_cons_self _ _)) once

/-- The start-up goes on to `RELAY_INIT`. -/
theorem StartsOnce.enter (starts : StartsOnce r) (isEarly : r.startup ≠ .idle ∧ r.startup ≠ .okReply)
    (startup : r'.startup = .idle ∨ r'.startup = .okReply) (inbox : r'.inbox = r.inbox)
    (sending : r'.sending = r.sending) : StartsOnce r' := by
  have none : .startInit ∉ r'.inbox := fun posted => isEarly.1 (starts.apart (inbox ▸ posted))
  have begun : ¬ r'.Early := by
    rintro (posted | other)
    · exact none posted
    · rcases startup with idle | reply
      · exact other.1 idle
      · exact other.2 reply
  exact ⟨fun is => absurd is begun,
    fun sends => absurd (sending.trans (starts.early (.inr isEarly)).2) sends,
    inbox ▸ starts.once, fun posted => absurd posted none, fun _ => startup⟩

/-- A start-up step before `RELAY_INIT`. -/
theorem StartsOnce.early_step (starts : StartsOnce r)
    (isEarly : r.startup ≠ .idle ∧ r.startup ≠ .okReply) (inbox : r'.inbox = r.inbox)
    (state : r'.state = r.state) (sending : r'.sending = r.sending)
    (reads : r'.Reads → r.Reads) : StartsOnce r' := by
  have none : .startInit ∉ r'.inbox := fun posted => isEarly.1 (starts.apart (inbox ▸ posted))
  refine ⟨fun _ => ?_, fun sends => ?_, inbox ▸ starts.once, fun posted => absurd posted none,
    fun isReading => ?_⟩
  · rw [state, sending]
    exact starts.early (.inr isEarly)
  · rw [state]
    exact starts.busy (sending ▸ sends)
  · rcases starts.later (reads isReading) with idle | reply
    · exact absurd idle isEarly.1
    · exact absurd reply isEarly.2

theorem StartsOnce.stopTask (starts : StartsOnce r) : StartsOnce r.stopTask := by
  rcases stopTask_cases r with ⟨_, same⟩ | ⟨bound, same⟩ <;> rw [same]
  · exact starts
  · exact starts.of_keeps ⟨rfl, .inl rfl, id⟩ (fun isEarly => ⟨.inr rfl, (starts.early isEarly).2⟩)
      fun _ => .inr rfl

/-- **One handler** keeps the order of the start-up. -/
theorem Handles.startsOnce (handled : Handles alive r ev r' outs) (starts : StartsOnce r) :
    StartsOnce r' := by
  have same {a : Relay} (keeps : KeepsStartup r a) (state : a.state = r.state)
      (sending : a.sending = r.sending) : StartsOnce a := by
    refine starts.of_keeps keeps (fun isEarly => ?_) fun sends => ?_
    · rw [state, sending]
      exact starts.early isEarly
    · rw [state]
      exact starts.busy (sending ▸ sends)
  have quieter {a : Relay} (off : a.reading = false) (tcp : a.tcp = r.tcp) (reads : a.Reads) :
      r.Reads := by
    unfold Reads at reads
    rw [off, tcp] at reads
    exact reads.imp nofun id
  cases handled with
  | dropped queue => exact starts.pop queue
  | pushed queue | addPeer queue | delPeer queue =>
    obtain ⟨early, busy, once, apart, later⟩ := starts.pop queue
    exact ⟨early, busy, once, apart, later⟩
  | stopTask queue => exact (starts.pop queue).stopTask
  | @startInit inbox queue =>
    have posted : .startInit ∈ r.inbox := queue ▸ List.mem_cons_self
    have none : .startInit ∉ inbox := by
      have once := starts.once
      rw [queue, List.count_cons_self] at once
      exact List.count_eq_zero.mp (by omega)
    have idle := starts.apart posted
    have begun : ¬ Early { r with inbox } := by
      rintro (still | other)
      · exact none still
      · exact other.1 idle
    refine ⟨fun isEarly => absurd isEarly begun,
      fun sends => absurd (starts.early (.inl posted)).2 sends, ?_, fun still => absurd still none, starts.later⟩
    rw [List.count_eq_zero.mpr none]
    exact Nat.zero_le 1
  | sslStop =>
    exact starts.of_keeps ⟨rfl, .inl rfl, id⟩ (fun isEarly => ⟨.inr rfl, (starts.early isEarly).2⟩)
      fun _ => .inr rfl
  | startSend _ init loop =>
    obtain ⟨begun, none⟩ := starts.ready init
    refine loop.startsOnce ?_ begun none (.inl rfl)
    exact starts.of_keeps ⟨rfl, .inl rfl, id⟩ (fun isEarly => absurd isEarly begun) fun _ => .inl rfl
  | sent sending loop =>
    have sends : r.sending ≠ none := by
      rcases sending with stream | ⟨dst, window, datagram⟩
      · exact stream ▸ nofun
      · exact datagram ▸ nofun
    have begun := starts.sending sends
    refine loop.startsOnce ?_ begun rfl (starts.busy sends)
    exact starts.of_keeps ⟨rfl, .inl rfl, id⟩ (fun isEarly => absurd isEarly begun)
      fun none => absurd rfl none
  | sendError sends =>
    refine StartsOnce.stopHere (starts.of_keeps ⟨rfl, .inl rfl, id⟩ ?_ fun none => absurd rfl none)
    exact fun isEarly => absurd isEarly (starts.sending sends)
  | take sending | transmit sending =>
    have sends : r.sending ≠ none := sending ▸ nofun
    exact starts.of_keeps ⟨rfl, .inl rfl, id⟩
      (fun isEarly => absurd isEarly (starts.sending sends)) fun _ => starts.busy sends
  | closed | startIdle | arrive | readRaw | readRawDead | readMore | readMessage | readOverrun
  | readDatagram | readDatagramDead | requestDead => exact same ⟨rfl, .inl rfl, id⟩ rfl rfl
  | readMessageDead => exact same ⟨rfl, .inl rfl, quieter rfl rfl⟩ rfl rfl
  | readThrew | readError =>
    exact StartsOnce.stopHere (same ⟨rfl, .inl rfl, quieter rfl rfl⟩ rfl rfl)
  | greeting startup | greetingReply startup | directResolve startup | resolve startup
  | connectSsl startup | requestDirect startup =>
    exact starts.early_step (startup ▸ ⟨nofun, nofun⟩) rfl rfl rfl id
  | directConnect startup | requestBlocked startup =>
    exact starts.enter (startup ▸ ⟨nofun, nofun⟩) (.inr rfl) rfl rfl
  | connectRaw startup | handshake startup =>
    exact starts.enter (startup ▸ ⟨nofun, nofun⟩) (.inl rfl) rfl rfl
  | okReply => exact same ⟨rfl, .inr rfl, id⟩ rfl rfl
  | startupThrew | requestBad => exact StartsOnce.stopHere (same ⟨rfl, .inr rfl, id⟩ rfl rfl)
  | direct _ _ on => exact same ⟨rfl, .inl rfl, fun _ => .inr on⟩ rfl rfl
  | directFailed _ _ on =>
    exact StartsOnce.stopHere (same ⟨rfl, .inl rfl, fun _ => .inr on⟩ rfl rfl)

theorem Born.notReads (born : r.Born) : ¬ r.Reads := by
  rintro (on | client | remote)
  · rw [born.reading] at on
    cases on
  · exact client born.toClient
  · exact remote born.toRemote

theorem Born.startsOnce (born : r.Born) : StartsOnce r := by
  refine ⟨fun _ => ⟨.inl born.state, born.sending⟩, fun sends => absurd born.sending sends, ?_,
    fun posted => ?_, fun reads => absurd reads born.notReads⟩
  · rw [born.inbox]
    exact Nat.zero_le 1
  · rw [born.inbox] at posted
    cases posted

/-- A handler is posted. -/
theorem StartsOnce.post (starts : StartsOnce r) {task : RelayTask} (other : task ≠ .startInit) :
    StartsOnce { r with inbox := r.inbox ++ [task] } := by
  have before {t : RelayTask} (there : t ∈ r.inbox ++ [task]) (init : t = .startInit) :
      t ∈ r.inbox := by
    rcases List.mem_append.mp there with old | new
    · exact old
    · exact absurd ((List.mem_singleton.mp new).symm.trans init) other
  refine ⟨fun isEarly => starts.early (isEarly.imp (fun posted => before posted rfl) id),
    starts.busy, ?_, fun posted => starts.apart (before posted rfl), starts.later⟩
  rw [List.count_append, List.count_singleton, if_neg (by simpa using other)]
  exact starts.once

/-- A new relay posts its switch to `RELAY_INIT`. -/
theorem Born.startsOnce_started (born : r.Born) (idle : r.startup = .idle)
    (inbox : r'.inbox = r.inbox ++ [.startInit]) (startup : r'.startup = r.startup)
    (state : r'.state = r.state) (sending : r'.sending = r.sending) : StartsOnce r' := by
  have none : r'.sending = none := sending.trans born.sending
  refine ⟨fun _ => ⟨.inl (state.trans born.state), none⟩, fun sends => absurd none sends, ?_,
    fun _ => startup.trans idle, fun _ => .inl (startup.trans idle)⟩
  rw [inbox, born.inbox]
  exact Nat.le_refl 1

theorem Born.idle (born : r.Born) (raw : r.kind ≠ .ssl) : r.startup = .idle := by
  rw [born.startup, firstStartup]
  split
  · rename_i ssl _
    exact absurd ssl raw
  · rename_i ssl _
    exact absurd ssl raw
  · rfl

theorem Calls.startsOnce {c : RelayCall} (called : Calls r c r') (proper : r.Proper (.call c))
    (starts : StartsOnce r) : StartsOnce r' := by
  have posted (task : RelayTask) (other : task ≠ .startInit) := starts.post other
  cases called with
  | @sendData buf =>
    obtain ⟨early, busy, once, apart, later⟩ := posted (.sendData buf) nofun
    exact ⟨early, busy, once, apart, later⟩
  | stopRaw =>
    obtain ⟨early, busy, once, apart, later⟩ := posted .stopRelay nofun
    exact ⟨early, busy, once, apart, later⟩
  | stopSsl | count | emit =>
    obtain ⟨early, busy, once, apart, later⟩ := starts
    exact ⟨early, busy, once, apart, later⟩
  | addPeer | delPeer => exact posted _ nofun
  | begin =>
    obtain ⟨_, born⟩ := proper
    refine ⟨fun _ => ⟨.inl born.state, born.sending⟩, fun sends => absurd born.sending sends,
      starts.once, fun there => ?_, fun reads => absurd reads born.notReads⟩
    have inbox : .startInit ∈ r.inbox := there
    rw [born.inbox] at inbox
    cases inbox
  | startRead =>
    obtain ⟨kind, _, born, _⟩ := proper
    have idle := born.idle (show r.kind ≠ .ssl from kind ▸ nofun)
    exact born.startsOnce_started idle rfl rfl rfl rfl
  | startUdpRemote =>
    obtain ⟨kind, born⟩ := proper
    exact born.startsOnce_started (born.idle (kind ▸ nofun)) rfl rfl rfl rfl
  | startUdpLocal =>
    obtain ⟨kind, born⟩ := proper
    exact born.startsOnce_started (born.idle (kind ▸ nofun)) rfl rfl rfl rfl

theorem Lives.startsOnce (lives : r.Lives) : StartsOnce r :=
  lives.invariant Born.startsOnce (fun _ starts proper called => called.startsOnce proper starts)
    fun _ starts handled => by
      obtain ⟨early, busy, once, apart, later⟩ := handled.startsOnce starts
      exact ⟨early, busy, once, apart, later⟩

/-! ## The bytes of the queue -/

/-- The bytes that the stream has still to take for the messages in the queue. -/
def unsent (r : Relay) : List UInt8 :=
  match r.sending with
  | some (.stream rest) => rest ++ r.bufs.tail.flatMap r.text
  | _ => r.bufs.flatMap r.text

/-- A send has failed: the queue keeps its messages and sends nothing more. A
raw relay is then in `RELAY_STOP`, an `ssl_relay` perhaps not yet. -/
structure Frozen (r : Relay) : Prop where
  state : r.state = .stop ∨ r.kind = .ssl ∧ r.state = .start
  sending : r.sending = none
  late : ¬ r.Early
  written : r.log.written <+: r.log.accepted.flatMap r.text

/-- The part of it that is about the queue itself. -/
structure Stuck (r : Relay) : Prop where
  state : r.state = .stop ∨ r.kind = .ssl ∧ r.state = .start
  sending : r.sending = none
  late : ¬ r.Early

/-- What was written and what is to be written are what was pushed. -/
structure Flows (r : Relay) : Prop where
  bytes : r.log.written ++ r.unsent = r.log.accepted.flatMap r.text
  stream : ∀ {s}, r.sending = some s → r.bufs ≠ [] ∧ ∃ rest, s = .stream rest

/-- The queue and its histories. -/
structure SameQueue (r r' : Relay) : Prop where
  kind : r'.kind = r.kind
  bufs : r'.bufs = r.bufs
  sending : r'.sending = r.sending
  written : r'.log.written = r.log.written
  accepted : r'.log.accepted = r.log.accepted

theorem text_eq (kind : r'.kind = r.kind) : r'.text = r.text := by
  funext buf
  unfold text
  rw [kind]

theorem Flows.of_same (flows : Flows r) (same : SameQueue r r') : Flows r' := by
  have text := text_eq same.kind
  have unsent : r'.unsent = r.unsent := by
    unfold Relay.unsent
    rw [same.sending, same.bufs, text]
  refine ⟨?_, fun sends => ?_⟩
  · rw [same.written, same.accepted, unsent, text]
    exact flows.bytes
  · rw [same.sending] at sends
    rw [same.bufs]
    exact flows.stream sends

theorem sameQueue_stopHere (r : Relay) : SameQueue r r.stopHere := by
  rcases stopHere_cases r with ⟨_, same⟩ | ⟨_, ⟨_, same⟩ | ⟨bound, same⟩⟩ <;> rw [same] <;>
    exact ⟨rfl, rfl, rfl, rfl, rfl⟩

/-- The head of the queue is given to the stream. -/
theorem SendLoop.flows (loop : SendLoop r r') (raw : r.kind ≠ .rawUdp) (none : r.sending = none)
    (flows : Flows r) : Flows r' := by
  cases loop with
  | empty | stopped => exact flows.of_same ⟨rfl, rfl, rfl, rfl, rfl⟩
  | @stream buf rest bufs =>
    have bytes := flows.bytes
    refine ⟨?_, fun sends => ?_⟩
    · unfold unsent at bytes ⊢
      rw [none, bufs, List.flatMap_cons] at bytes
      rw [bufs]
      exact bytes
    · cases sends
      exact ⟨bufs ▸ List.cons_ne_nil buf rest, _, rfl⟩
  | datagram _ _ _ _ _ udp | threw _ _ _ _ udp => exact absurd udp raw

/-- What a queue that sends nothing keeps. -/
structure Idles (r r' : Relay) : Prop where
  kind : r'.kind = r.kind
  written : r'.log.written = r.log.written
  passed : r'.log.passed = r.log.passed
  accepted : r.log.accepted <+: r'.log.accepted

theorem Stuck.frozen (stuck : Stuck r) (written : r.log.written <+: r.log.accepted.flatMap r.text) :
    Frozen r :=
  ⟨stuck.state, stuck.sending, stuck.late, written⟩

theorem Frozen.stuck (frozen : Frozen r) : Stuck r := ⟨frozen.state, frozen.sending, frozen.late⟩

theorem Frozen.idles (frozen : Frozen r) (stuck : Stuck r') (idles : Idles r r') : Frozen r' := by
  apply stuck.frozen
  rw [idles.written, text_eq idles.kind]
  obtain ⟨later, pushed⟩ := idles.accepted
  rw [← pushed, List.flatMap_append]
  exact frozen.written.trans (List.prefix_append _ _)

/-- A step that leaves the state and the queue alone. -/
theorem Stuck.keep (stuck : Stuck r) (early : r'.Early → r.Early) (state : r'.state = r.state)
    (kind : r'.kind = r.kind) (sending : r'.sending = r.sending) : Stuck r' := by
  refine ⟨?_, sending.trans stuck.sending, fun isEarly => stuck.late (early isEarly)⟩
  rw [kind, state]
  exact stuck.state

theorem Stuck.stopHere (stuck : Stuck r) : Stuck r.stopHere := by
  refine ⟨?_, (sameQueue_stopHere r).sending.trans stuck.sending,
    fun isEarly => stuck.late ((keepsStartup_stopHere r).early isEarly)⟩
  rw [(sameQueue_stopHere r).kind]
  rcases stopHere_state r with same | stopped
  · rw [same]
    exact stuck.state
  · exact .inl stopped

theorem idles_stopHere (r : Relay) : Idles r r.stopHere := by
  rcases stopHere_cases r with ⟨_, same⟩ | ⟨_, ⟨_, same⟩ | ⟨bound, same⟩⟩ <;> rw [same] <;>
    exact ⟨rfl, rfl, rfl, List.prefix_refl _⟩

/-- A send fails. -/
theorem StartsOnce.fail (starts : StartsOnce r) (sends : r.sending ≠ none) :
    Stuck (Relay.stopHere { r with sending := none }) ∧
      Idles r (Relay.stopHere { r with sending := none }) := by
  have idles := idles_stopHere { r with sending := none }
  refine ⟨?_, idles.kind, idles.written, idles.passed, idles.accepted⟩
  have late := starts.sending sends
  rcases stopHere_cases { r with sending := none } with
    ⟨ssl, same⟩ | ⟨raw, ⟨stopped, same⟩ | ⟨bound, same⟩⟩ <;> rw [same]
  · refine ⟨?_, rfl, late⟩
    rcases starts.busy sends with start | stop
    · exact .inr ⟨ssl, start⟩
    · exact .inl stop
  · exact ⟨.inl stopped, rfl, late⟩
  · exact ⟨.inl rfl, rfl, late⟩

/-- After a failed send nothing is passed to `internal_send_data`. -/
theorem Handles.stuck (handled : Handles alive r ev r' outs) (stuck : Stuck r) :
    Stuck r' ∧ Idles r r' := by
  have state := stuck.state
  have none := stuck.sending
  have late := stuck.late
  have same {a : Relay} (early : a.Early → r.Early) (isState : a.state = r.state)
      (kind : a.kind = r.kind) (sending : a.sending = r.sending)
      (log : a.log.written = r.log.written ∧ a.log.passed = r.log.passed)
      (accepted : a.log.accepted = r.log.accepted) : Stuck a ∧ Idles r a :=
    ⟨stuck.keep early isState kind sending, kind, log.1, log.2, accepted ▸ List.prefix_refl _⟩
  have stop {a : Relay} (both : Stuck a ∧ Idles r a) : Stuck a.stopHere ∧ Idles r a.stopHere := by
    obtain ⟨stuck, kind, written, passed, accepted⟩ := both
    have idles := idles_stopHere a
    exact ⟨stuck.stopHere, idles.kind.trans kind, idles.written.trans written,
      idles.passed.trans passed, accepted.trans idles.accepted⟩
  have popped {task : RelayTask} {inbox : List RelayTask} (queue : r.inbox = task :: inbox)
      (isEarly : Early { r with inbox }) : r.Early :=
    isEarly.imp (fun posted => queue ▸ List.mem_cons_of_mem _ posted) id
  have given_up (isEarly : Early { r with startup := .idle }) : r.Early :=
    isEarly.imp id fun other => absurd rfl other.1
  have begun {s : Startup} (startup : r.startup = s) (other : s ≠ .idle ∧ s ≠ .okReply) : False :=
    late (.inr (startup ▸ other))
  cases handled with
  | dropped queue | addPeer queue | delPeer queue =>
    exact same (popped queue) rfl rfl rfl ⟨rfl, rfl⟩ rfl
  | @pushed buf inbox queue _ =>
    exact ⟨⟨state, none, fun isEarly => late (popped queue isEarly)⟩, rfl, rfl, rfl,
      List.prefix_append _ _⟩
  | @stopTask inbox queue =>
    have before := same (popped queue) rfl rfl rfl ⟨rfl, rfl⟩ rfl
    rcases stopTask_cases { r with inbox } with ⟨_, isStopped⟩ | ⟨bound, isStopped⟩ <;>
      rw [isStopped]
    · exact before
    · exact ⟨⟨.inl rfl, none, before.1.late⟩, rfl, rfl, rfl, List.prefix_refl _⟩
  | startInit queue => exact absurd (.inl (queue ▸ List.mem_cons_self)) late
  | sslStop => exact ⟨⟨.inl rfl, none, late⟩, rfl, rfl, rfl, List.prefix_refl _⟩
  | startSend _ init =>
    rcases state with stopped | ⟨_, start⟩
    · exact absurd (init.symm.trans stopped) nofun
    · exact absurd (init.symm.trans start) nofun
  | take sending | transmit sending => exact absurd (sending.symm.trans none) nofun
  | sent sending =>
    rcases sending with stream | ⟨dst, window, datagram⟩
    · exact absurd (stream.symm.trans none) nofun
    · exact absurd (datagram.symm.trans none) nofun
  | sendError sends => exact absurd none sends
  | closed | startIdle | arrive | readRaw | readRawDead | readMore | readMessage | readOverrun
  | readDatagram | readDatagramDead | readMessageDead | direct =>
    exact same id rfl rfl rfl ⟨rfl, rfl⟩ rfl
  | readThrew | readError | directFailed => exact stop (same id rfl rfl rfl ⟨rfl, rfl⟩ rfl)
  | greeting startup | greetingReply startup | directResolve startup | resolve startup
  | connectSsl startup | requestDirect startup | requestDead startup | directConnect startup
  | requestBlocked startup | connectRaw startup | handshake startup | requestBad startup =>
    exact (begun startup ⟨nofun, nofun⟩).elim
  | okReply => exact same given_up rfl rfl rfl ⟨rfl, rfl⟩ rfl
  | startupThrew => exact stop (same given_up rfl rfl rfl ⟨rfl, rfl⟩ rfl)

/-- **One handler** and the bytes of the queue. -/
theorem Handles.flows (handled : Handles alive r ev r' outs) (starts : StartsOnce r)
    (raw : r.kind ≠ .rawUdp) (flows : Flows r) : Flows r' ∨ Frozen r' := by
  have same {a : Relay} (queue : SameQueue r a) : Flows a ∨ Frozen a := .inl (flows.of_same queue)
  have stop {a : Relay} (queue : SameQueue r a) : Flows a.stopHere ∨ Frozen a.stopHere :=
    .inl ((flows.of_same queue).of_same (sameQueue_stopHere a))
  cases handled with
  | @pushed buf inbox queue going =>
    left
    have bytes := flows.bytes
    refine ⟨?_, fun sends => ⟨List.append_ne_nil_of_right_ne_nil _ (List.cons_ne_nil _ _),
      (flows.stream sends).2⟩⟩
    show r.log.written ++ unsent { r with bufs := r.bufs ++ [buf] } =
      (r.log.accepted ++ [buf]).flatMap r.text
    have more : unsent { r with bufs := r.bufs ++ [buf] } = r.unsent ++ r.text buf := by
      unfold unsent
      cases sends : r.sending with
      | none =>
        show (r.bufs ++ [buf]).flatMap r.text = _
        rw [List.flatMap_append, List.flatMap_singleton]
      | some s =>
        obtain ⟨some, rest, rfl⟩ := flows.stream sends
        show rest ++ (r.bufs ++ [buf]).tail.flatMap r.text = _
        rw [List.tail_append_of_ne_nil some, List.flatMap_append, List.flatMap_singleton,
          List.append_assoc]
    rw [more, ← List.append_assoc, bytes, List.flatMap_append, List.flatMap_singleton]
  | @stopTask inbox _ =>
    rcases stopTask_cases { r with inbox } with ⟨_, isStopped⟩ | ⟨bound, isStopped⟩ <;>
      rw [isStopped] <;> exact same ⟨rfl, rfl, rfl, rfl, rfl⟩
  | startSend _ init loop =>
    refine .inl (loop.flows raw (starts.ready init).2 ?_)
    exact flows.of_same ⟨rfl, rfl, rfl, rfl, rfl⟩
  | @take count rest sending _ _ within =>
    left
    have bytes := flows.bytes
    refine ⟨?_, fun {s} sends => ?_⟩
    · unfold unsent at bytes ⊢
      rw [sending] at bytes
      show (r.log.written ++ rest.take count) ++ (rest.drop count ++ r.bufs.tail.flatMap r.text) =
        r.log.accepted.flatMap r.text
      rw [← bytes, List.append_assoc, ← List.append_assoc (rest.take count), List.take_append_drop]
    · cases sends
      exact ⟨(flows.stream sending).1, _, rfl⟩
  | sent sending loop =>
    have stream : r.sending = some (.stream []) := by
      rcases sending with stream | ⟨dst, window, datagram⟩
      · exact stream
      · obtain ⟨_, rest, other⟩ := flows.stream datagram
        cases other
    refine .inl (loop.flows raw rfl ⟨?_, nofun⟩)
    have bytes := flows.bytes
    unfold unsent at bytes ⊢
    rw [stream] at bytes
    exact bytes
  | sendError sends =>
    obtain ⟨stuck, kind, written, _, accepted⟩ := starts.fail sends
    refine .inr (stuck.frozen ?_)
    obtain ⟨later, pushed⟩ := accepted
    rw [written, text_eq kind, ← pushed, List.flatMap_append, ← flows.bytes, List.append_assoc]
    exact List.prefix_append _ _
  | transmit sending =>
    obtain ⟨_, rest, other⟩ := flows.stream sending
    cases other
  | readThrew | readError | startupThrew | requestBad | directFailed =>
    exact stop ⟨rfl, rfl, rfl, rfl, rfl⟩
  | _ => exact same ⟨rfl, rfl, rfl, rfl, rfl⟩

theorem Born.flows (born : r.Born) : Flows r := by
  have log := born.log
  refine ⟨?_, fun sends => ?_⟩
  · unfold unsent
    rw [born.sending, born.bufs, log]
    rfl
  · rw [born.sending] at sends
    cases sends

/-- A call of the manager leaves a stuck queue as it is. -/
theorem Calls.stuck {c : RelayCall} (called : Calls r c r') (proper : r.Proper (.call c))
    (stuck : Stuck r) : Stuck r' ∧ Idles r r' := by
  have same {a : Relay} (early : a.Early → r.Early) (isState : a.state = r.state)
      (kind : a.kind = r.kind) (sending : a.sending = r.sending)
      (log : a.log.written = r.log.written ∧ a.log.passed = r.log.passed)
      (accepted : a.log.accepted = r.log.accepted) : Stuck a ∧ Idles r a :=
    ⟨stuck.keep early isState kind sending, kind, log.1, log.2, accepted ▸ List.prefix_refl _⟩
  have posted (task : RelayTask) (other : .startInit ≠ task) {a : Relay}
      (inbox : a.inbox = r.inbox ++ [task]) (startup : a.startup = r.startup) (isEarly : a.Early) :
      r.Early := by
    unfold Early at isEarly ⊢
    rw [inbox, startup] at isEarly
    refine isEarly.imp (fun there => ?_) id
    rcases List.mem_append.mp there with old | new
    · exact old
    · exact absurd (List.mem_singleton.mp new) other
  -- the relay of a first call has sent nothing
  have fresh (state : r.state = .uninit) : False := by
    rcases stuck.state with stopped | ⟨_, start⟩
    · exact absurd (state.symm.trans stopped) nofun
    · exact absurd (state.symm.trans start) nofun
  cases called with
  | @sendData buf =>
    exact same (posted (.sendData buf) nofun rfl rfl) rfl rfl rfl ⟨rfl, rfl⟩ rfl
  | stopRaw =>
    exact same (posted .stopRelay nofun rfl rfl) rfl rfl rfl ⟨rfl, rfl⟩ rfl
  | @addPeer s peer =>
    exact same (posted (.addPeer s peer) nofun rfl rfl) rfl rfl rfl ⟨rfl, rfl⟩ rfl
  | @delPeer s =>
    exact same (posted (.delPeer s) nofun rfl rfl) rfl rfl rfl ⟨rfl, rfl⟩ rfl
  | stopSsl | count | emit => exact same id rfl rfl rfl ⟨rfl, rfl⟩ rfl
  | begin => exact (fresh proper.2.state).elim
  | startRead => exact (fresh proper.2.2.1.state).elim
  | startUdpRemote | startUdpLocal => exact (fresh proper.2.state).elim

theorem Calls.flows {c : RelayCall} (called : Calls r c r') (proper : r.Proper (.call c))
    (sends : Flows r ∨ Frozen r) : Flows r' ∨ Frozen r' := by
  rcases sends with flows | frozen
  · have same {a : Relay} (queue : SameQueue r a) : Flows a ∨ Frozen a := .inl (flows.of_same queue)
    cases called <;> exact same ⟨rfl, rfl, rfl, rfl, rfl⟩
  · obtain ⟨stuck, idles⟩ := called.stuck proper frozen.stuck
    exact .inr (frozen.idles stuck idles)

/-- **The bytes of a stream**, at any time of the life of its relay: the queue flows,
or a send has failed. -/
theorem Lives.flows (lives : r.Lives) (stream : r.kind ≠ .rawUdp) : Flows r ∨ Frozen r := by
  revert stream
  refine lives.invariant (P := fun r => r.kind ≠ .rawUdp → Flows r ∨ Frozen r)
    (fun born _ => .inl born.flows) (fun {r c r'} _ sends proper called raw => ?_)
    fun {r alive ev r' outs} lives sends handled raw => ?_
  · refine called.flows proper (sends ?_)
    cases called <;> exact raw
  · have before : r.kind ≠ .rawUdp := handled.sameCalls.kind ▸ raw
    have next : Flows r' ∨ Frozen r' := by
      rcases sends before with flows | frozen
      · exact handled.flows lives.startsOnce before flows
      · obtain ⟨stuck, idles⟩ := handled.stuck frozen.stuck
        exact .inr (frozen.idles stuck idles)
    rcases next with flows | ⟨state, sending, late, written⟩
    · exact .inl (flows.of_same ⟨rfl, rfl, rfl, rfl, rfl⟩)
    · exact .inr ⟨state, sending, late, written⟩

/-- **What the stream took is a prefix of what was pushed.** -/
theorem Lives.written_pushed (lives : r.Lives) (stream : r.kind ≠ .rawUdp) :
    r.log.written <+: r.log.accepted.flatMap r.text := by
  rcases lives.flows stream with flows | frozen
  · exact ⟨r.unsent, flows.bytes⟩
  · exact frozen.written

end Relay

end SslSocks
