import SslSocks.NodeLedger
import SslSocks.ReadLoops
import SslSocks.RelayAsks
import SslSocks.SendOnce
import SslSocks.SendOrder

/-!
# The UDP payload window

`udp_data_buffer()` is the part of `_data` behind the place of the address; its length is
`_len-19`, which wraps for a shorter message. A message for a raw_udp comes from the ssl
connection, whose read loop tests the upper bound only. `udpWindows_valid` shows that the
window is right in every run in which the ssl connection brings no short `DATA_UDP`, and
which of the producers on the other end may make one.
-/

namespace SslSocks

open Lib

namespace Relay

variable {r r' : Relay} {alive : Bool} {ev : RelayEvent} {outs : List RelayOut}

/-! ## What a raw_udp passes on and what it asks -/

/-- The queue holds messages of the manager only. -/
structure FromManager (r : Relay) : Prop where
  pushed : ∀ buf ∈ r.log.accepted, buf ∈ r.log.given
  posted : ∀ {buf}, .sendData buf ∈ r.inbox → buf ∈ r.log.given

theorem FromManager.of_same (sound : FromManager r) (accepted : r'.log.accepted = r.log.accepted)
    (given : r'.log.given = r.log.given)
    (posted : ∀ {buf}, .sendData buf ∈ r'.inbox → .sendData buf ∈ r.inbox) : FromManager r' := by
  refine ⟨fun buf member => ?_, fun there => ?_⟩
  · rw [accepted] at member
    rw [given]
    exact sound.pushed buf member
  · rw [given]
    exact sound.posted (posted there)

theorem Handles.fromManager (handled : Handles alive r ev r' outs) (sound : FromManager r) :
    FromManager r' := by
  have given := handled.sameCalls.given
  have popped {task : RelayTask} {inbox : List RelayTask} (queue : r.inbox = task :: inbox)
      {buf : Frame} (there : .sendData buf ∈ inbox) : .sendData buf ∈ r.inbox :=
    queue ▸ List.mem_cons_of_mem _ there
  have stop {a : Relay} (accepted : a.log.accepted = r.log.accepted) (inbox : a.inbox = r.inbox)
      (given : a.stopHere.log.given = r.log.given) : FromManager a.stopHere := by
    refine sound.of_same ((sameQueue_stopHere a).accepted.trans accepted) given fun there => ?_
    rwa [(keepsStartup_stopHere a).inbox, inbox] at there
  cases handled with
  | dropped queue | startInit queue | addPeer queue | delPeer queue =>
    exact sound.of_same rfl rfl (popped queue)
  | @pushed buf inbox queue _ =>
    refine ⟨fun f member => ?_, fun there => sound.posted (popped queue there)⟩
    rcases List.mem_append.mp member with old | new
    · exact sound.pushed f old
    · rw [List.mem_singleton.mp new]
      exact sound.posted (queue ▸ List.mem_cons_self)
  | @stopTask inbox queue =>
    rcases stopTask_cases { r with inbox } with ⟨_, same⟩ | ⟨bound, same⟩ <;> rw [same] <;>
      exact sound.of_same rfl rfl (popped queue)
  | startSend _ _ loop | sent _ loop =>
    refine sound.of_same loop.accepted given fun there => ?_
    rwa [loop.keepsStartup.inbox] at there
  | sendError | readThrew | readError | startupThrew | requestBad | directFailed =>
    exact stop rfl rfl given
  | _ => exact sound.of_same rfl rfl id

theorem Calls.fromManager {c : RelayCall} (called : Calls r c r') (sound : FromManager r) :
    FromManager r' := by
  have post (task : RelayTask) (other : ∀ buf, task ≠ .sendData buf) {buf : Frame}
      (there : .sendData buf ∈ r.inbox ++ [task]) : .sendData buf ∈ r.inbox := by
    rcases List.mem_append.mp there with old | new
    · exact old
    · exact absurd (List.mem_singleton.mp new).symm (other buf)
  cases called with
  | @sendData buf =>
    refine ⟨fun f member => List.mem_append_left _ (sound.pushed f member), fun {f} there => ?_⟩
    rcases List.mem_append.mp there with old | new
    · exact List.mem_append_left _ (sound.posted old)
    · cases List.mem_singleton.mp new
      exact List.mem_append_right _ List.mem_cons_self
  | stopRaw => exact sound.of_same rfl rfl (post .stopRelay nofun)
  | @addPeer s peer => exact sound.of_same rfl rfl (post (.addPeer s peer) nofun)
  | @delPeer s => exact sound.of_same rfl rfl (post (.delPeer s) nofun)
  | startRead | startUdpRemote | startUdpLocal =>
    exact sound.of_same rfl rfl (post .startInit nofun)
  | _ => exact sound.of_same rfl rfl id

theorem Lives.fromManager (lives : r.Lives) : FromManager r := by
  refine lives.invariant (fun born => ?_) (fun _ sound _ called => called.fromManager sound)
    fun _ sound handled => (handled.fromManager sound).of_same rfl rfl id
  refine ⟨fun buf member => ?_, fun there => ?_⟩
  · rw [born.log] at member
    cases member
  · rw [born.inbox] at there
    cases there

/-- What was passed to `internal_send_data` was given by the manager. -/
theorem Lives.passed_given (lives : r.Lives) {buf : Frame} (passed : buf ∈ r.log.passed) :
    buf ∈ r.log.given :=
  lives.fromManager.pushed buf (lives.placed.begins.subset passed)

/-- Only an ssl relay delivers. -/
theorem Lives.delivered_ssl (lives : r.Lives) {buf : Frame} (delivered : buf ∈ r.log.delivered) :
    r.kind = .ssl := by
  revert delivered
  refine lives.invariant (P := fun r => buf ∈ r.log.delivered → r.kind = .ssl)
    (fun born member => ?_) (fun _ ssl _ called member => ?_) fun {r alive ev r' outs} _ ssl handled member => ?_
  · rw [born.log] at member
    cases member
  · cases called <;> exact ssl member
  · have kind := handled.sameCalls.kind
    rcases List.mem_append.mp member with old | new
    · rw [handled.notes.2] at old
      exact kind.trans (ssl old)
    · refine kind.trans ?_
      obtain ⟨out, asked, is⟩ := List.mem_filterMap.mp new
      have farewell {out : RelayOut} (told : out ∈ r.farewell alive) : out.asResponse = none := by
        unfold Relay.farewell at told
        split at told
        · rw [List.mem_singleton.mp told]
          rfl
        · cases told
      cases handled with
      | readMessage _ _ isSsl => exact isSsl
      | readError | startupThrew | requestBad | directFailed =>
        rw [farewell asked] at is
        cases is
      | _ => simp_all [RelayOut.asResponse]

/-- What a raw_udp asks carries a whole address prefix. -/
theorem Lives.asks_prefixed (lives : r.Lives) (udp : r.kind = .rawUdp) :
    ∀ buf ∈ r.log.emitted, udpOffset ≤ buf.payload.length := by
  revert udp
  refine lives.invariant (P := fun r => r.kind = .rawUdp →
    ∀ buf ∈ r.log.emitted, udpOffset ≤ buf.payload.length) (fun born _ buf member => ?_)
    (fun _ sound proper called udp => ?_) fun {r alive ev r' outs} lives sound handled udp => ?_
  · rw [born.log] at member
    cases member
  · cases called with
    | emit => exact absurd (proper.1.symm.trans udp) nofun
    | _ => exact sound udp
  · have isUdp : r.kind = .rawUdp := handled.sameCalls.kind.symm.trans udp
    have raw : r.kind ≠ .rawTcp := isUdp ▸ nofun
    intro buf member
    rcases List.mem_append.mp member with old | new
    · rw [handled.notes.1] at old
      exact sound isUdp buf old
    · obtain ⟨out, asked, is⟩ := List.mem_filterMap.mp new
      have farewell : r.farewell alive = [] := if_neg fun both => raw both.1
      cases handled with
      | readDatagram =>
        rw [List.mem_singleton.mp asked] at is
        cases is
        have head := length_udpHead
        rw [List.length_append, head]
        omega
      | readRaw arrived => exact absurd isUdp (lives.kindOk.stream arrived).1
      | requestBlocked startup =>
        have isLocal := lives.kindOk.localServer (by rw [startup]; decide)
        exact absurd isLocal.1 raw
      | readError | startupThrew | requestBad | directFailed =>
        rw [farewell] at asked
        cases asked
      | _ => simp_all [RelayOut.asRequest]

end Relay

/-! ## The ssl connection as a producer -/

namespace Node

variable {n m : Node}

/-- The handler is not that of a short `DATA_UDP`, where one goes to a raw_udp. -/
def WindowsMeetTask (n : Node) : ManagerTask → Prop
  | .addResponse _ buf =>
    n.type ≠ .localServer → buf.cmd = .dataUdp → udpOffset ≤ buf.payload.length
  | _ => True

instance (n : Node) : (task : ManagerTask) → Decidable (n.WindowsMeetTask task)
  | .addResponse _ _ => inferInstanceAs (Decidable (_ → _ → _))
  | .addRequest _ _ | .addLocalRawTcp _ | .sendUdpData _ _ => isTrue trivial

/-- The condition on a step. -/
def WindowsMeet (n : Node) : NodeAction → Prop
  | .manager _ => ∀ task ∈ n.strand.head?, n.WindowsMeetTask task
  | _ => True

instance (n : Node) : (a : NodeAction) → Decidable (n.WindowsMeet a)
  | .manager _ => inferInstanceAs (Decidable (∀ task ∈ n.strand.head?, n.WindowsMeetTask task))
  | .accept _ | .udpPacket _ _ _ | .tick | .release | .relay _ _ => isTrue trivial

/-- No response was handled. -/
structure SameAnswers (n m : Node) : Prop where
  type : m.type = n.type
  answered : m.answered = n.answered

theorem SameWork.answers (same : SameWork n m) : SameAnswers n m := ⟨same.type, same.answered⟩

theorem SameAnswers.trans {k : Node} (first : SameAnswers n m) (second : SameAnswers m k) :
    SameAnswers n k :=
  ⟨second.type.trans first.type, second.answered.trans first.answered⟩

/-- A step notes at most the response it is the handler of. -/
theorem answers_step {a : NodeAction} (stepped : n.step a = some m) :
    SameAnswers n m ∨ ∃ throws k buf strand, a = .manager throws ∧
      n.strand = .addResponse k buf :: strand ∧
      SameAnswers { n with answered := n.answered ++ [(k, buf)] } m := by
  cases stepIs_of_step stepped with
  | accept _ | udpPacket _ | release _ | relay _ _ => exact .inl ⟨rfl, rfl⟩
  | tick _ => exact .inl (work_tick n).answers
  | @manager throws task strand queue =>
    have popped : SameAnswers n { n with strand } := ⟨rfl, rfl⟩
    cases task with
    | addRequest relay buf =>
      have same := quiet_addRequest { n with strand } throws.newSsl (some relay) buf
      exact .inl (popped.trans same.work.answers)
    | addResponse k buf =>
      have same := work_addResponse { n with strand } throws k buf
      exact .inr ⟨throws, k, buf, strand, rfl, queue, same.type, same.answered⟩
    | addLocalRawTcp relay =>
      have same := work_addLocalRawTcp { n with strand } throws relay
      exact .inl (popped.trans same.answers)
    | sendUdpData src buf =>
      have same := work_sendUdpData { n with strand } throws src buf
      exact .inl (popped.trans same.answers)

/-- Under the condition no short `DATA_UDP` was handled. -/
theorem answered_prefixed {n₀ : Node} (start : n₀.answered = [])
    (run : Reach step WindowsMeet n₀ n) {k : RelayId} {buf : Frame} (there : (k, buf) ∈ n.answered)
    (raw : n.type ≠ .localServer) (data : buf.cmd = .dataUdp) :
    udpOffset ≤ buf.payload.length := by
  revert there raw
  refine run.invariant (P := fun n => (k, buf) ∈ n.answered → n.type ≠ .localServer →
    udpOffset ≤ buf.payload.length) (fun there => ?_) fun {t a t'} _ holds meets stepped there raw => ?_
  · rw [start] at there
    cases there
  · rcases answers_step stepped with same | ⟨throws, k', buf', strand, rfl, queue, type, more⟩
    · rw [same.answered] at there
      exact holds there (same.type ▸ raw)
    · rw [more] at there
      replace raw : t.type ≠ .localServer := type ▸ raw
      rcases List.mem_append.mp there with old | new
      · exact holds old raw
      · cases List.mem_singleton.mp new
        exact meets (.addResponse k buf) (by rw [queue]; rfl) raw data

/-! ## The messages of a raw_udp -/

/-- The `DATA_UDP` messages of a raw_udp came from the ssl connection. -/
def Sourced (n : Node) : Prop :=
  ∀ r, (n.objs r).kind = .rawUdp → ∀ buf ∈ n.givenTo r, buf.cmd = .dataUdp →
    n.type ≠ .localServer ∧ ∃ k, (k, buf) ∈ n.answered

/-- A new relay was given nothing, the others are of the kind they were. -/
theorem Sourced.keep (sourced : Sourced n) (ledger : n.Ledger) (type : m.type = n.type)
    (answered : n.answered ⊆ m.answered)
    (kind : ∀ {r}, r < n.next → (m.objs r).kind = (n.objs r).kind) {r : RelayId}
    (udp : (m.objs r).kind = .rawUdp) {buf : Frame} (given : buf ∈ n.givenTo r)
    (data : buf.cmd = .dataUdp) : m.type ≠ .localServer ∧ ∃ k, (k, buf) ∈ m.answered := by
  rcases Nat.lt_or_ge r n.next with old | new
  · obtain ⟨raw, k, there⟩ := sourced r ((kind old).symm.trans udp) buf given data
    exact ⟨type ▸ raw, k, answered there⟩
  · rw [givenTo, ledger.fresh r new] at given
    cases given

theorem sourced_part (wf : WellFormed n) (ledger : n.Ledger) (sourced : Sourced n)
    (part : Part n m) : Sourced m := by
  obtain ⟨type, _, _, noted, _⟩ := grows_part part
  have answered := noted.subset
  intro r udp buf given data
  have kept (old : buf ∈ n.givenTo r) :=
    sourced.keep ledger type answered (kind_part part) udp old data
  cases gives_part wf ledger part (r := r) (udp ▸ nofun) with
  | nothing same => exact kept (same ▸ given)
  | @data k buf' _ isTcp _ _ more =>
    rw [more] at given
    rcases List.mem_append.mp given with old | new
    · exact kept old
    · rw [List.mem_singleton.mp new, isTcp] at data
      cases data
  | @datagram buf' _ side answering _ same more =>
    rw [more] at given
    rcases List.mem_append.mp given with old | new
    · exact kept old
    · obtain ⟨k, last⟩ := answering
      rw [List.mem_singleton.mp new, type]
      refine ⟨fun isLocal => ?_, k, answered (List.mem_of_getLast? last)⟩
      rcases side with ⟨remote, _⟩ | ⟨transparent, _⟩
      · exact absurd (remote.symm.trans isLocal) (by decide)
      · exact absurd (transparent.symm.trans isLocal) (by decide)

theorem sourced_reach {C : Node → NodeAction → Prop} {n₀ : Node} (wf : WellFormed n₀)
    (ledger : n₀.Ledger) (sourced : Sourced n₀) (run : Reach step C n₀ n) : Sourced n := by
  suffices both : n.Ledger ∧ Sourced n from both.2
  refine parts_rule (P := fun n => n.Ledger ∧ Sourced n) wf run ⟨ledger, sourced⟩
    (fun wf both part => ?_) (fun wf both part => ?_) fun _ both _ outside => ?_
  · exact ⟨ledger_part wf both.1 part, sourced_part wf both.1 both.2 part⟩
  · refine ⟨ledger_udpPart wf both.1 part, fun r udp buf given data => ?_⟩
    rw [givenTo_udpPart both.1 part] at given
    have grows := grows_udpPart part
    exact both.2.keep both.1 grows.type grows.answered.subset (kind_udpPart part) udp given data
  · refine ⟨ledger_outside both.1 outside, fun r udp buf given data => ?_⟩
    rw [givenTo_outside both.1 outside] at given
    have grows := grows_outside outside
    exact both.2.keep both.1 grows.type grows.answered.subset (kind_outside outside) udp given data

/-- What `add_response` handled was delivered by an ssl relay. -/
theorem delivered_of_answered (ledger : n.Ledger) (live : RelaysLive n) {k : RelayId} {buf : Frame}
    (there : (k, buf) ∈ n.answered) :
    k < n.next ∧ (n.objs k).kind = .ssl ∧ buf ∈ (n.objs k).log.delivered := by
  have answer : buf ∈ n.answersOf k := List.mem_filterMap.mpr ⟨(k, buf), there, if_pos rfl⟩
  have delivered : buf ∈ (n.objs k).log.delivered := by
    rw [← ledger.answered k]
    exact List.mem_append_left _ answer
  have known : k < n.next := by
    by_contra new
    rw [ledger.fresh k (Nat.le_of_not_lt new)] at delivered
    cases delivered
  exact ⟨known, (live k known).delivered_ssl delivered, delivered⟩

/-- What was handled fits `_data`. -/
theorem answered_fits (ledger : n.Ledger) (live : RelaysLive n) {k : RelayId} {buf : Frame}
    (there : (k, buf) ∈ n.answered) : buf.Fits := by
  obtain ⟨known, ssl, delivered⟩ := delivered_of_answered ledger live there
  exact ((live k known).sslReads ssl).fits buf delivered

theorem Starts.sourced (starts : Starts n) : Sourced n := by
  cases starts <;> exact fun _ _ _ given => absurd given List.not_mem_nil

/-- **The UDP payload window is valid** in every state reached by steps that meet the
condition, for every message passed to `internal_send_data` of a raw_udp. Of the other
producers only a failed `recvmsg` makes a short message. -/
theorem udpWindows_valid {n₀ : Node} (starts : Starts n₀) (run : Reach step WindowsMeet n₀ n) :
    (∀ r, r < n.next → (n.objs r).kind = .rawUdp →
      (∀ buf ∈ (n.objs r).log.passed, buf.cmd = .dataUdp →
        udpOffset ≤ buf.payload.length ∧ buf.payload.length ≤ readBufferSize) ∧
      ∀ buf ∈ (n.objs r).log.emitted,
        udpOffset ≤ buf.payload.length ∧ buf.payload.length ≤ readBufferSize) ∧
    ∀ dst received, (transparentUdpRecvOn dst received).payload.length ≤ readBufferSize ∧
      (udpOffset ≤ (transparentUdpRecvOn dst received).payload.length ↔ received ≠ none) := by
  obtain ⟨_, ledger, live⟩ := starts.sound run
  have sourced := sourced_reach starts.wellFormed starts.ledger starts.sourced run
  have none : n₀.answered = [] := by cases starts <;> rfl
  refine ⟨fun r known udp => ⟨fun buf passed data => ?_, fun buf asked => ?_⟩,
    fun dst received => ⟨fits_transparentUdpRecvOn dst received, ?_⟩⟩
  · have given := (live r known).passed_given passed
    obtain ⟨raw, k, there⟩ := sourced r udp buf given data
    exact ⟨answered_prefixed none run there raw data, answered_fits ledger live there⟩
  · have lives := live r known
    exact ⟨lives.asks_prefixed udp buf asked, (lives.asks.own buf asked).2⟩
  · have head := length_udpHead dst
    unfold transparentUdpRecvOn
    cases received with
    | some data =>
      refine iff_of_true ?_ nofun
      show udpOffset ≤ (udpHead dst ++ _).length
      rw [List.length_append]
      omega
    | none =>
      refine iff_of_false ?_ fun some => some rfl
      show ¬ udpOffset ≤ ((udpHead dst).take (udpOffset - 1)).length
      rw [List.length_take, head]
      decide

/-- The message of a datagram that `recvmsg` did not return. -/
def shortDatagram : Frame :=
  { transparentUdpRecvOn (some (.ipv4 8 8 8 8 53)) none with session := 2 }

/-- The ssl connection brings the message, and the raw_udp made for it starts to send. -/
def bringDatagram (buf : Frame) : List NodeAction :=
  [.relay 0 (.startup true), .relay 0 (.arrive (.stream buf.head.bytes)), .relay 0 .read,
    .relay 0 (.arrive (.stream buf.payload)), .relay 0 .read, .manager {}, .relay 1 .task,
    .relay 1 .task, .relay 1 (.startSend 5)]

/-- A whole datagram. -/
theorem udpWindows_valid_datagram :
    ∃ n, Reachable step initRemote n ∧ (n.objs 1).log.passed.length = 1 ∧
      ∀ buf ∈ (n.objs 1).log.passed, buf.cmd = .dataUdp →
        udpOffset ≤ buf.payload.length ∧ buf.payload.length ≤ readBufferSize := by
  have run := @Reach.of_isSome _ _ step WindowsMeet initRemote _
    (bringDatagram ⟨2, .dataUdp, udpHead (some ⟨.v4 #v[8, 8, 8, 8], 53⟩) ++ [7]⟩) (by decide +kernel)
  exact ⟨_, run.reachable, by decide +kernel,
    ((udpWindows_valid .remote run).1 1 (by decide +kernel) (by decide +kernel)).1⟩

/-- **A failed `recvmsg` becomes a window that wraps**: its message is accepted from the
ssl connection and passed to `internal_send_data`. -/
theorem udpWindows_short :
    ∃ n, Reachable step initRemote n ∧ (n.objs 1).kind = .rawUdp ∧
      (n.objs 1).log.passed = [shortDatagram] ∧ shortDatagram.cmd = .dataUdp ∧
      shortDatagram.payload.length = 18 ∧ udpWindow shortDatagram = none := by
  exact ⟨_, .of_isSome (bringDatagram shortDatagram) (by decide +kernel), by decide +kernel,
    by decide +kernel, by decide, by decide, by decide⟩

end Node

end SslSocks
