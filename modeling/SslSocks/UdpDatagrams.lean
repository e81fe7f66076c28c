import SslSocks.RelayStop
import SslSocks.SendOnce

/-!
# The datagrams of a raw_udp

A raw_udp passes its messages to `internal_send_data` one after another, and each goes as one
datagram or not at all. `Targets T` says where the datagram that waits goes, and `Datagrams R`
that those sent are, in order, some of the messages passed, each in the relation `R` to its
message. `Lives.datagrams` has their payloads and, on the remote side, their addresses.
-/

namespace SslSocks

open Lib

/-- A datagram that was sent: from, to, payload. -/
abbrev Datagram := Option Endpoint × Endpoint × List UInt8

/-- The message goes as this datagram: its payload and, on the remote side, its address. -/
def Frame.Goes (type : ServerType) (datagram : Datagram) (buf : Frame) : Prop :=
  udpWindow buf = some datagram.2.2 ∧
    (type = .remoteServer → datagram.2.1 = getDataAddr buf.payload)

namespace Relay

variable {r r' : Relay} {alive : Bool} {ev : RelayEvent} {outs : List RelayOut}
variable {T : Endpoint → Frame → Prop} {R : Datagram → Frame → Prop}

/-! ## Where the datagram that waits goes -/

/-- It goes where the last message passed says. -/
def Targets (T : Endpoint → Frame → Prop) (r : Relay) : Prop :=
  ∀ dst window, r.sending = some (.datagram dst window false) →
    ∃ buf, r.log.passed.getLast? = some buf ∧ T dst buf

/-- The address that `get_send_data_addr` finds for a message. -/
def Aims (T : Endpoint → Frame → Prop) (r : Relay) : Prop :=
  ∀ {t t' : Relay} {buf : Frame} {done : Nat} {dst : Endpoint},
    t.getSendDataAddr buf done = .ok (t', dst) → t.type = r.type → t.udp = r.udp → T dst buf

theorem Targets.of_same (targets : Targets T r) (sending : r'.sending = r.sending)
    (passed : r'.log.passed = r.log.passed) : Targets T r' := by
  intro dst window waits
  rw [passed]
  exact targets dst window (sending ▸ waits)

theorem Targets.stopHere (targets : Targets T r) : Targets T r.stopHere := by
  rcases stopHere_cases r with ⟨_, same⟩ | ⟨_, ⟨_, same⟩ | ⟨bound, same⟩⟩ <;> rw [same] <;>
    exact targets.of_same rfl rfl

theorem targets_idle (idle : ∀ {dst window}, r.sending ≠ some (.datagram dst window false)) :
    Targets T r := fun _ _ waits => absurd waits idle

theorem SendLoop.targets (loop : SendLoop r r') (none : r.sending = none) (aims : Aims T r) :
    Targets T r' := by
  have idle {t : Relay} (same : t.sending = r.sending) : Targets T t :=
    targets_idle fun {_ _} waits => nomatch none.symm.trans (same.symm.trans waits)
  cases loop with
  | empty | stopped => exact idle rfl
  | stream => exact targets_idle fun {_ _} waits => nomatch waits
  | @datagram buf rest udp sock dst _ _ _ _ _ found =>
    obtain ⟨done, found⟩ := found
    intro _ _ waits
    cases waits
    exact ⟨buf, List.getLast?_concat, aims found rfl rfl⟩
  | threw => exact Targets.stopHere (idle rfl)

theorem Handles.targets (handled : Handles alive r ev r' outs) (targets : Targets T r)
    (aims : Aims T r) (starts : StartsOnce r) : Targets T r' := by
  cases handled with
  | @stopTask inbox _ =>
    rcases stopTask_cases { r with inbox } with ⟨_, same⟩ | ⟨bound, same⟩ <;> rw [same] <;>
      exact targets.of_same rfl rfl
  | startSend _ init loop => exact loop.targets (starts.ready init).2 aims
  | sent _ loop => exact loop.targets rfl aims
  | take | transmit => exact targets_idle fun {_ _} waits => nomatch waits
  | sendError =>
    have ended : Targets T { r with sending := none } :=
      targets_idle fun {_ _} waits => nomatch waits
    exact ended.stopHere
  | readThrew | readError | startupThrew | requestBad | directFailed =>
    exact Targets.stopHere (targets.of_same rfl rfl)
  | _ => exact targets.of_same rfl rfl

theorem Calls.targets {c : RelayCall} (called : Calls r c r') (targets : Targets T r) :
    Targets T r' := by
  cases called <;> exact targets.of_same rfl rfl

/-! ## What was sent -/

/-- The datagrams sent are some of the messages passed; the one that waits is the last, and the
others came before it. -/
structure Datagrams (R : Datagram → Frame → Prop) (r : Relay) : Prop where
  sent : List.SublistForall₂ R r.log.sent r.log.passed
  waiting : ∀ dst window, r.sending = some (.datagram dst window false) →
    ∃ front buf, r.log.passed = front ++ [buf] ∧ window = udpWindow buf ∧
      List.SublistForall₂ R r.log.sent front

/-- The datagram that waits may go as its message says. -/
def Sound (R : Datagram → Frame → Prop) (r : Relay) : Prop :=
  ∀ dst window buf, r.sending = some (.datagram dst (some window) false) → r.sock →
    r.log.passed.getLast? = some buf → udpWindow buf = some window →
    R (r.udp.bound, dst, window) buf

theorem Datagrams.of_same (datagrams : Datagrams R r)
    (sending : r'.sending = r.sending ∨ r'.sending = none) (passed : r'.log.passed = r.log.passed)
    (sent : r'.log.sent = r.log.sent) : Datagrams R r' := by
  refine ⟨?_, fun dst window waits => ?_⟩ <;> rw [passed, sent]
  · exact datagrams.sent
  · rcases sending with same | none
    · exact datagrams.waiting dst window (same ▸ waits)
    · cases none.symm.trans waits

theorem Datagrams.mono {R' : Datagram → Frame → Prop} (datagrams : Datagrams R r)
    (weaker : ∀ {datagram buf}, R datagram buf → R' datagram buf) : Datagrams R' r := by
  have all {sent : List Datagram} {bufs : List Frame} (some : List.SublistForall₂ R sent bufs) :
      List.SublistForall₂ R' sent bufs := by
    obtain ⟨took, pairs, fewer⟩ := List.sublistForall₂_iff.mp some
    exact List.sublistForall₂_iff.mpr ⟨took, pairs.imp fun _ _ => weaker, fewer⟩
  refine ⟨all datagrams.sent, fun dst window waits => ?_⟩
  obtain ⟨front, buf, passed, isWindow, before⟩ := datagrams.waiting dst window waits
  exact ⟨front, buf, passed, isWindow, all before⟩

theorem Datagrams.stopHere (datagrams : Datagrams R r) : Datagrams R r.stopHere := by
  rcases stopHere_cases r with ⟨_, same⟩ | ⟨_, ⟨_, same⟩ | ⟨bound, same⟩⟩ <;> rw [same] <;>
    exact datagrams.of_same (.inl rfl) rfl rfl

/-- Another message is passed. -/
theorem Datagrams.pass (datagrams : Datagrams R r) {buf : Frame}
    (passed : r'.log.passed = r.log.passed ++ [buf]) (sent : r'.log.sent = r.log.sent)
    (waiting : ∀ dst window, r'.sending = some (.datagram dst window false) →
      window = udpWindow buf) : Datagrams R r' := by
  refine ⟨?_, fun dst window waits => ?_⟩ <;> rw [passed, sent]
  · rw [List.sublistForall₂_iff]
    obtain ⟨took, pairs, fewer⟩ := List.sublistForall₂_iff.mp datagrams.sent
    exact ⟨took, pairs, fewer.trans (List.sublist_append_left _ _)⟩
  · exact ⟨r.log.passed, buf, rfl, waiting dst window waits, datagrams.sent⟩

theorem SendLoop.datagrams (loop : SendLoop r r') (datagrams : Datagrams R r)
    (none : r.sending = none) : Datagrams R r' := by
  cases loop with
  | empty | stopped => exact datagrams.of_same (.inl rfl) rfl rfl
  | stream => exact datagrams.pass rfl rfl fun _ _ waits => nomatch waits
  | datagram udp sock dst =>
    refine datagrams.pass rfl rfl fun _ _ waits => ?_
    cases waits
    rfl
  | @threw buf rest udp sock =>
    have passed : Datagrams R { r with
        timeout := timeoutTicks
        sock
        udp
        log.passed := r.log.passed ++ [buf] } :=
      datagrams.pass rfl rfl fun _ _ waits => nomatch none.symm.trans waits
    exact passed.stopHere

/-- **One handler** of a raw_udp. -/
theorem Handles.datagrams (handled : Handles alive r ev r' outs) (datagrams : Datagrams R r)
    (sound : Sound R r) (starts : StartsOnce r) : Datagrams R r' := by
  cases handled with
  | @stopTask inbox _ =>
    rcases stopTask_cases { r with inbox } with ⟨_, same⟩ | ⟨bound, same⟩ <;> rw [same] <;>
      exact datagrams.of_same (.inl rfl) rfl rfl
  | startSend _ init loop =>
    have begun : Datagrams R { r with activations := r.activations - 1, state := .start } :=
      datagrams.of_same (.inl rfl) rfl rfl
    exact loop.datagrams begun (starts.ready init).2
  | sent _ loop =>
    have ended : Datagrams R { r with sending := none, bufs := r.bufs.tail } :=
      datagrams.of_same (.inr rfl) rfl rfl
    exact loop.datagrams ended rfl
  | take => exact ⟨datagrams.sent, fun _ _ waits => nomatch waits⟩
  | @transmit dst window waits sock =>
    obtain ⟨front, buf, passed, isWindow, before⟩ := datagrams.waiting _ _ waits
    refine ⟨?_, fun _ _ waits => nomatch waits⟩
    obtain ⟨took, pairs, fewer⟩ := List.sublistForall₂_iff.mp before
    have last : r.log.passed.getLast? = some buf := by rw [passed, List.getLast?_concat]
    show List.SublistForall₂ R (r.log.sent ++ [(r.udp.bound, dst, window)]) r.log.passed
    rw [List.sublistForall₂_iff, passed]
    refine ⟨took ++ [buf], ?_, fewer.append_right [buf]⟩
    apply List.rel_append pairs
    exact .cons (sound dst window buf waits sock last isWindow.symm) .nil
  | sendError =>
    have ended : Datagrams R { r with sending := none } := datagrams.of_same (.inr rfl) rfl rfl
    exact ended.stopHere
  | readThrew | readError | startupThrew | requestBad | directFailed =>
    exact Datagrams.stopHere (datagrams.of_same (.inl rfl) rfl rfl)
  | _ => exact datagrams.of_same (.inl rfl) rfl rfl

theorem Calls.datagrams {c : RelayCall} (called : Calls r c r') (datagrams : Datagrams R r) :
    Datagrams R r' := by
  cases called <;> exact datagrams.of_same (.inl rfl) rfl rfl

/-! ## On either side -/

/-- The address in the message, on the remote side. -/
def Sends (type : ServerType) (dst : Endpoint) (buf : Frame) : Prop :=
  type = .remoteServer → dst = getDataAddr buf.payload

theorem aims_sends (r : Relay) : Aims (Sends r.type) r := by
  intro t t' buf done dst found type _ remote
  unfold getSendDataAddr at found
  rw [type, remote] at found
  cases found
  rfl

theorem Lives.datagrams (lives : r.Lives) : Datagrams (Frame.Goes r.type) r := by
  suffices both : Targets (Sends r.type) r ∧ Datagrams (Frame.Goes r.type) r from both.2
  refine lives.invariant (P := fun r => Targets (Sends r.type) r ∧ Datagrams (Frame.Goes r.type) r)
    (fun {r} born => ?_) (fun {r c r'} _ both _ called => ?_) fun {r alive ev r' outs} lives both
      handled => ?_
  · have idle {dst window} : r.sending ≠ some (.datagram dst window false) := by
      rw [born.sending]
      exact nofun
    refine ⟨targets_idle idle, ?_, fun _ _ waits => absurd waits idle⟩
    rw [born.log]
    exact .nil
  · have type : r'.type = r.type := by cases called <;> rfl
    rw [type]
    exact ⟨called.targets both.1, called.datagrams both.2⟩
  · obtain ⟨targets, datagrams⟩ := both
    have type : (r'.note outs).type = r.type := handled.sameCalls.type
    have sound : Sound (Frame.Goes r.type) r := by
      intro dst window buf waits _ last isWindow
      refine ⟨isWindow, fun remote => ?_⟩
      obtain ⟨buf', last', target⟩ := targets _ _ waits
      cases last.symm.trans last'
      exact target remote
    have targets' := handled.targets targets (aims_sends r) lives.startsOnce
    have datagrams' := handled.datagrams datagrams sound lives.startsOnce
    rw [type]
    exact ⟨targets'.of_same rfl rfl, datagrams'.of_same (.inl rfl) rfl rfl⟩

end Relay

end SslSocks
