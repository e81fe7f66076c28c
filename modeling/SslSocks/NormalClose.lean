import SslSocks.NodeRoutes
import SslSocks.RelaySlots

/-!
# A close at the end of a stream

`STOP_TCP` comes right behind the last `DATA_TCP` of its session. The handler that it posts
to the raw_tcp closes the socket at once, so what was written then is what `send_data` took
but for the rest of the queue, which is dropped: `stopTcp_closes`. In `stopTcp_drops`
nothing of the stream was written.
-/

namespace SslSocks

open Lib

namespace Relay

variable {r : Relay}

/-- A raw_tcp that is not stopped has not lost a byte. -/
theorem Lives.unsent (lives : r.Lives) (tcp : r.kind = .rawTcp) (running : r.state ≠ .stop) :
    r.log.written ++ r.unsent = r.log.accepted.flatMap Frame.payload := by
  have stream : r.kind ≠ .rawUdp := by
    rw [tcp]
    exact nofun
  have text : r.text = Frame.payload := by
    funext buf
    simp only [Relay.text, tcp, reduceCtorEq, ↓reduceIte]
  rcases lives.flows stream with flows | frozen
  · rw [← text]
    exact flows.bytes
  · rcases frozen.state with stopped | ⟨ssl, _⟩
    · exact absurd stopped running
    · cases tcp.symm.trans ssl

/-- The handler that `raw_tcp::stop_relay` posts. -/
theorem step_stopTask {alive : Bool} {inbox : List RelayTask} {r' : Relay} {outs : List RelayOut}
    (tcp : r.kind = .rawTcp) (next : r.inbox = .stopRelay :: inbox) (running : r.state ≠ .stop)
    (stepped : r.step alive .task = some (r', outs)) :
    r'.state = .stop ∧ r'.sock = false ∧ r'.log.written = r.log.written := by
  obtain ⟨h, handled, rfl⟩ := step_eq_some.mp stepped
  simp only [handle, next, runTask, stopTask, tcp, running, ↓reduceIte, Option.some.injEq,
    Prod.mk.injEq] at handled
  obtain ⟨rfl, rfl⟩ := handled
  exact ⟨rfl, rfl, rfl⟩

end Relay

namespace Node

variable {n m k : Node}

/-- The `STOP_TCP` branch takes the session out of `_relays` and posts the stop of its
relay. -/
theorem stopTcp_posts {j r : RelayId} {buf : Frame} {strand : List ManagerTask}
    {throws : Throws} (queue : n.strand = .addResponse j buf :: strand)
    (isStop : buf.cmd = .stopTcp) (found : n.relays.lookup buf.session = some (some r))
    (tcp : (n.objs r).kind = .rawTcp) (handled : n.step (.manager throws) = some m) :
    buf.session ∉ m.relays ∧ (m.objs r).inbox = (n.objs r).inbox ++ [.stopRelay] := by
  cases stepIs_of_step handled with
  | @manager _ task strand' queue' =>
    cases queue.symm.trans queue'
    have outcome : (runTask { n with strand } throws (.addResponse j buf)).state =
        { (n.respond j buf strand).call r .stopRelay with
          relays := n.relays.erase buf.session } := by
      simp only [runTask, addResponse, isStop, responseStopTcp, found]
      rfl
    rw [outcome]
    refine ⟨fun there => ?_, ?_⟩
    · obtain ⟨relay, still⟩ := Map.mem_iff.mp there
      exact (Map.of_lookup_erase still).1 rfl
    · show (((n.respond j buf strand).call r .stopRelay).objs r).inbox = _
      rw [objs_call, if_pos rfl]
      show (n.objs r).stopRelay.inbox = _
      simp only [Relay.stopRelay, tcp]

/-- **What a normal close has written.** After the `DATA_TCP` messages of a session, all of
which `send_data` took, `STOP_TCP` posts the stop of the relay. When its handler finds the
relay running it closes the socket at once: the bytes written then and those left in the
queue are the bytes of the messages, so they were all written just when the queue is empty. -/
theorem stopTcp_closes {n₀ : Node} (starts : Starts n₀) (before : Reachable step n₀ n)
    {j r : RelayId} {buf : Frame} {strand : List ManagerTask} {throws : Throws}
    (queue : n.strand = .addResponse j buf :: strand) (isStop : buf.cmd = .stopTcp)
    (found : n.relays.lookup buf.session = some (some r)) (tcp : (n.objs r).kind = .rawTcp)
    (handled : n.step (.manager throws) = some m) (after : Reachable step m k)
    (taken : (k.objs r).log.accepted = n.givenTo r) :
    (∀ d ∈ n.givenTo r, d.session = buf.session ∧ ∃ i, (i, d) ∈ n.answered) ∧
    buf.session ∉ m.relays ∧ (m.objs r).inbox = (n.objs r).inbox ++ [.stopRelay] ∧
    ((k.objs r).inbox.head? = some .stopRelay → (k.objs r).state ≠ .stop →
      ∀ l, k.step (.relay r .task) = some l →
        (l.objs r).state = .stop ∧ (l.objs r).sock = false ∧
        (l.objs r).log.written ++ (k.objs r).unsent = (n.givenTo r).flatMap Frame.payload ∧
        ((l.objs r).log.written = (n.givenTo r).flatMap Frame.payload ↔
          (k.objs r).unsent = [])) := by
  have wf := wellFormed_reach starts.wellFormed before
  obtain ⟨⟨known, _⟩, _, session⟩ := wf.relays found
  refine ⟨fun d given => ?_, ?_⟩
  · obtain ⟨same, answered, _⟩ := routed_reach starts before r known (.inl tcp) d given
    exact ⟨same.trans session, answered⟩
  obtain ⟨gone, posted⟩ := stopTcp_posts queue isStop found tcp handled
  refine ⟨gone, posted, fun next running l stepped => ?_⟩
  have later : Reachable step n k := (Reach.refl.tail trivial handled).trans after
  have wfK := wellFormed_reach wf later
  have isTcp : (k.objs r).kind = .rawTcp := (kind_reach wf later known).trans tcp
  have there : r < k.next := known.trans_le (grows_reach wf later).next
  have lives := relaysLive_reach starts.wellFormed starts.relaysLive (before.trans later) r there
  obtain ⟨inbox, first⟩ := List.head?_eq_some_iff.mp next
  cases stepIs_of_step stepped with
  | @relay _ _ relay outs _ handled =>
    obtain ⟨stopped, closed, same⟩ := Relay.step_stopTask isTcp first running handled
    have last : ∀ m : Node, m.objs = Function.update k.objs r relay → m.objs r = relay := by
      intro m objs
      rw [objs, Function.update_self]
    rw [last _ rfl, same]
    have bytes := lives.unsent isTcp running
    rw [taken] at bytes
    refine ⟨stopped, closed, bytes, fun all => ?_, fun none => ?_⟩
    · rw [all] at bytes
      exact List.append_right_eq_self.mp bytes
    · rw [← bytes, none, List.append_nil]

/-- A session is started, its raw_tcp connects, and the byte 7 comes for it and is pushed. -/
def oneByte : List NodeAction :=
  .relay 0 (.startup true) :: bring (startOf [1, 8, 8, 8, 8, 0, 53]) ++
    [.relay 1 (.startup true), .relay 1 (.startup true)] ++ bring ⟨3, .dataTcp, [7]⟩ ++
    [.relay 1 .task]

/-- The ssl connection brings the `STOP_TCP` of the session. -/
def bringStop : List NodeAction :=
  [.relay 0 (.arrive (.stream (Frame.mk 3 .stopTcp []).head.bytes)), .relay 0 .read]

theorem step_get (a : NodeAction) (ok : (n.step a).isSome) : n.step a = some ((n.step a).get ok) :=
  (Option.some_get ok).symm

/-- The byte is written before the stop comes. -/
theorem stopTcp_closes_written :
    ∃ m l, Reachable step initRemote m ∧ m.step (.relay 1 .task) = some l ∧
      (l.objs 1).sock = false ∧ (l.objs 1).log.written = [7] := by
  have before := @Reach.of_isSome _ _ step anyStep initRemote _
    (oneByte ++ [.relay 1 (.startSend 0), .relay 1 (.take 1), .relay 1 (.sent 0)] ++ bringStop)
    (by decide +kernel)
  refine ⟨_, _, before.tail trivial (step_get (.manager {}) (by decide +kernel)),
    step_get (.relay 1 .task) (by decide +kernel), ?_⟩
  obtain ⟨_, _, _, closes⟩ := @stopTcp_closes _ _ _ _ .remote before 0 1 ⟨3, .stopTcp, []⟩ [] {}
    (by decide +kernel) rfl (by decide +kernel) (by decide +kernel)
    (step_get (.manager {}) (by decide +kernel)) .refl (by decide +kernel)
  obtain ⟨_, sock, _, all⟩ := closes (by decide +kernel) (by decide +kernel) _
    (step_get (.relay 1 .task) (by decide +kernel))
  have bytes := all.mpr (by decide +kernel)
  refine ⟨sock, bytes.trans ?_⟩
  decide +kernel

/-- **The byte is dropped**: the relay is connected and the byte is in its queue, but the
stop comes before `start_send` begins, and the socket is closed. -/
theorem stopTcp_drops :
    ∃ n m l, Reachable step initRemote n ∧
      n.strand = [.addResponse 0 ⟨3, .stopTcp, []⟩] ∧ n.relays.lookup 3 = some (some 1) ∧
      n.givenTo 1 = [⟨3, .dataTcp, [7]⟩] ∧ n.step (.manager {}) = some m ∧
      (m.objs 1).log.accepted = n.givenTo 1 ∧ m.step (.relay 1 .task) = some l ∧
      (l.objs 1).sock = false ∧ (l.objs 1).log.written = [] := by
  have before := @Reach.of_isSome _ _ step anyStep initRemote _ (oneByte ++ bringStop)
    (by decide +kernel)
  exact ⟨_, _, _, before, by decide +kernel, by decide +kernel, by decide +kernel,
    step_get (.manager {}) (by decide +kernel), by decide +kernel,
    step_get (.relay 1 .task) (by decide +kernel), by decide +kernel, by decide +kernel⟩

end Node

end SslSocks
