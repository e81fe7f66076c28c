import SslSocks.NodeSteps

/-!
# What the manager's handlers do to relays

A handler of the manager's strand makes relays, with their full time, and calls them, and
only the timer calls `timeout_down`. `Node.Walk P` says that a relation `P` of nodes is kept
by these two and by everything that leaves the relays alone; `Node.Walk.runTask` gives `P`
for every handler, whether it throws or not.
-/

namespace SslSocks

open Lib

namespace Node

/-- `P` holds from before to after each change of the relays that a handler makes. -/
structure Walk (P : Node → Node → Prop) : Prop where
  trans : ∀ {n m k}, P n m → P m k → P n k
  same : ∀ {n m}, m.objs = n.objs → m.next = n.next → P n m
  call : ∀ n r {c}, c ≠ RelayCall.timeoutDown → P n (n.call r c)
  make : ∀ n relay, relay.timeout = timeoutTicks → P n (n.make relay)

namespace Walk

variable {P : Node → Node → Prop} (walk : Walk P) (n : Node)

include walk

theorem refl : P n n := walk.same rfl rfl

theorem andThen {x : Fallible Node} {f : Node → Fallible Node} (first : x.Both (P n))
    (second : ∀ m, (f m).Both (P m)) : (x.andThen f).Both (P n) :=
  Fallible.Both.andThen first fun m before => (second m).mono fun _ => walk.trans before

theorem stopManager : P n n.stopManager := by
  have stopped : P n (n.relays.sweep
      (fun n _ relay => relay.elim n fun r => n.call r .stopRelay) n) := by
    refine Map.sweep_invariant (walk.refl n) fun {m _ relay} before _ => ?_
    cases relay with
    | none => exact before
    | some r => exact walk.trans before (walk.call m r nofun)
  exact walk.trans stopped (walk.same rfl rfl)

theorem sendSsl (relay : Option RelayId) (buf : Frame) : P n (n.sendSsl relay buf) := by
  unfold Node.sendSsl
  split
  · exact walk.refl n
  · rename_i k _
    have called : P n (n.call k (.sendData buf)) := walk.call n k nofun
    exact walk.trans called (walk.same rfl rfl)

theorem addRequest (throws : Bool) (relay : Option RelayId) (buf : Frame) :
    (n.addRequest throws relay buf).Both (P n) := by
  have lost : P n { n with requests := n.requests ++ [⟨none, relay, buf⟩] } := walk.same rfl rfl
  have made : P n { n.make n.newSslRelay with ssl := some n.next } :=
    walk.trans (walk.make n _ rfl) (walk.same rfl rfl)
  unfold Node.addRequest
  split
  · simp only
    split
    · exact walk.trans lost (walk.stopManager _)
    · split
      · exact lost
      · exact walk.trans made (walk.sendSsl _ relay buf)
  · exact walk.sendSsl n relay buf

theorem relayRequest (throws : Bool) (r : RelayId) (buf : Frame) :
    (n.relayRequest throws r buf).Both (P n) :=
  (walk.addRequest _ throws (some r) buf).mono fun _ => walk.trans (walk.call n r nofun)

theorem tryStartTransparent (throws : Throws) (r : RelayId) :
    (n.tryStartTransparent throws r).Both (P n) := by
  unfold Node.tryStartTransparent
  split
  · exact walk.refl n
  · exact walk.andThen n (walk.relayRequest n _ r _) fun m => walk.call m r nofun

theorem implStartTransparent (throws : Throws) (r : RelayId) :
    (n.implStartTransparent throws r).Both (P n) := by
  have tried := walk.tryStartTransparent n throws r
  unfold Node.implStartTransparent
  cases ended : n.tryStartTransparent throws r with
  | ok m =>
    rw [ended] at tried
    exact tried
  | error m =>
    rw [ended] at tried
    have again := walk.andThen (f := fun k => .ok (k.call r .stopRelay)) m
      (walk.relayRequest m throws.newSslAgain r ⟨(m.objs r).session, .stopTcp, []⟩)
      fun k => walk.call k r nofun
    exact again.mono fun _ => walk.trans tried

theorem startRawTcp (throws : Throws) (r : RelayId) (session : UInt32) :
    (n.startRawTcp throws r session).Both (P n) := by
  unfold Node.startRawTcp
  simp only
  split
  · exact (walk.implStartTransparent _ throws r).mono fun _ => walk.trans (walk.call n r nofun)
  · exact walk.call n r nofun

theorem addLocalRawTcp (throws : Throws) (r : RelayId) :
    (n.addLocalRawTcp throws r).Both (P n) := by
  unfold Node.addLocalRawTcp
  simp only
  split
  · exact walk.same rfl rfl
  · exact (walk.startRawTcp _ throws r _).mono fun _ => walk.trans (walk.same rfl rfl)

theorem startRawUdp {keep : Node → Node} (throws : Throws) (session : UInt32)
    (kept : ∀ m, P m (keep m)) : (n.startRawUdp throws session keep).Both (P n) := by
  unfold Node.startRawUdp
  split
  · exact walk.refl n
  · have made := walk.trans (walk.make n (n.newRawUdp session) rfl) (kept _)
    simp only
    split
    · exact made
    · exact walk.trans made (walk.call _ _ nofun)

theorem callUdpSend {c : RelayCall} (other : c ≠ .timeoutDown) : P n (n.callUdpSend c) := by
  unfold Node.callUdpSend
  split
  · exact walk.same rfl rfl
  · exact walk.call n _ other

theorem restartUdp (throws : Throws) : (n.restartUdp throws).Both (P n) := by
  unfold Node.restartUdp
  split
  · exact walk.startRawUdp n throws 0 fun _ => walk.same rfl rfl
  · exact walk.refl n

theorem responseDataTcp (throws : Throws) (buf : Frame) :
    (n.responseDataTcp throws buf).Both (P n) := by
  unfold Node.responseDataTcp
  split
  · exact walk.refl n
  · exact walk.same rfl rfl
  · split
    · exact (walk.addRequest _ _ none _).mono fun _ => walk.trans (walk.same rfl rfl)
    · exact walk.call n _ nofun

theorem responseStopTcp (buf : Frame) : P n (n.responseStopTcp buf) := by
  unfold Node.responseStopTcp
  split
  · exact walk.refl n
  · exact walk.same rfl rfl
  · rename_i r _
    have called : P n (n.call r .stopRelay) := walk.call n r nofun
    exact walk.trans called (walk.same rfl rfl)

theorem relaySlot (session : UInt32) : P n (n.relaySlot session) := by
  unfold Node.relaySlot
  split
  · exact walk.refl n
  · exact walk.same rfl rfl

theorem addRemoteRawUdp (throws : Throws) (session : UInt32) :
    (n.addRemoteRawUdp throws session).Both (P n) :=
  walk.andThen n (walk.startRawUdp n throws session walk.refl) fun _ => walk.same rfl rfl

theorem remoteServerSendUdp (throws : Throws) (buf : Frame) :
    (n.remoteServerSendUdp throws buf).Both (P n) := by
  have slot := walk.relaySlot n buf.session
  have made (m : Node) (r : RelayId) : ((m.addRemoteRawUdp throws buf.session).andThen fun m =>
      .ok (m.call r (.sendData buf))).Both (P m) :=
    walk.andThen m (walk.addRemoteRawUdp m throws buf.session) fun k => walk.call k r nofun
  unfold Node.remoteServerSendUdp
  simp only
  split
  · split
    · exact (made _ _).mono fun _ => walk.trans slot
    · exact walk.trans slot (walk.call _ _ nofun)
  · exact (made _ _).mono fun _ => walk.trans slot

theorem remoteServerStartTcp (throws : Throws) (buf : Frame) :
    (n.remoteServerStartTcp throws buf).Both (P n) := by
  unfold Node.remoteServerStartTcp
  simp only
  generalize stoppedIs : Option.elim _ (n.relaySlot buf.session) _ = stopped
  have before : P n stopped := by
    rw [← stoppedIs]
    refine walk.trans (walk.relaySlot n buf.session) ?_
    cases ((n.relaySlot buf.session).relays.lookup buf.session).join with
    | none => exact walk.refl _
    | some r =>
      refine walk.call _ r fun same => ?_
      cases same
  split
  · exact before
  · rename_i target _
    have made := walk.trans before
      (walk.make stopped (stopped.newRawTcp (some target)) rfl)
    refine (walk.startRawTcp _ throws _ _).mono fun _ => walk.trans (walk.trans made ?_)
    exact walk.same rfl rfl

theorem addResponse (throws : Throws) (relay : RelayId) (buf : Frame) :
    (n.addResponse throws relay buf).Both (P n) := by
  have noted : P n { n with answered := n.answered ++ [(relay, buf)] } := walk.same rfl rfl
  unfold Node.addResponse
  simp only
  split
  · exact (walk.responseDataTcp _ throws buf).mono fun _ => walk.trans noted
  · split
    · refine (walk.andThen _ ?_ fun m => walk.same rfl rfl).mono fun _ => walk.trans noted
      exact walk.andThen _ (walk.restartUdp _ throws) fun m => walk.callUdpSend m nofun
    · exact (walk.remoteServerSendUdp _ throws buf).mono fun _ => walk.trans noted
    · exact noted
  · exact (walk.remoteServerStartTcp _ throws buf).mono fun _ => walk.trans noted
  · exact walk.trans noted (walk.responseStopTcp _ buf)
  · exact noted

theorem sendUdpData (throws : Throws) (src : Endpoint) (buf : Frame) :
    (n.sendUdpData throws src buf).Both (P n) := by
  unfold Node.sendUdpData
  refine walk.andThen n ?_ fun m => ?_
  · split
    · have drawn : P n (n.assignSession src (n.source src)) := walk.same rfl rfl
      refine (walk.andThen _ (walk.restartUdp _ throws) fun m => ?_).mono fun _ => walk.trans drawn
      have called : P m (m.callUdpSend (.addPeer (n.session + 1) src)) :=
        walk.callUdpSend m nofun
      exact walk.trans called (walk.same rfl rfl)
    · exact walk.refl n
  · exact (walk.addRequest _ throws.newSsl none _).mono fun _ => walk.trans (walk.same rfl rfl)

/-- **The rule of the handlers** of the manager's strand. -/
theorem runTask (throws : Throws) (task : ManagerTask) : (n.runTask throws task).Both (P n) := by
  cases task with
  | addRequest relay buf => exact walk.addRequest n throws.newSsl (some relay) buf
  | addResponse relay buf => exact walk.addResponse n throws relay buf
  | addLocalRawTcp relay => exact walk.addLocalRawTcp n throws relay
  | sendUdpData src buf => exact walk.sendUdpData n throws src buf

end Walk

end Node

end SslSocks
