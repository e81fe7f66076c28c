import SslSocks.NodeParts

/-!
# The relays of a node

Every relay of a node comes from a new one by proper calls and its own handlers.
`relays_reach` is the rule for what all relays of a node have: new relays have it,
proper calls keep it, and so do the handlers of the relays under the condition of the
run. `relaysLive_reach` is the case without a condition: what `Relay.Lives` gives for one
relay holds for all relays of all nodes that a run reaches.
-/

namespace SslSocks

open Lib

/-- What new relays have and proper calls keep. -/
structure Relay.Kept (Q : Relay → Prop) : Prop where
  born : ∀ {r : Relay}, r.Born → Q r
  call : ∀ {r : Relay} {c : RelayCall}, r.Proper (.call c) → Q r → Q (r.call c)

namespace Node

variable {n m : Node} {Q : Relay → Prop}

/-- The relays made so far have it. -/
def RelaysAll (Q : Relay → Prop) (n : Node) : Prop := ∀ r, r < n.next → Q (n.objs r)

/-- The relays made so far have a history. -/
def RelaysLive (n : Node) : Prop := ∀ r, r < n.next → (n.objs r).Lives

theorem RelaysAll.call (all : RelaysAll Q n) {r : RelayId} {c : RelayCall}
    (kept : Q (n.objs r) → Q ((n.objs r).call c)) : RelaysAll Q (n.call r c) := by
  intro a known
  rw [objs_call]
  split
  · rename_i same
    exact kept (all r (same ▸ known))
  · exact all a known

theorem RelaysAll.make (all : RelaysAll Q n) {relay : Relay} (new : Q relay) :
    RelaysAll Q (n.make relay) := by
  intro a known
  rw [objs_make]
  split
  · exact new
  · rename_i other
    exact all a (Nat.lt_of_le_of_ne (Nat.le_of_lt_succ known) other)

theorem newRawUdp_born (n : Node) (s : UInt32) : (n.newRawUdp s).Born :=
  ⟨⟨rfl, rfl, rfl, rfl, rfl, rfl, rfl, rfl, rfl, rfl, rfl⟩, rfl⟩

theorem proper_startUdp (n : Node) (s : UInt32) : (n.newRawUdp s).Proper (.call .startUdp) :=
  ⟨rfl, newRawUdp_born n s⟩

/-- `start_relay` of a local `ssl_relay`. -/
theorem newSslRelay_born (localSide : n.type ≠ .remoteServer) : n.newSslRelay.Born := by
  refine ⟨⟨rfl, rfl, rfl, rfl, rfl, rfl, rfl, rfl, rfl, rfl, rfl⟩, ?_⟩
  show Startup.resolve = Relay.firstStartup _
  unfold Relay.firstStartup newSslRelay
  cases type : n.type with
  | remoteServer => exact absurd type localSide
  | localServer | localTransparent => rfl

section Kept

variable (kept : Relay.Kept Q)

include kept

theorem RelaysAll.requested (all : RelaysAll Q n) {relay : Option RelayId} {buf : Frame}
    (requested : Requested relay buf n m) : RelaysAll Q m := by
  cases requested with
  | sent _ _ => exact all.call (kept.call (c := .sendData buf) trivial)
  | made _ localSide =>
    exact all.make (kept.call (c := .sendData buf) trivial (kept.born (newSslRelay_born localSide)))
  | lost _ => exact all

theorem relays_part (wf : WellFormed n) (all : RelaysAll Q n) (part : Part n m) :
    RelaysAll Q m := by
  cases part with
  | @requested _ _ strand _ _ requested =>
    exact RelaysAll.requested (n := { n with strand }) kept all requested
  | emit _ proper _ requested => exact (all.call (kept.call proper)).requested kept requested
  | own _ _ requested => exact all.requested kept requested
  | respond | stopped | repeated | drop | packet => exact all
  | @data k r buf strand _ _ _ _ =>
    exact RelaysAll.call (n := n.respond k buf strand) all (kept.call (c := .sendData buf) trivial)
  | @begin r strand queue _ =>
    obtain ⟨_, dst, accepted⟩ := wf.pending (queue ▸ List.mem_cons_self)
    refine RelaysAll.call (n := { n with
      strand
      session := n.session + 1
      allocated := n.allocated + 1
      relays := n.relays.insert n.session (some r)
      issued := n.issued ++ [Issue.tcp n.session r] }) all (kept.call ?_)
    show (n.objs r).kind = .rawTcp ∧ (n.objs r).Born
    rw [accepted]
    exact ⟨rfl, newAccepted_born n dst⟩
  | startRead _ proper _ => exact all.call (kept.call proper)
  | halt _ halts _ =>
    rcases halts with rfl | rfl
    · exact all.call (kept.call (c := .stopRelay) trivial)
    · exact all.call (kept.call (c := .timeoutDown) trivial)
  | @makeTcp s target _ _ _ _ =>
    have born := newRawTcp_born n (some target)
    exact all.make (kept.call (c := .begin s) ⟨rfl, born⟩ (kept.born born))
  | @orphanUdp s _ _ _ _ => exact all.make (kept.born (newRawUdp_born n s))
  | @makeUdp s _ _ _ _ =>
    exact all.make (kept.call (proper_startUdp n s) (kept.born (newRawUdp_born n s)))
  | @datagram s r buf => exact all.call (kept.call (c := .sendData buf) trivial)
  | @reply u buf => exact all.call (kept.call (c := .sendData buf) trivial)

theorem relays_udpPart (all : RelaysAll Q n) (part : UdpPart n m) : RelaysAll Q m := by
  cases part with
  | assign | sources => exact all
  | @addPeer u s src _ => exact all.call (kept.call (c := .addPeer s src) trivial)
  | @delPeer u s _ => exact all.call (kept.call (c := .delPeer s) trivial)
  | localUdp started =>
    have born := kept.born (newRawUdp_born n 0)
    refine all.make ?_
    split
    · exact kept.call (proper_startUdp n 0) born
    · exact born

theorem relays_outside {a : NodeAction} (all : RelaysAll Q n) (outside : Outside n a m)
    (event : ∀ {r ev relay outs}, a = .relay r ev → r < n.next → Q (n.objs r) →
      (n.objs r).step n.alive ev = some (relay, outs) → Q relay) : RelaysAll Q m := by
  cases outside with
  | @accept dst _ => exact all.make (kept.born (newAccepted_born n dst))
  | udpPacket | release => exact all
  | @relay r ev relay outs callable stepped =>
    intro a known
    show Q (Function.update n.objs r relay a)
    rw [Function.update_apply]
    split
    · exact event rfl callable.1 (all r callable.1) stepped
    · exact all a known

theorem relays_initLocal {type : ServerType} (localSide : type ≠ .remoteServer) :
    RelaysAll Q (initLocal type) := by
  intro r _
  have born : Relay.Born { kind := .rawUdp, type, sock := true } :=
    ⟨⟨rfl, rfl, rfl, rfl, rfl, rfl, rfl, rfl, rfl, rfl, rfl⟩, rfl⟩
  have started := kept.call (c := .startUdp) ⟨rfl, born⟩ (kept.born born)
  have same : Relay.call { kind := .rawUdp, type, sock := true } .startUdp =
      { kind := .rawUdp, type, sock := true, inbox := [.startInit] } := if_neg localSide
  rw [same] at started
  exact started

theorem relays_initRemote : RelaysAll Q initRemote := by
  intro r _
  exact kept.born ⟨⟨rfl, rfl, rfl, rfl, rfl, rfl, rfl, rfl, rfl, rfl, rfl⟩, rfl⟩

/-- **The rule for the relays of a run.** -/
theorem relays_reach {C : Node → NodeAction → Prop} {n₀ : Node} (wf : WellFormed n₀)
    (start : RelaysAll Q n₀) (run : Reach step C n₀ n)
    (event : ∀ {k r ev relay outs}, C k (.relay r ev) → r < k.next → Q (k.objs r) →
      (k.objs r).step k.alive ev = some (relay, outs) → Q relay) : RelaysAll Q n := by
  refine parts_rule wf run start (fun wf all part => relays_part kept wf all part)
    (fun _ all part => relays_udpPart kept all part) fun {k a m} _ all meets outside => ?_
  refine relays_outside kept all outside fun same known before stepped => ?_
  exact event (same ▸ meets) known before stepped

end Kept

theorem kept_lives : Relay.Kept Relay.Lives :=
  ⟨Relay.Born.lives, fun proper lives => lives.call proper⟩

theorem relaysLive_initLocal {type : ServerType} (localSide : type ≠ .remoteServer) :
    RelaysLive (initLocal type) := relays_initLocal kept_lives localSide

theorem relaysLive_initRemote : RelaysLive initRemote := relays_initRemote kept_lives

/-- **The relays of a run** have a history. -/
theorem relaysLive_reach {C : Node → NodeAction → Prop} {n₀ : Node} (wf : WellFormed n₀)
    (live : RelaysLive n₀) (run : Reach step C n₀ n) : RelaysLive n :=
  relays_reach kept_lives wf live run fun _ _ lives stepped => lives.step stepped

/-! ## A handler and one relay -/

/-- A handler of the manager makes proper calls to a relay. -/
def Becomes (n m : Node) (r : RelayId) : Prop :=
  Reach Relay.act Relay.Proper (n.objs r) (m.objs r)

theorem Becomes.of_eq {r : RelayId} (same : m.objs r = n.objs r) : Becomes n m r := by
  unfold Becomes
  rw [same]
  exact .refl

theorem becomes_call (n : Node) {a r : RelayId} {c : RelayCall}
    (proper : (n.objs a).Proper (.call c)) : Becomes n (n.call a c) r := by
  unfold Becomes
  rw [objs_call]
  split
  · rename_i same
    subst same
    exact Reach.refl.tail (a := .call c) proper rfl
  · exact .refl

theorem Requested.becomes {relay : Option RelayId} {buf : Frame}
    (requested : Requested relay buf n m) {r : RelayId} (known : r < n.next) : Becomes n m r := by
  cases requested with
  | sent _ _ => exact becomes_call n (c := .sendData buf) trivial
  | made _ _ => exact .of_eq (objs_make_of_lt _ known)
  | lost _ => exact .refl

/-- A relay that waits for its session is left out. -/
theorem becomes_part (part : Part n m) {r : RelayId} (known : r < n.next)
    (waits : .addLocalRawTcp r ∉ n.strand) : Becomes n m r := by
  cases part with
  | requested _ requested =>
    have becomes := requested.becomes known
    exact becomes
  | @emit a buf _ _ proper _ requested =>
    have emitted := becomes_call n (r := r) proper
    exact emitted.trans (requested.becomes known)
  | own _ _ requested => exact requested.becomes known
  | respond | stopped | repeated | drop | packet => exact .refl
  | @data k a buf strand =>
    exact becomes_call (n.respond k buf strand) (a := a) (c := .sendData buf) trivial
  | @begin a strand queue _ =>
    have other : r ≠ a := fun same => waits (queue ▸ same ▸ List.mem_cons_self)
    exact .of_eq (objs_call_of_ne _ other)
  | startRead _ proper _ => exact becomes_call n proper
  | @halt a c _ halts _ =>
    rcases halts with rfl | rfl
    · exact becomes_call n (c := .stopRelay) trivial
    · exact becomes_call n (c := .timeoutDown) trivial
  | makeTcp | orphanUdp | makeUdp => exact .of_eq (objs_make_of_lt _ known)
  | @datagram _ a buf | @reply a buf => exact becomes_call n (a := a) (c := .sendData buf) trivial

theorem becomes_udpPart (part : UdpPart n m) {r : RelayId} (known : r < n.next) :
    Becomes n m r := by
  cases part with
  | assign | sources => exact .refl
  | @addPeer u s src _ => exact becomes_call n (c := .addPeer s src) trivial
  | @delPeer u s _ => exact becomes_call n (c := .delPeer s) trivial
  | localUdp => exact .of_eq (objs_make_of_lt _ known)

end Node

end SslSocks
