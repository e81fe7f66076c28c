import SslSocks.NodeMoves
import SslSocks.RelayStop

/-!
# The connections of a local manager

`add_request` makes a new ssl relay when there is none or the one there is has stopped, and never
goes back: what it passes on goes to the newest ssl relay (`newest_connection`), and the older
ones are stopped (`one_connection`) unless one of them is revived, which a handshake does that
completes after `stop_relay`.
-/

namespace SslSocks

open Lib

namespace Node

variable {n m : Node}

/-! ## What a step does to the ssl relays -/

/-- No ssl relay is made, and none is asked for anything. -/
structure SameSsl (n m : Node) : Prop where
  ssl : m.ssl = n.ssl
  requests : m.requests = n.requests
  relays : ∀ k, k < m.next → (m.objs k).kind = .ssl → k < n.next ∧ (n.objs k).kind = .ssl

/-- A part of a step may call `add_request`, once. -/
inductive SslStep (n m : Node) : Prop
  | same : SameSsl n m → SslStep n m
  | requested {k : Node} {relay : Option RelayId} {buf : Frame} :
    SameSsl n k → k.next = n.next → (∀ r, (k.objs r).state = (n.objs r).state) →
    Requested relay buf k m → SslStep n m

theorem SameSsl.of_kind (ssl : m.ssl = n.ssl) (requests : m.requests = n.requests)
    (next : m.next = n.next) (kind : ∀ r, (m.objs r).kind = (n.objs r).kind) : SameSsl n m := by
  refine ⟨ssl, requests, fun k known isSsl => ?_⟩
  rw [next] at known
  rw [kind] at isSsl
  exact ⟨known, isSsl⟩

/-- A raw relay is made. -/
theorem SameSsl.make {relay : Relay} (raw : relay.kind ≠ .ssl) (ssl : m.ssl = n.ssl)
    (requests : m.requests = n.requests) (next : m.next = n.next + 1)
    (objs : m.objs = (n.make relay).objs) : SameSsl n m := by
  refine ⟨ssl, requests, fun k known isSsl => ?_⟩
  rw [next] at known
  rw [objs] at isSsl
  rcases Nat.lt_succ_iff_lt_or_eq.mp known with old | rfl
  · rw [objs_make_of_lt relay old] at isSsl
    exact ⟨old, isSsl⟩
  · rw [objs_make, if_pos rfl] at isSsl
    exact absurd isSsl raw

theorem SameSsl.call (n : Node) (r : RelayId) (c : RelayCall) : SameSsl n (n.call r c) :=
  .of_kind rfl rfl rfl fun a => objs_call_kind n r a c

theorem sslStep_part (part : Part n m) : SslStep n m := by
  cases part with
  | @requested _ _ strand _ _ requested =>
    exact .requested (k := { n with strand }) (.of_kind rfl rfl rfl fun _ => rfl) rfl (fun _ => rfl)
      requested
  | @emit r buf _ _ _ _ requested =>
    exact .requested (.call n r (.emit buf)) rfl (fun a => objs_call_state n r a _) requested
  | own _ _ requested =>
    exact .requested (.of_kind rfl rfl rfl fun _ => rfl) rfl (fun _ => rfl) requested
  | respond | stopped | repeated | drop | packet =>
    exact .same (.of_kind rfl rfl rfl fun _ => rfl)
  | data | begin | startRead | halt | datagram | reply =>
    exact .same (.of_kind rfl rfl rfl fun a => objs_call_kind _ _ a _)
  | @makeTcp s target =>
    exact .same (@SameSsl.make n _ ((n.newRawTcp (some target)).begin s) nofun rfl rfl rfl rfl)
  | @orphanUdp s => exact .same (@SameSsl.make n _ (n.newRawUdp s) nofun rfl rfl rfl rfl)
  | @makeUdp s =>
    have udp : (n.newRawUdp s).startUdp.kind ≠ .ssl := by
      rw [kind_startUdp]
      decide
    exact .same (.make udp rfl rfl rfl rfl)

theorem sameSsl_udpPart (part : UdpPart n m) : SameSsl n m := by
  cases part with
  | assign | sources => exact .of_kind rfl rfl rfl fun _ => rfl
  | addPeer | delPeer => exact .call n _ _
  | localUdp started =>
    have udp : (if started then (n.newRawUdp 0).startUdp else n.newRawUdp 0).kind ≠ .ssl := by
      split
      · rw [kind_startUdp]
        decide
      · exact nofun
    exact .make udp rfl rfl rfl rfl

theorem sameSsl_outside {a : NodeAction} (outside : Outside n a m) : SameSsl n m := by
  have kind {k : RelayId} (known : k < n.next) := kind_outside outside known
  cases outside with
  | @accept dst _ => exact @SameSsl.make n _ (n.newAccepted dst) nofun rfl rfl rfl rfl
  | udpPacket | release => exact .of_kind rfl rfl rfl fun _ => rfl
  | relay => exact ⟨rfl, rfl, fun k known isSsl => ⟨known, (kind known).symm.trans isSsl⟩⟩

/-! ## The newest ssl relay -/

/-- `_ssl` is the newest ssl relay, and the messages went to ever newer ones. -/
structure Newest (n : Node) : Prop where
  relays : ∀ k, k < n.next → (n.objs k).kind = .ssl → ∃ c, n.ssl = some c ∧ k ≤ c
  asked : ∀ k ∈ n.requests.filterMap Request.ssl, ∃ c, n.ssl = some c ∧ k ≤ c
  order : (n.requests.filterMap Request.ssl).Pairwise (· ≤ ·)

theorem Newest.same (newest : Newest n) (same : SameSsl n m) : Newest m := by
  obtain ⟨ssl, requests, relays⟩ := same
  refine ⟨fun k known isSsl => ?_, ?_, ?_⟩
  · rw [ssl]
    obtain ⟨old, before⟩ := relays k known isSsl
    exact newest.relays k old before
  · rw [ssl, requests]
    exact newest.asked
  · rw [requests]
    exact newest.order

/-- A message goes to the newest ssl relay. -/
theorem Newest.pass (newest : Newest n) {c : RelayId} {relay : Option RelayId} {buf : Frame}
    (ssl : m.ssl = some c) (requests : m.requests = n.requests ++ [⟨some c, relay, buf⟩])
    (below : ∀ k, n.ssl = some k → k ≤ c)
    (relays : ∀ k, k < m.next → (m.objs k).kind = .ssl → k ≤ c) : Newest m := by
  have sent : m.requests.filterMap Request.ssl = n.requests.filterMap Request.ssl ++ [c] := by
    rw [requests, List.filterMap_append]
    rfl
  have old (k : RelayId) (there : k ∈ n.requests.filterMap Request.ssl) : k ≤ c := by
    obtain ⟨last, current, le⟩ := newest.asked k there
    exact Nat.le_trans le (below last current)
  refine ⟨fun k known isSsl => ⟨c, ssl, relays k known isSsl⟩, fun k there => ⟨c, ssl, ?_⟩, ?_⟩
  · rw [sent] at there
    rcases List.mem_append.mp there with before | now
    · exact old k before
    · exact Nat.le_of_eq (List.mem_singleton.mp now)
  · rw [sent]
    apply List.pairwise_append.mpr
    refine ⟨newest.order, List.pairwise_singleton _ _, fun k before j now => ?_⟩
    rw [List.mem_singleton.mp now]
    exact old k before

theorem Newest.requested (newest : Newest n) (made : ∀ k, n.ssl = some k → k < n.next)
    {relay : Option RelayId} {buf : Frame} (requested : Requested relay buf n m) : Newest m := by
  cases requested with
  | @sent c current _ =>
    have below (k : RelayId) (same : n.ssl = some k) : k ≤ c := by
      cases current.symm.trans same
      exact Nat.le_refl _
    refine newest.pass current rfl below fun k known isSsl => ?_
    replace isSsl : ((n.call c (.sendData buf)).objs k).kind = .ssl := isSsl
    rw [objs_call_kind] at isSsl
    obtain ⟨last, same, le⟩ := newest.relays k known isSsl
    exact Nat.le_trans le (below last same)
  | made _ _ =>
    have below (k : RelayId) (same : n.ssl = some k) : k ≤ n.next := Nat.le_of_lt (made k same)
    exact newest.pass rfl rfl below fun k known _ => Nat.le_of_lt_succ known
  | lost _ =>
    have sent : (n.requests ++ [Request.mk none relay buf]).filterMap Request.ssl =
        n.requests.filterMap Request.ssl := by
      rw [List.filterMap_append]
      exact List.append_nil _
    refine ⟨newest.relays, ?_, ?_⟩
    · show ∀ k ∈ (n.requests ++ [Request.mk none relay buf]).filterMap Request.ssl, _
      rw [sent]
      exact newest.asked
    · show ((n.requests ++ [Request.mk none relay buf]).filterMap Request.ssl).Pairwise _
      rw [sent]
      exact newest.order

theorem Newest.step (wf : WellFormed n) (newest : Newest n) (step : SslStep n m) : Newest m := by
  cases step with
  | same same => exact newest.same same
  | @requested k _ _ same next _ requested =>
    refine (newest.same same).requested (fun c current => ?_) requested
    rw [next]
    exact (wf.ssl (same.ssl.symm.trans current)).1

theorem newest_start {n₀ : Node} (starts : Starts n₀) : Newest n₀ := by
  cases starts with
  | localSide => exact ⟨nofun, nofun, .nil⟩
  | remote => exact ⟨fun k known _ => ⟨0, rfl, Nat.le_of_lt_succ known⟩, nofun, .nil⟩

/-- **The newest connection.** In every run of a manager of any server type `_ssl` is the newest
ssl relay, and the messages that `add_request` passed on went to the ssl relays in the order in
which these were made: when one has gone to a new connection, none goes to an older one. -/
theorem newest_connection {C : Node → NodeAction → Prop} {n₀ : Node} (starts : Starts n₀)
    (run : Reach step C n₀ n) :
    (∀ k, k < n.next → (n.objs k).kind = .ssl → ∃ c, n.ssl = some c ∧ k ≤ c) ∧
      (n.requests.filterMap Request.ssl).Pairwise (· ≤ ·) := by
  have newest : Newest n := parts_rule starts.wellFormed run (newest_start starts)
    (fun wf newest part => newest.step wf (sslStep_part part))
    (fun _ newest part => newest.same (sameSsl_udpPart part))
    fun _ newest _ outside => newest.same (sameSsl_outside outside)
  exact ⟨newest.relays, newest.order⟩

/-- Two ssl relays are made, the second after the first was stopped. -/
theorem newest_connection_second : ∃ n, Reachable step (initLocal .localTransparent) n ∧
    n.ssl = some 3 ∧ (n.objs 2).kind = .ssl ∧ n.requests.filterMap Request.ssl = [2, 3] ∧
    (n.requests.filterMap Request.ssl).Pairwise (· ≤ ·) := by
  have run := @Reach.of_isSome _ _ step anyStep (initLocal .localTransparent) _
    ([.accept (.ipv4 8 8 8 8 80), .manager {}, .relay 2 (.startup false), .relay 2 .stop] ++
      [.udpPacket (.ipv4 127 0 0 1 9) none (some [7]), .manager {}]) (by decide +kernel)
  have other : ServerType.localTransparent ≠ .remoteServer := by decide
  exact ⟨_, run, by decide +kernel, by decide +kernel, by decide +kernel,
    (newest_connection (.localSide other) run).2⟩

/-! ## The older ones -/

/-- A stopped ssl relay is not revived. -/
def KeepsDown (n : Node) : NodeAction → Prop
  | .relay k ev => (n.objs k).kind = .ssl → (n.objs k).state = .stop →
    ¬ (n.objs k).Revives (.event n.alive ev)
  | _ => True

instance (n : Node) : DecidablePred n.KeepsDown
  | .relay _ _ => inferInstanceAs (Decidable (_ → _ → ¬ _))
  | .accept _ | .udpPacket _ _ _ | .manager _ | .tick | .release => isTrue trivial

/-- The ssl relays other than `_ssl` are stopped. -/
def OthersDown (n : Node) : Prop :=
  ∀ k, k < n.next → (n.objs k).kind = .ssl → n.ssl = some k ∨ (n.objs k).state = .stop

theorem leftByCalls_state : LeftByCalls fun r r' => r'.state = r.state :=
  ⟨fun _ => rfl, fun first second => second.trans first, fun r c _ => Relay.call_state r c⟩

theorem leftByCalls_stop : LeftByCalls fun r r' => r.state = .stop → r'.state = .stop :=
  ⟨fun _ => id, fun first second => second ∘ first,
    fun r c _ stopped => (Relay.call_state r c).trans stopped⟩

theorem OthersDown.keep (down : OthersDown n) (ssl : m.ssl = n.ssl)
    (relays : ∀ k, k < m.next → (m.objs k).kind = .ssl → k < n.next ∧ (n.objs k).kind = .ssl)
    (states : ∀ k, k < n.next → (n.objs k).kind = .ssl → (n.objs k).state = .stop →
      (m.objs k).state = .stop) : OthersDown m := by
  intro k known isSsl
  obtain ⟨old, before⟩ := relays k known isSsl
  rw [ssl]
  exact (down k old before).imp id (states k old before)

/-- A new ssl relay is made when the last one is down. -/
theorem OthersDown.requested (down : OthersDown n) {relay : Option RelayId} {buf : Frame}
    (requested : Requested relay buf n m) : OthersDown m := by
  cases requested with
  | @sent c current _ =>
    refine down.keep rfl (SameSsl.call n c (.sendData buf)).relays fun k _ _ stopped => ?_
    exact (objs_call_state n c k _).trans stopped
  | made isDown _ =>
    intro k known isSsl
    rcases Nat.lt_succ_iff_lt_or_eq.mp known with old | rfl
    · have here := objs_make_of_lt (n.newSslRelay.sendData buf) old
      right
      show ((n.make (n.newSslRelay.sendData buf)).objs k).state = .stop
      replace isSsl : ((n.make (n.newSslRelay.sendData buf)).objs k).kind = .ssl := isSsl
      rw [here] at isSsl ⊢
      rcases down k old isSsl with current | stopped
      · unfold sslDown at isDown
        rw [current] at isDown
        exact of_decide_eq_true isDown
      · exact stopped
    · exact .inl rfl
  | lost _ => exact down

theorem othersDown_part (down : OthersDown n) (part : Part n m) : OthersDown m := by
  cases sslStep_part part with
  | same same =>
    refine down.keep same.ssl same.relays fun k known _ stopped => ?_
    exact (leftByCalls_state.part part known (.inr fun _ _ => Relay.call_state _ _)).trans stopped
  | @requested k _ _ same _ states requested =>
    refine OthersDown.requested (n := k) ?_ requested
    exact down.keep same.ssl same.relays fun k _ _ stopped => (states k).trans stopped

theorem othersDown_outside {a : NodeAction} (down : OthersDown n) (meets : n.KeepsDown a)
    (outside : Outside n a m) : OthersDown m := by
  have same := sameSsl_outside outside
  refine down.keep same.ssl same.relays fun k known isSsl stopped => ?_
  have stays : (n.objs k).state = .stop → (m.objs k).state = .stop := by
    refine leftByCalls_stop.outside outside known fun is stepped stopped => ?_
    subst is
    obtain ⟨h, handled, rfl⟩ := Relay.step_eq_some.mp stepped
    have acted : (n.objs k).act (.event n.alive _) = some _ :=
      Relay.act_event.mpr ⟨h, _, handled, rfl⟩
    exact ((Relay.act_staysStopped stopped acted).mpr (meets isSsl stopped)).state
  exact stays stopped

/-- **One connection.** In every run of a local manager in which no stopped ssl relay is revived,
every ssl relay but `_ssl` is stopped: there are never two connections that take messages. -/
theorem one_connection {type : ServerType} (localSide : type ≠ .remoteServer)
    (run : Reach step KeepsDown (initLocal type) n) {k : RelayId} (known : k < n.next)
    (ssl : (n.objs k).kind = .ssl) : n.ssl = some k ∨ (n.objs k).state = .stop := by
  have down : OthersDown n := parts_rule (Starts.localSide localSide).wellFormed run nofun
    (fun _ down part => othersDown_part down part) (fun _ down part => ?_)
    fun _ down meets outside => othersDown_outside down meets outside
  · exact down k known ssl
  · have same := sameSsl_udpPart part
    refine OthersDown.keep down same.ssl same.relays fun k known _ stopped => ?_
    exact (leftByCalls_state.udpPart part known).trans stopped

/-- The first of two ssl relays. -/
theorem one_connection_second : ∃ n, Reach step KeepsDown (initLocal .localTransparent) n ∧
    n.ssl = some 3 ∧ (n.objs 2).kind = .ssl ∧ (n.ssl = some 2 ∨ (n.objs 2).state = .stop) := by
  have run := @Reach.of_isSome _ _ step KeepsDown (initLocal .localTransparent) _
    ([.accept (.ipv4 8 8 8 8 80), .manager {}, .relay 2 (.startup false), .relay 2 .stop] ++
      [.udpPacket (.ipv4 127 0 0 1 9) none (some [7]), .manager {}]) (by decide +kernel)
  have other : ServerType.localTransparent ≠ .remoteServer := by decide
  exact ⟨_, run, by decide +kernel, by decide +kernel,
    one_connection other run (by decide +kernel) (by decide +kernel)⟩

end Node

end SslSocks
