import SslSocks.SessionIds

/-!
# Session ids when the counter wraps

`_session` has 32 bits and starts at 1. `add_local_raw_tcp` looks in `_relays` for the id it
takes, `send_udp_data` looks nowhere, and neither asks whether the id is 0, which stands for
no session in `_srcs` and for all peers in `del_peer`. `survives_iff` says of every step of a
local manager whether the id it hands out is a good one, by the number of those before.
-/

namespace SslSocks

open Lib

namespace Node

/-- The id that a step hands out. -/
def draws (n : Node) : NodeAction → Option Issue
  | .manager _ =>
    match n.strand.head? with
    | some (.addLocalRawTcp r) => if n.session ∈ n.relays then none else some (.tcp n.session r)
    | some (.sendUdpData src _) =>
      if (n.source src).session = 0 then some (.udp (n.session + 1) src) else none
    | _ => none
  | _ => none

/-- The id is not 0, and that of a UDP source is no key of `_udp_srcs`. -/
def Survives (n : Node) : Issue → Prop
  | .tcp session _ => session ≠ 0
  | .udp session _ => session ≠ 0 ∧ session ∉ n.udpSrcs

/-- The number of ids handed out before is not one at which the counter shows 0, nor one at
which it shows a session that is in `_udp_srcs`. -/
def Unwrapped (n : Node) : Issue → Prop
  | .tcp _ _ => ¬ 2 ^ 32 ∣ n.allocated + 1
  | .udp _ _ =>
    ¬ 2 ^ 32 ∣ n.allocated + 2 ∧ ∀ s ∈ n.udpSrcs, s.toNat ≠ (n.allocated + 2) % 2 ^ 32

/-- The condition on a step. -/
def WrapMeets (n : Node) (a : NodeAction) : Prop := ∀ issue ∈ n.draws a, n.Unwrapped issue

/-- The step handles a reply for this session, after which it is a key of `_udp_srcs`. -/
def Names (n : Node) (s : UInt32) : NodeAction → Prop
  | .manager _ => ∃ k buf, n.strand.head? = some (.addResponse k buf) ∧ buf.cmd = .dataUdp ∧
    n.type = .localTransparent ∧ buf.session = s
  | _ => False

/-- The other end names UDP sessions that it was told of. -/
def Told (n : Node) (a : NodeAction) : Prop := ∀ s, n.Names s a → n.IssuedUdp s

variable {n m k : Node} {a : NodeAction} {issue : Issue} {s : UInt32}

/-! ## The counter -/

/-- The step hands out `drawn`, and counts at most one. -/
structure Counts (n m : Node) (drawn : Option Issue) : Prop where
  issued : m.issued = n.issued ++ drawn.toList
  counter : m.session = n.session ∧ m.allocated = n.allocated ∨
    m.session = n.session + 1 ∧ m.allocated = n.allocated + 1
  drawn : drawn.isSome → m.allocated = n.allocated + 1

theorem Counts.none (same : SameIssues n m) : Counts n m none where
  issued := by
    rw [same.issued]
    exact (List.append_nil _).symm
  counter := .inl ⟨same.session, same.allocated⟩
  drawn := nofun

theorem Counts.trans {drawn : Option Issue} (counts : Counts n m drawn) (same : SameIssues m k) :
    Counts n k drawn where
  issued := same.issued.trans counts.issued
  counter := by
    rw [same.session, same.allocated]
    exact counts.counter
  drawn := fun some => same.allocated.trans (counts.drawn some)

theorem counts_addLocalRawTcp (n : Node) (throws : Throws) (r : RelayId) :
    (n.addLocalRawTcp throws r).Both fun m =>
      Counts n m (if n.session ∈ n.relays then none else some (.tcp n.session r)) := by
  unfold addLocalRawTcp
  simp only
  split
  · exact ⟨(List.append_nil _).symm, .inr ⟨rfl, rfl⟩, nofun⟩
  · refine (quiet_startRawTcp _ throws r _).mono fun k quiet => Counts.trans ?_ quiet.issues
    exact ⟨rfl, .inr ⟨rfl, rfl⟩, fun _ => rfl⟩

theorem counts_sendUdpData (n : Node) (throws : Throws) (src : Endpoint) (buf : Frame) :
    (n.sendUdpData throws src buf).Both fun m => Counts n m
      (if (n.source src).session = 0 then some (.udp (n.session + 1) src) else none) := by
  unfold sendUdpData
  split
  · rename_i first
    have assigned : Counts n (n.assignSession src (n.source src))
        (some (.udp (n.session + 1) src)) := ⟨rfl, .inr ⟨rfl, rfl⟩, fun _ => rfl⟩
    have drawn : (n.newSource throws src (n.source src)).Both fun m =>
        Counts n m (some (.udp (n.session + 1) src)) := by
      unfold newSource
      refine (quiet_restartUdp _ throws).andThen_of
        (fun k quiet => assigned.trans quiet.issues) fun k quiet => ?_
      have called := quiet.trans (quiet_callUdpSend k (.addPeer (n.session + 1) src))
      exact assigned.trans ⟨called.type, called.session, called.issued, called.allocated⟩
    exact drawn.andThen fun k counts =>
      (sameIssues_forwardUdp k throws src buf).mono fun m same => counts.trans same
  · exact (sameIssues_forwardUdp n throws src buf).mono fun m same => Counts.none same

theorem counts_step (stepped : n.step a = some m) : Counts n m (n.draws a) := by
  cases stepIs_of_step stepped with
  | accept _ | udpPacket _ | release _ | relay _ _ => exact .none ⟨rfl, rfl, rfl, rfl⟩
  | tick _ => exact .none (sameIssues_tick n)
  | @manager throws task strand queue =>
    have head : n.strand.head? = some task := by
      rw [queue]
      rfl
    unfold draws
    simp only [head]
    suffices counts : (runTask { n with strand } throws task).Both fun m =>
        Counts { n with strand } m (n.draws (.manager throws)) by
      unfold draws at counts
      simp only [head] at counts
      exact ⟨counts.issued, counts.counter, counts.drawn⟩
    unfold draws
    simp only [head]
    cases task with
    | addRequest relay buf =>
      exact (quiet_addRequest { n with strand } throws.newSsl (some relay) buf).mono
        fun m quiet => Counts.none quiet.issues
    | addResponse relay buf =>
      exact (sameIssues_addResponse { n with strand } throws relay buf).mono
        fun m same => Counts.none same
    | addLocalRawTcp relay => exact counts_addLocalRawTcp { n with strand } throws relay
    | sendUdpData src buf => exact counts_sendUdpData { n with strand } throws src buf

/-- What the counter shows, and the ids that went to UDP sources. -/
structure Counted (n : Node) : Prop where
  counter : n.session = UInt32.ofNat (n.allocated + 1)
  udp : ∀ {s}, n.IssuedUdp s → ∃ i < n.allocated, s = UInt32.ofNat (i + 2)

theorem draws_tcp {r : RelayId} (drawn : n.draws a = some (.tcp s r)) : s = n.session := by
  unfold draws at drawn
  split at drawn
  · split at drawn
    · split at drawn
      · cases drawn
      · cases drawn
        rfl
    · split at drawn <;> cases drawn
    · cases drawn
  · cases drawn

theorem draws_udp {src : Endpoint} (drawn : n.draws a = some (.udp s src)) :
    s = n.session + 1 := by
  unfold draws at drawn
  split at drawn
  · split at drawn
    · split at drawn <;> cases drawn
    · split at drawn
      · cases drawn
        rfl
      · cases drawn
    · cases drawn
  · cases drawn

theorem ofNat_succ (i : Nat) : UInt32.ofNat i + 1 = UInt32.ofNat (i + 1) := by
  rw [← UInt32.ofNat_one, ← UInt32.ofNat_add]

theorem ofNat_eq_zero {i : Nat} : UInt32.ofNat i = 0 ↔ 2 ^ 32 ∣ i := by
  rw [← UInt32.toNat_inj, UInt32.toNat_ofNat', Nat.dvd_iff_mod_eq_zero]
  exact Iff.rfl

theorem counted_initLocal (type : ServerType) : Counted (initLocal type) where
  counter := rfl
  udp := by
    rintro s ⟨issue, there, _⟩
    exact absurd there List.not_mem_nil

theorem counted_step (counted : Counted n) (stepped : n.step a = some m) : Counted m := by
  obtain ⟨issued, counter, drawn⟩ := counts_step stepped
  have grows : n.allocated ≤ m.allocated := allocated_le_step stepped
  refine ⟨?_, ?_⟩
  · rcases counter with ⟨session, allocated⟩ | ⟨session, allocated⟩
    · rw [session, allocated]
      exact counted.counter
    · rw [session, allocated, counted.counter, ofNat_succ]
  · rintro s ⟨issue, there, isUdp⟩
    rw [issued] at there
    rcases List.mem_append.mp there with old | new
    · obtain ⟨i, before, same⟩ := counted.udp ⟨issue, old, isUdp⟩
      exact ⟨i, Nat.lt_of_lt_of_le before grows, same⟩
    · have draws : n.draws a = some issue := Option.mem_toList.mp new
      cases issue with
      | tcp session r => cases isUdp
      | udp session src =>
        cases isUdp
        refine ⟨n.allocated, ?_, ?_⟩
        · rw [drawn (by rw [draws]; rfl)]
          exact Nat.lt_succ_self _
        · rw [draws_udp draws, counted.counter, ofNat_succ]

theorem counted_reach {type : ServerType} {C : Node → NodeAction → Prop}
    (run : Reach step C (initLocal type) n) : Counted n :=
  run.invariant (counted_initLocal type) fun _ counted _ stepped => counted_step counted stepped

/-- The id that a step hands out is a good one if and only if the count is. -/
theorem Counted.survives_iff_unwrapped (counted : Counted n) (drawn : n.draws a = some issue) :
    n.Survives issue ↔ n.Unwrapped issue := by
  cases issue with
  | tcp session r =>
    have is : session = UInt32.ofNat (n.allocated + 1) := (draws_tcp drawn).trans counted.counter
    subst is
    exact not_congr ofNat_eq_zero
  | udp session src =>
    have is : session = UInt32.ofNat (n.allocated + 2) := by
      rw [draws_udp drawn, counted.counter, ofNat_succ]
    subst is
    refine and_congr (not_congr ofNat_eq_zero) ?_
    constructor
    · rintro unused s key same
      have is : UInt32.ofNat (n.allocated + 2) = s := by
        rw [← UInt32.toNat_inj, UInt32.toNat_ofNat']
        exact same.symm
      exact unused (is ▸ key)
    · intro others key
      refine others _ key ?_
      rw [UInt32.toNat_ofNat']

/-! ## The keys of `_udp_srcs` -/

/-- The keys of the second state are those of the first and some that are `new`. -/
def KeysFrom (n m : Node) (new : UInt32 → Prop) : Prop := ∀ s ∈ m.udpSrcs, s ∈ n.udpSrcs ∨ new s

theorem KeysFrom.of_eq {new : UInt32 → Prop} (same : m.udpSrcs = n.udpSrcs) :
    KeysFrom n m new := by
  intro s key
  rw [same] at key
  exact .inl key

theorem KeysFrom.of_sub {new : UInt32 → Prop} (sub : ∀ {s}, s ∈ m.udpSrcs → s ∈ n.udpSrcs) :
    KeysFrom n m new := fun _ key => .inl (sub key)

/-- A key is put in only when it is absent. -/
theorem keysFrom_insert {new : UInt32 → Prop} {session : UInt32} {src : Endpoint} (is : new session)
    (keys : m.udpSrcs =
      if session ∈ n.udpSrcs then n.udpSrcs else n.udpSrcs.insert session src) :
    KeysFrom n m new := by
  intro s key
  rw [keys] at key
  split at key
  · exact .inl key
  · rcases Map.mem_insert.mp key with rfl | old
    · exact .inr is
    · exact .inl old

theorem keysFrom_addResponse (n : Node) (throws : Throws) (relay : RelayId) (buf : Frame) :
    (n.addResponse throws relay buf).Both fun m => KeysFrom n m fun s =>
      buf.cmd = .dataUdp ∧ n.type = .localTransparent ∧ buf.session = s := by
  unfold addResponse
  simp only
  split
  · exact (quiet_responseDataTcp _ throws buf).mono fun m quiet => .of_eq quiet.udpSrcs
  · rename_i udp
    split
    · rename_i transparent
      refine (quiet_localTransparentSendUdp _ throws buf).andThen_of
        (fun m quiet => .of_eq quiet.udpSrcs) fun m quiet => ?_
      refine @keysFrom_insert n (m.touchSource buf.session) _ _ default
        ⟨udp, transparent, rfl⟩ ?_
      unfold touchSource
      rw [quiet.udpSrcs]
    · exact (sameTables_remoteServerSendUdp _ throws buf).mono fun m same => .of_eq same.udpSrcs
    · exact .of_eq rfl
  · exact (sameTables_remoteServerStartTcp _ throws buf).mono fun m same => .of_eq same.udpSrcs
  · exact .of_eq (quiet_responseStopTcp _ buf).udpSrcs
  · exact .of_eq rfl

theorem keysFrom_addLocalRawTcp (n : Node) (throws : Throws) (r : RelayId)
    {new : UInt32 → Prop} : (n.addLocalRawTcp throws r).Both fun m => KeysFrom n m new := by
  unfold addLocalRawTcp
  simp only
  split
  · exact .of_eq rfl
  · exact (quiet_startRawTcp _ throws r _).mono fun m quiet => .of_eq quiet.udpSrcs

theorem keysFrom_sendUdpData (n : Node) (throws : Throws) (src : Endpoint) (buf : Frame) :
    (n.sendUdpData throws src buf).Both fun m => KeysFrom n m fun s =>
      (n.source src).session = 0 ∧ s = n.session + 1 := by
  have forwarded (m : Node) : (m.forwardUdp throws src buf).Both fun k => k.udpSrcs = m.udpSrcs :=
    (quiet_addRequest _ throws.newSsl none _).mono fun k quiet => quiet.udpSrcs
  unfold sendUdpData
  split
  · rename_i first
    suffices made : (n.newSource throws src (n.source src)).Both fun m => KeysFrom n m fun s =>
        (n.source src).session = 0 ∧ s = n.session + 1 by
      refine made.andThen fun m keys => (forwarded m).mono fun k same => ?_
      intro s key
      rw [same] at key
      exact keys s key
    unfold newSource
    refine (quiet_restartUdp _ throws).andThen_of (fun m quiet => .of_eq quiet.udpSrcs)
      fun m quiet => ?_
    refine @keysFrom_insert n (m.addSource (n.session + 1) src) _ _ src ⟨first, rfl⟩ ?_
    unfold addSource
    rw [quiet.udpSrcs]
    rfl
  · exact (forwarded n).mono fun m same => .of_eq same

theorem keys_tick (n : Node) {s : UInt32} : s ∈ n.tick.udpSrcs → s ∈ n.udpSrcs := by
  refine tick_rule (P := fun m : Node => s ∈ m.udpSrcs → s ∈ n.udpSrcs) (fun key => ?_)
    (fun {m} sub _ _ key => ?_) (fun {m} _ key => ?_) (fun {m src entry} sub _ key => ?_)
    (fun {m session r} sub _ key => ?_) fun sub _ => sub
  · rwa [(quiet_sslTimeout n).udpSrcs] at key
  · have key : s ∈ m.stopManager.udpSrcs := key
    rw [(quiet_stopManager m).udpSrcs] at key
    exact sub key
  · unfold clearSources at key
    rw [(quiet_callUdpSend _ _).udpSrcs] at key
    exact absurd key Map.notMem_empty
  · unfold visitSource at key
    split at key
    · rw [(quiet_callUdpSend _ _).udpSrcs] at key
      exact sub (Map.mem_erase.mp key).2
    · exact sub key
  · rw [(quiet_visitRelay m session r).udpSrcs] at key
    exact sub key

/-- A key is new only when it was handed out or named. -/
theorem keys_step (stepped : n.step a = some m) :
    KeysFrom n m fun s => (∃ src, n.draws a = some (.udp s src)) ∨ n.Names s a := by
  cases stepIs_of_step stepped with
  | accept _ | udpPacket _ | release _ | relay _ _ => exact .of_eq rfl
  | tick _ => exact .of_sub (keys_tick n)
  | @manager throws task strand queue =>
    have head : n.strand.head? = some task := by
      rw [queue]
      rfl
    unfold draws Names
    simp only [head]
    cases task with
    | addRequest relay buf =>
      exact .of_eq (quiet_addRequest { n with strand } throws.newSsl (some relay) buf).udpSrcs
    | addResponse relay buf =>
      intro s key
      refine (keysFrom_addResponse { n with strand } throws relay buf s key).imp id ?_
      rintro ⟨udp, transparent, same⟩
      exact .inr ⟨relay, buf, rfl, udp, transparent, same⟩
    | addLocalRawTcp relay => exact keysFrom_addLocalRawTcp { n with strand } throws relay
    | sendUdpData src buf =>
      intro s key
      refine (keysFrom_sendUdpData { n with strand } throws src buf s key).imp id ?_
      rintro ⟨first, rfl⟩
      refine .inl ⟨src, ?_⟩
      have first : (n.source src).session = 0 := first
      simp only [first, ↓reduceIte]

/-- In a run in which the other end names what it was told of, so were the keys. -/
theorem issuedUdp_of_key {type : ServerType} (run : Reach step Told (initLocal type) n)
    (key : s ∈ n.udpSrcs) : n.IssuedUdp s := by
  induction run generalizing s with
  | refl => exact absurd key Map.notMem_empty
  | @tail t m a _ told stepped ih =>
    have issued := (counts_step stepped).issued
    have kept (before : t.IssuedUdp s) : m.IssuedUdp s := by
      obtain ⟨issue, there, same⟩ := before
      refine ⟨issue, ?_, same⟩
      rw [issued]
      exact List.mem_append_left _ there
    rcases keys_step stepped s key with old | ⟨src, drawn⟩ | named
    · exact kept (ih old)
    · refine ⟨.udp s src, ?_, rfl⟩
      rw [issued, drawn]
      exact List.mem_append_right _ List.mem_cons_self
    · exact kept (told s named)

/-! ## The ids handed out -/

/-- The ids that the step hands out are good ones. -/
def AssignsWell (n : Node) (a : NodeAction) : Prop :=
  ∀ {m issue}, n.step a = some m → m.issued = n.issued ++ [issue] → n.Survives issue

theorem draws_of_issued (stepped : n.step a = some m) (hands : m.issued = n.issued ++ [issue]) :
    n.draws a = some issue := by
  rw [(counts_step stepped).issued] at hands
  have same := List.append_cancel_left hands
  cases drawn : n.draws a with
  | none =>
    rw [drawn] at same
    cases same
  | some other =>
    rw [drawn] at same
    cases same
    rfl

theorem Counted.assignsWell_iff (counted : Counted n) (stepped : n.step a = some m) :
    n.AssignsWell a ↔ n.WrapMeets a := by
  constructor
  · intro well issue drawn
    have issued := (counts_step stepped).issued
    rw [drawn] at issued
    exact (counted.survives_iff_unwrapped drawn).mp (well stepped issued)
  · intro meets m issue stepped hands
    have drawn := draws_of_issued stepped hands
    exact (counted.survives_iff_unwrapped drawn).mpr (meets issue drawn)

/-- Few ids wrap nothing. -/
theorem wrapMeets_of_few {type : ServerType} (run : Reach step Told (initLocal type) n)
    (few : n.allocated + 2 < 2 ^ 32) : n.WrapMeets a := by
  have counted := counted_reach run
  intro issue drawn
  cases issue with
  | tcp session r => exact Nat.not_dvd_of_pos_of_lt (Nat.succ_pos _) (by omega)
  | udp session src =>
    refine ⟨Nat.not_dvd_of_pos_of_lt (Nat.succ_pos _) few, fun s key same => ?_⟩
    obtain ⟨i, before, rfl⟩ := counted.udp (issuedUdp_of_key run key)
    rw [UInt32.toNat_ofNat', Nat.mod_eq_of_lt few, Nat.mod_eq_of_lt (by omega)] at same
    omega

/-- **Session 0 and live ids** are kept from use by the steps that meet the condition, and by
no others. Such are all steps of a run that hands out fewer than `2 ^ 32 - 1` ids and in
which the other end names UDP sessions that it was told of. -/
theorem survives_iff {type : ServerType} :
    (∀ {n m a issue}, Reachable step (initLocal type) n → n.step a = some m →
      m.issued = n.issued ++ [issue] → (n.Survives issue ↔ n.Unwrapped issue)) ∧
    (∀ {n}, Reach step AssignsWell (initLocal type) n ↔
      Reach step WrapMeets (initLocal type) n) ∧
    (∀ {n}, Reach step Told (initLocal type) n → n.allocated + 1 < 2 ^ 32 →
      Reach step WrapMeets (initLocal type) n) := by
  refine ⟨?_, ?_, ?_⟩
  · intro n m a issue run stepped hands
    exact (counted_reach run).survives_iff_unwrapped (draws_of_issued stepped hands)
  · intro n
    constructor
    · intro run
      induction run with
      | refl => exact .refl
      | tail before well stepped ih =>
        exact ih.tail (((counted_reach before).assignsWell_iff stepped).mp well) stepped
    · intro run
      induction run with
      | refl => exact .refl
      | tail before meets stepped ih =>
        exact ih.tail (((counted_reach before).assignsWell_iff stepped).mpr meets) stepped
  · intro n run few
    induction run with
    | refl => exact .refl
    | @tail t m a before told stepped ih =>
      have grows := allocated_le_step stepped
      refine (ih (by omega)).tail (fun issue drawn => ?_) stepped
      -- a step that hands out an id counts it
      have counts := (counts_step stepped).drawn (by rw [drawn]; rfl)
      exact wrapMeets_of_few before (by omega) issue drawn

/-! ## A run in which the counter wraps -/

/-- A local server on which `k` connections were added, and nothing else happened. -/
structure Served (n : Node) (k : Nat) : Prop where
  run : Reachable step (initLocal .localServer) n
  type : n.type = .localServer
  runs : n.crashed = false
  idle : n.strand = []
  session : n.session = UInt32.ofNat (k + 1)
  keys : ∀ s ∈ n.relays, 0 < s.toNat ∧ s.toNat ≤ k

theorem Served.session_notMem {count : Nat} (served : Served n count) (few : count < 2 ^ 32) :
    n.session ∉ n.relays := by
  intro there
  obtain ⟨positive, bound⟩ := served.keys _ there
  rw [served.session, UInt32.toNat_ofNat'] at positive bound
  rcases Nat.lt_or_ge (count + 1) (2 ^ 32) with within | last
  · rw [Nat.mod_eq_of_lt within] at bound
    omega
  · have wraps : count + 1 = 2 ^ 32 := by omega
    rw [wraps, Nat.mod_self] at positive
    omega

/-- A local server asks for nothing when it adds a connection. -/
theorem addLocalRawTcp_server (server : n.type = .localServer) (free : n.session ∉ n.relays)
    (throws : Throws) (r : RelayId) :
    n.addLocalRawTcp throws r = .ok ({ n with
      session := n.session + 1
      allocated := n.allocated + 1
      relays := n.relays.insert n.session (some r)
      issued := n.issued ++ [Issue.tcp n.session r] }.call r (.begin n.session)) := by
  have asks : n.type ≠ .localTransparent := by
    rw [server]
    decide
  unfold addLocalRawTcp startRawTcp
  simp only
  rw [if_neg free]
  exact if_neg asks

/-- The next connection gets the next id. -/
theorem Served.next {count : Nat} (served : Served n count) (few : count < 2 ^ 32) :
    ∃ t m r, Reachable step (initLocal .localServer) t ∧ t.step (.manager {}) = some m ∧
      m.issued = t.issued ++ [.tcp (UInt32.ofNat (count + 1)) r] ∧
      (count + 1 < 2 ^ 32 → Served m (count + 1)) := by
  have free := served.session_notMem few
  -- the connection is accepted
  let t : Node :=
    { n.make (n.newAccepted default) with strand := n.strand ++ [.addLocalRawTcp n.next] }
  have accepted : n.step (.accept default) = some t := by
    unfold step
    simp only [served.runs, served.type, Bool.false_eq_true, reduceCtorEq, ↓reduceIte]
    rfl
  have reached := served.run.tail trivial accepted
  -- and its handler runs
  have handled : t.step (.manager {}) =
      some ({ t with strand := [] }.addLocalRawTcp {} n.next).state := by
    have head : t.strand = [.addLocalRawTcp n.next] := by
      show n.strand ++ _ = _
      rw [served.idle]
      rfl
    have runs : t.crashed = false := served.runs
    unfold step
    simp only [runs, head, Bool.false_eq_true, ↓reduceIte]
    rfl
  have server : ({ t with strand := [] } : Node).type = .localServer := served.type
  rw [addLocalRawTcp_server server free] at handled
  refine ⟨t, _, n.next, reached, handled, ?_, fun within => ?_⟩
  · rw [← served.session]
    rfl
  · refine ⟨reached.tail trivial handled, served.type, served.runs, rfl, ?_, ?_⟩
    · show n.session + 1 = _
      rw [served.session, ofNat_succ]
    · intro s there
      have among : s = n.session ∨ s ∈ n.relays := Map.mem_insert.mp there
      rcases among with rfl | old
      · rw [served.session, toNat_ofNat within]
        exact ⟨Nat.succ_pos _, Nat.le_refl _⟩
      · obtain ⟨positive, bound⟩ := served.keys s old
        exact ⟨positive, Nat.le_succ_of_le bound⟩

theorem exists_served {count : Nat} (few : count < 2 ^ 32) : ∃ n, Served n count := by
  induction count with
  | zero =>
    exact ⟨initLocal .localServer, .refl, rfl, rfl, rfl, rfl, fun _ there =>
      absurd there Map.notMem_empty⟩
  | succ count ih =>
    have before : count < 2 ^ 32 := Nat.lt_of_succ_lt few
    obtain ⟨n, served⟩ := ih before
    obtain ⟨_, m, _, _, _, _, next⟩ := served.next before
    exact ⟨m, next few⟩

/-- **The connection after `2 ^ 32 - 1` others** gets session 0. -/
theorem survives_wraps :
    ∃ n m r, Reachable step (initLocal .localServer) n ∧ n.step (.manager {}) = some m ∧
      m.issued = n.issued ++ [.tcp 0 r] ∧ ¬ n.Survives (.tcp 0 r) := by
  have last : 2 ^ 32 - 1 < 2 ^ 32 := by decide
  obtain ⟨n, served⟩ := exists_served last
  obtain ⟨t, m, r, reached, handled, issued, _⟩ := served.next last
  have zero : UInt32.ofNat (2 ^ 32 - 1 + 1) = 0 := ofNat_eq_zero.mpr (by decide)
  rw [zero] at issued
  exact ⟨t, m, r, reached, handled, issued, fun survives => survives rfl⟩

end Node

end SslSocks
