import SslSocks.NodeSteps

/-!
# Session ids

`add_local_raw_tcp` uses `_session` and then increments it, `send_udp_data`
increments it and then uses it. After a first UDP packet `_session` is therefore the
id of the new source, and the next connection gets the same id. `Node.IdsMeet` asks
that this does not happen while the source lives, and that the other end names in
its messages the sessions that it was told of. Under it no id handed out is in use
(`sessionIds_fresh`).
-/

namespace SslSocks

open Lib

/-- The id, when it went to a UDP source. -/
def Issue.udpSession : Issue → Option UInt32
  | .tcp _ _ => none
  | .udp session _ => some session

def Issue.session : Issue → UInt32
  | .tcp session _ => session
  | .udp session _ => session

namespace Node

/-- The id of a UDP source: a key of `_udp_srcs`, or a session in `_srcs`, where 0
stands for none. -/
def LiveUdp (n : Node) (session : UInt32) : Prop :=
  session ∈ n.udpSrcs ∨ session ≠ 0 ∧ ∃ entry ∈ n.srcs.values, entry.session = session

/-- The id of a live session. -/
def Live (n : Node) (session : UInt32) : Prop := session ∈ n.relays ∨ n.LiveUdp session

/-- The id once went to a UDP source. -/
def IssuedUdp (n : Node) (session : UInt32) : Prop :=
  ∃ issue ∈ n.issued, issue.udpSession = some session

instance (n : Node) : DecidablePred n.LiveUdp := fun _ => inferInstanceAs (Decidable (_ ∨ _))

instance (n : Node) : DecidablePred n.IssuedUdp := fun _ =>
  inferInstanceAs (Decidable (∃ _ ∈ _, _))

/-- No two live sessions share an id. -/
structure NoCollision (n : Node) : Prop where
  tcp : ∀ {s}, s ∈ n.relays → ¬ n.LiveUdp s
  udp : ∀ {src src' entry entry'}, n.srcs.lookup src = some entry →
    n.srcs.lookup src' = some entry' → entry.session = entry'.session →
    entry.session ≠ 0 → src = src'

/-- A handler that takes its ids apart. -/
def IdsMeetTask (n : Node) : ManagerTask → Prop
  | .addLocalRawTcp _ => ¬ n.LiveUdp n.session
  | .addResponse _ buf =>
    (buf.cmd = .startTcp → buf.session ∈ n.relays) ∧
      (buf.cmd = .dataUdp → n.type = .localTransparent →
        n.IssuedUdp buf.session ∧ buf.session ∉ n.relays)
  | _ => True

instance (n : Node) : DecidablePred n.IdsMeetTask
  | .addLocalRawTcp _ => inferInstanceAs (Decidable (¬ _))
  | .addResponse _ _ => inferInstanceAs (Decidable (_ ∧ _))
  | .addRequest _ _ | .sendUdpData _ _ => isTrue trivial

/-- A step that keeps the ids apart. -/
def IdsMeet (n : Node) : NodeAction → Prop
  | .manager _ => ∀ task ∈ n.strand.head?, n.IdsMeetTask task
  | _ => True

instance (n : Node) : DecidablePred n.IdsMeet
  | .manager _ => inferInstanceAs (Decidable (∀ _ ∈ _, _))
  | .accept _ | .udpPacket _ _ _ | .tick | .release | .relay _ _ => isTrue trivial

/-- What the ids handed out so far are: `allocated` numbers from 1 on, of which the
UDP ones are one ahead. -/
structure Ids (n : Node) : Prop where
  localSide : n.type ≠ .remoteServer
  counter : n.session = UInt32.ofNat (n.allocated + 1)
  tcp : ∀ {s}, s ∈ n.relays → 0 < s.toNat ∧ s.toNat ≤ n.allocated
  udp : ∀ {s}, n.IssuedUdp s →
    s.toNat ≤ n.allocated + 1 ∧ (n.allocated + 1 < 2 ^ 32 → s ≠ 0)
  issued : ∀ {s}, n.LiveUdp s → n.IssuedUdp s
  noCollision : NoCollision n

variable {n m : Node}

theorem liveUdp_iff {s : UInt32} : n.LiveUdp s ↔
    s ∈ n.udpSrcs ∨ s ≠ 0 ∧ ∃ src entry, n.srcs.lookup src = some entry ∧ entry.session = s := by
  unfold LiveUdp
  simp only [Map.mem_values]
  constructor
  · rintro (there | ⟨nonzero, entry, ⟨src, found⟩, same⟩)
    · exact .inl there
    · exact .inr ⟨nonzero, src, entry, found, same⟩
  · rintro (there | ⟨nonzero, src, entry, found, same⟩)
    · exact .inl there
    · exact .inr ⟨nonzero, entry, ⟨src, found⟩, same⟩

theorem liveUdp_of_source {src : Endpoint} {entry : UdpTimeout}
    (found : n.srcs.lookup src = some entry) (nonzero : entry.session ≠ 0) :
    n.LiveUdp entry.session :=
  liveUdp_iff.mpr (.inr ⟨nonzero, src, entry, found, rfl⟩)

/-- The id that a counter hands out. -/
theorem toNat_ofNat {k : Nat} (few : k < 2 ^ 32) : (UInt32.ofNat k).toNat = k := by
  rw [UInt32.toNat_ofNat']
  exact Nat.mod_eq_of_lt few

/-- Sessions that only leave the tables keep their ids. -/
theorem Ids.of_subset (ids : Ids n) (type : m.type = n.type) (session : m.session = n.session)
    (allocated : m.allocated = n.allocated) (issued : m.issued = n.issued)
    (relays : ∀ {s}, s ∈ m.relays → s ∈ n.relays)
    (udpSrcs : ∀ {s}, s ∈ m.udpSrcs → s ∈ n.udpSrcs)
    (srcs : ∀ {src entry}, m.srcs.lookup src = some entry → entry.session ≠ 0 →
      ∃ old, n.srcs.lookup src = some old ∧ old.session = entry.session) : Ids m := by
  have live {s : UInt32} (there : m.LiveUdp s) : n.LiveUdp s := by
    rcases liveUdp_iff.mp there with key | ⟨nonzero, src, entry, found, rfl⟩
    · exact .inl (udpSrcs key)
    · obtain ⟨old, before, same⟩ := srcs found nonzero
      exact liveUdp_iff.mpr (.inr ⟨nonzero, src, old, before, same⟩)
  have was {s : UInt32} : m.IssuedUdp s ↔ n.IssuedUdp s := by
    unfold IssuedUdp
    rw [issued]
  refine ⟨type ▸ ids.localSide, ?_, fun there => ?_, fun there => ?_, fun there => ?_,
    ⟨fun there shared => ?_, ?_⟩⟩
  · rw [session, allocated]
    exact ids.counter
  · rw [allocated]
    exact ids.tcp (relays there)
  · rw [allocated]
    exact ids.udp (was.mp there)
  · exact was.mpr (ids.issued (live there))
  · exact ids.noCollision.tcp (relays there) (live shared)
  · intro src src' entry entry' found found' same nonzero
    obtain ⟨old, before, session⟩ := srcs found nonzero
    obtain ⟨old', before', session'⟩ := srcs found' (same ▸ nonzero)
    refine ids.noCollision.udp before before' ?_ (session ▸ nonzero)
    rw [session, session', same]

theorem Ids.quiet (ids : Ids n) (quiet : Quiet n m) : Ids m :=
  ids.of_subset quiet.type quiet.session quiet.allocated quiet.issued
    (fun there => by
      obtain ⟨relay, found⟩ := Map.mem_iff.mp there
      exact Map.mem_of_lookup (quiet.relays found))
    (fun there => quiet.udpSrcs ▸ there)
    fun found _ => ⟨_, quiet.srcs ▸ found, rfl⟩

/-- Only the time of a source changes. -/
theorem Ids.setTimeout (ids : Ids n) (src : Endpoint) (timeout : Nat) :
    Ids { n with srcs := n.srcs.insert src { n.source src with timeout } } := by
  refine ids.of_subset rfl rfl rfl rfl id id fun {e entry} found nonzero => ?_
  rcases eq_or_ne e src with rfl | other
  · rw [Map.lookup_insert_self] at found
    cases found
    cases before : n.srcs.lookup e with
    | none =>
      -- a source that was not there has session 0
      rw [source, before] at nonzero
      exact absurd rfl nonzero
    | some old =>
      refine ⟨old, rfl, ?_⟩
      rw [source, before]
      rfl
  · rw [Map.lookup_insert, if_neg other] at found
    exact ⟨entry, found, rfl⟩

/-- `_udp_srcs` gets a key, unless it is there. -/
theorem Ids.addKey (ids : Ids n) {session : UInt32} (issued : n.IssuedUdp session)
    (free : session ∉ n.relays) (src : Endpoint) :
    Ids { n with
      udpSrcs := if session ∈ n.udpSrcs then n.udpSrcs else n.udpSrcs.insert session src } := by
  have live {s : UInt32} (there : Node.LiveUdp { n with
      udpSrcs := if session ∈ n.udpSrcs then n.udpSrcs else n.udpSrcs.insert session src } s) :
      s = session ∨ n.LiveUdp s := by
    rcases there with key | source
    · simp only at key
      split at key
      · exact .inr (.inl key)
      · exact (Map.mem_insert.mp key).imp id .inl
    · exact .inr (.inr source)
  refine ⟨ids.localSide, ids.counter, ids.tcp, ids.udp, fun there => ?_,
    ⟨fun there shared => ?_, ids.noCollision.udp⟩⟩
  · rcases live there with rfl | before
    · exact issued
    · exact ids.issued before
  · rcases live shared with rfl | before
    · exact free there
    · exact ids.noCollision.tcp there before

/-! ## The handlers -/

theorem ids_touchSource (ids : Ids n) {session : UInt32} (issued : n.IssuedUdp session)
    (free : session ∉ n.relays) : Ids (n.touchSource session) :=
  (ids.setTimeout ((n.udpSrcs.lookup session).getD default) timeoutTicks).addKey issued free default

/-- The other end replaces a session that is there. -/
theorem ids_remoteServerStartTcp (ids : Ids n) {throws : Throws} {buf : Frame}
    (there : buf.session ∈ n.relays) : (n.remoteServerStartTcp throws buf).Both Ids := by
  unfold remoteServerStartTcp relaySlot
  rw [if_pos there]
  simp only
  generalize stoppedIs : Option.elim _ n _ = stopped
  have quiet : Quiet n stopped := by
    rw [← stoppedIs]
    cases (n.relays.lookup buf.session).join with
    | none => exact Quiet.refl n
    | some r => exact quiet_call n r _
  have relays : stopped.relays = n.relays := by
    rw [← stoppedIs]
    cases (n.relays.lookup buf.session).join <;> rfl
  split
  · exact ids.quiet quiet
  · refine (quiet_startRawTcp _ throws _ _).mono fun k started => Ids.quiet ?_ started
    refine (ids.quiet quiet).of_subset rfl rfl rfl rfl (fun {s} inserted => ?_) id
      fun found _ => ⟨_, found, rfl⟩
    rcases Map.mem_insert.mp inserted with rfl | before
    · exact relays ▸ there
    · exact before

theorem ids_addResponse (ids : Ids n) {throws : Throws} {relay : RelayId} {buf : Frame}
    (meets : n.IdsMeetTask (.addResponse relay buf)) :
    (n.addResponse throws relay buf).Both Ids := by
  obtain ⟨start, udp⟩ := meets
  have noted : Ids { n with answered := n.answered ++ [(relay, buf)] } :=
    ids.of_subset rfl rfl rfl rfl id id fun found _ => ⟨_, found, rfl⟩
  unfold addResponse
  simp only
  split
  · exact (quiet_responseDataTcp _ throws buf).mono fun _ => noted.quiet
  · rename_i isUdp
    split
    · rename_i transparent
      obtain ⟨issued, free⟩ := udp isUdp transparent
      refine (quiet_localTransparentSendUdp _ throws buf).andThen_of (fun _ => noted.quiet)
        fun m quiet => ids_touchSource (noted.quiet quiet) ?_ fun there => ?_
      · unfold IssuedUdp
        rw [quiet.issued]
        exact issued
      · obtain ⟨relay, found⟩ := Map.mem_iff.mp there
        exact free (Map.mem_of_lookup (quiet.relays found))
    · rename_i remote
      exact absurd remote ids.localSide
    · exact noted
  · rename_i isStart
    exact ids_remoteServerStartTcp noted (start isStart)
  · exact noted.quiet (quiet_responseStopTcp _ buf)
  · exact noted

/-- The id of a new connection is not in use when `_session` is not the id of a live
source. -/
theorem Ids.fresh_tcp (ids : Ids n) (meets : ¬ n.LiveUdp n.session)
    (few : n.allocated + 1 < 2 ^ 32) : ¬ n.Live n.session := by
  rintro (there | live)
  · have bound := (ids.tcp there).2
    rw [ids.counter, toNat_ofNat few] at bound
    omega
  · exact meets live

/-- The id of a new source is not in use and never was. -/
theorem Ids.fresh_udp (ids : Ids n) (few : n.allocated + 1 < 2 ^ 32) :
    n.session + 1 ∉ n.relays ∧ ¬ n.IssuedUdp (n.session + 1) := by
  have next : n.session + 1 = UInt32.ofNat (n.allocated + 2) := by
    rw [ids.counter, ← UInt32.ofNat_one, ← UInt32.ofNat_add]
  rw [next]
  -- the last id of all is 0
  rcases Nat.lt_or_ge (n.allocated + 2) (2 ^ 32) with within | last
  · refine ⟨fun there => ?_, fun issued => ?_⟩
    · have bound := (ids.tcp there).2
      rw [toNat_ofNat within] at bound
      omega
    · have bound := (ids.udp issued).1
      rw [toNat_ofNat within] at bound
      omega
  · have wrapped : n.allocated + 2 = 2 ^ 32 := by omega
    rw [wrapped]
    refine ⟨fun there => ?_, fun issued => ?_⟩
    · exact absurd (ids.tcp there).1 (by decide)
    · exact (ids.udp issued).2 few (by decide)

theorem Ids.assignSession (ids : Ids n) {src : Endpoint} {old : UdpTimeout}
    (few : n.allocated + 1 < 2 ^ 32) : Ids (n.assignSession src old) := by
  obtain ⟨free, unissued⟩ := ids.fresh_udp few
  have next : n.session + 1 = UInt32.ofNat (n.allocated + 1 + 1) := by
    rw [ids.counter, ← UInt32.ofNat_one, ← UInt32.ofNat_add]
  have issued {s : UInt32} :
      (n.assignSession src old).IssuedUdp s ↔ n.IssuedUdp s ∨ s = n.session + 1 := by
    unfold IssuedUdp Node.assignSession
    simp only [List.mem_append, List.mem_singleton]
    constructor
    · rintro ⟨issue, before | rfl, same⟩
      · exact .inl ⟨issue, before, same⟩
      · exact .inr (Option.some.inj same).symm
    · rintro (⟨issue, before, same⟩ | rfl)
      · exact ⟨issue, .inl before, same⟩
      · exact ⟨_, .inr rfl, rfl⟩
  have source {e : Endpoint} {entry : UdpTimeout}
      (found : (n.assignSession src old).srcs.lookup e = some entry) :
      e = src ∧ entry.session = n.session + 1 ∨ n.srcs.lookup e = some entry := by
    replace found : (n.srcs.insert src { old with session := n.session + 1 }).lookup e =
      some entry := found
    rw [Map.lookup_insert] at found
    split at found
    · rename_i same
      cases found
      exact .inl ⟨same, rfl⟩
    · exact .inr found
  have live {s : UInt32} (there : (n.assignSession src old).LiveUdp s) :
      s = n.session + 1 ∨ n.LiveUdp s := by
    rcases liveUdp_iff.mp there with key | ⟨nonzero, e, entry, found, rfl⟩
    · exact .inr (.inl key)
    · rcases source found with ⟨_, same⟩ | before
      · exact .inl same
      · exact .inr (liveUdp_of_source before nonzero)
  refine ⟨ids.localSide, next, fun there => ?_, fun there => ?_, fun there => ?_,
    ⟨fun there shared => ?_, fun found found' same nonzero => ?_⟩⟩
  · exact ⟨(ids.tcp there).1, Nat.le_succ_of_le (ids.tcp there).2⟩
  · show _ ≤ n.allocated + 1 + 1 ∧ (n.allocated + 1 + 1 < 2 ^ 32 → _)
    rcases issued.mp there with before | rfl
    · exact ⟨Nat.le_succ_of_le (ids.udp before).1, fun _ => (ids.udp before).2 few⟩
    · rw [next]
      refine ⟨?_, fun within zero => ?_⟩
      · rw [UInt32.toNat_ofNat']
        exact Nat.mod_le _ _
      · have value := toNat_ofNat within
        rw [zero] at value
        exact absurd value (by simp)
  · exact issued.mpr ((live there).symm.imp ids.issued id)
  · rcases live shared with rfl | before
    · exact free there
    · exact ids.noCollision.tcp there before
  · rcases source found with ⟨rfl, session⟩ | before <;>
      rcases source found' with ⟨rfl, session'⟩ | before'
    · rfl
    · -- the new id is not the session of another source
      refine absurd (ids.issued (liveUdp_of_source before' (same ▸ nonzero))) ?_
      rw [← same, session]
      exact unissued
    · refine absurd (ids.issued (liveUdp_of_source before nonzero)) ?_
      rw [same, session']
      exact unissued
    · exact ids.noCollision.udp before before' same nonzero

/-- A step that draws an id or none: while the counter does not wrap, the ids stay
apart and the one handed out was not in use. -/
structure DrawsFresh (n m : Node) : Prop where
  ids : m.allocated < 2 ^ 32 → Ids m
  fresh : m.allocated < 2 ^ 32 → ∀ {issue}, m.issued = n.issued ++ [issue] →
    ¬ n.Live issue.session

theorem DrawsFresh.of_same (same : SameIssues n m) (ids : Ids m) : DrawsFresh n m where
  ids := fun _ => ids
  fresh := fun _ _ more => by
    rw [same.issued] at more
    exact absurd more (List.ne_cons_self.symm.elim ∘ List.self_eq_append_right.mp)

/-- What follows the draw draws no other id. -/
theorem DrawsFresh.trans {k : Node} (draws : DrawsFresh n m) (same : SameIssues m k)
    (ids : Ids m → Ids k) : DrawsFresh n k where
  ids := fun few => ids (draws.ids (same.allocated ▸ few))
  fresh := fun few _ more => draws.fresh (same.allocated ▸ few) (same.issued ▸ more)

theorem drawsFresh_addLocalRawTcp (ids : Ids n) (meets : ¬ n.LiveUdp n.session)
    (throws : Throws) (r : RelayId) : (n.addLocalRawTcp throws r).Both (DrawsFresh n) := by
  have next : n.session + 1 = UInt32.ofNat (n.allocated + 1 + 1) := by
    rw [ids.counter, ← UInt32.ofNat_one, ← UInt32.ofNat_add]
  unfold addLocalRawTcp
  simp only
  split
  · rename_i used
    refine ⟨fun few => ?_, fun few => ?_⟩
    all_goals exact absurd (.inl used) (ids.fresh_tcp meets few)
  · refine (quiet_startRawTcp _ throws r _).mono fun k quiet =>
      DrawsFresh.trans ?_ quiet.issues fun ids => ids.quiet quiet
    refine ⟨fun few => ?_, fun few issue more => ?_⟩
    · have issued {s : UInt32} (there : ∃ issue ∈ n.issued ++ [Issue.tcp n.session r],
          issue.udpSession = some s) : n.IssuedUdp s := by
        obtain ⟨issue, member, same⟩ := there
        rcases List.mem_append.mp member with before | new
        · exact ⟨issue, before, same⟩
        · cases List.mem_singleton.mp new
          cases same
      refine ⟨ids.localSide, next, fun {s} there => ?_, fun there => ?_, fun there => ?_,
        ⟨fun {s} there live => ?_, ids.noCollision.udp⟩⟩
      · show 0 < s.toNat ∧ s.toNat ≤ n.allocated + 1
        rcases Map.mem_insert.mp there with rfl | before
        · have value : n.session.toNat = n.allocated + 1 := by rw [ids.counter, toNat_ofNat few]
          omega
        · exact ⟨(ids.tcp before).1, Nat.le_succ_of_le (ids.tcp before).2⟩
      · have before := ids.udp (issued there)
        exact ⟨Nat.le_succ_of_le before.1, fun _ => before.2 few⟩
      · obtain ⟨issue, member, same⟩ := ids.issued there
        exact ⟨issue, List.mem_append_left _ member, same⟩
      · rcases Map.mem_insert.mp there with rfl | before
        · exact meets live
        · exact ids.noCollision.tcp before live
    · have drawn : Issue.tcp n.session r = issue :=
        List.singleton_inj.mp (List.append_cancel_left more)
      rw [← drawn]
      exact ids.fresh_tcp meets few

theorem drawsFresh_newSource (ids : Ids n) (throws : Throws) (src : Endpoint)
    (old : UdpTimeout) : (n.newSource throws src old).Both (DrawsFresh n) := by
  have assigned : DrawsFresh n (n.assignSession src old) := by
    refine ⟨ids.assignSession, fun few issue more => ?_⟩
    have drawn : Issue.udp (n.session + 1) src = issue :=
      List.singleton_inj.mp (List.append_cancel_left more)
    rw [← drawn]
    rintro (there | live)
    · exact (ids.fresh_udp few).1 there
    · exact (ids.fresh_udp few).2 (ids.issued live)
  refine (quiet_restartUdp (n.assignSession src old) throws).andThen_of
    (fun k quiet => assigned.trans quiet.issues fun ids => ids.quiet quiet) fun k quiet => ?_
  have called := quiet.trans (quiet_callUdpSend k (.addPeer (n.session + 1) src))
  have draws := assigned.trans called.issues fun ids => ids.quiet called
  refine ⟨fun few => ?_, draws.fresh⟩
  have drawn : n.allocated + 1 < 2 ^ 32 := lt_of_eq_of_lt called.allocated.symm few
  have added := @Ids.addKey _ (draws.ids few) (n.session + 1) ?_ (fun there => ?_) src
  · rw [(quiet_callUdpSend k _).udpSrcs] at added
    exact added
  · unfold IssuedUdp
    rw [called.issued]
    exact ⟨_, List.mem_append_right _ List.mem_cons_self, rfl⟩
  · obtain ⟨relay, found⟩ := Map.mem_iff.mp there
    exact (ids.fresh_udp drawn).1 (Map.mem_of_lookup (called.relays found))

theorem ids_forwardUdp (ids : Ids n) (throws : Throws) (src : Endpoint) (buf : Frame) :
    (n.forwardUdp throws src buf).Both Ids :=
  (quiet_addRequest _ _ _ _).mono fun _ => (ids.setTimeout src timeoutTicks).quiet

theorem drawsFresh_sendUdpData (ids : Ids n) (throws : Throws) (src : Endpoint) (buf : Frame) :
    (n.sendUdpData throws src buf).Both (DrawsFresh n) := by
  unfold sendUdpData
  split
  · refine (drawsFresh_newSource ids throws src _).andThen fun k draws => ?_
    exact draws.trans (sameIssues_forwardUdp k throws src buf) fun ids =>
      ids_forwardUdp ids throws src buf
  · exact DrawsFresh.of_same (sameIssues_forwardUdp n throws src buf)
      (ids_forwardUdp ids throws src buf)

theorem ids_tick (ids : Ids n) : Ids n.tick := by
  refine tick_rule (ids.quiet (quiet_sslTimeout n)) (fun ids _ _ => ?_) (fun {m} ids => ?_)
    (fun {m src entry} ids found => ?_) (fun ids _ => ?_) fun ids _ => ?_
  · exact (ids.quiet (quiet_stopManager _)).of_subset rfl rfl rfl rfl id id
      fun found _ => ⟨_, found, rfl⟩
  · refine Ids.quiet ?_ (quiet_callUdpSend _ _)
    refine ids.of_subset rfl rfl rfl rfl id (fun there => ?_) fun {e entry} found _ => ?_
    · exact absurd there Map.notMem_empty
    · simp only [Map.lookup_empty, reduceCtorEq] at found
  · unfold visitSource
    split
    · refine Ids.quiet ?_ (quiet_callUdpSend _ _)
      exact ids.of_subset rfl rfl rfl rfl id (fun there => (Map.mem_erase.mp there).2)
        fun found _ => ⟨_, (Map.of_lookup_erase found).2, rfl⟩
    · have kept := ids.setTimeout src (entry.timeout - 1)
      rw [source, found] at kept
      exact kept
  · exact ids.quiet (quiet_visitRelay _ _ _)
  · exact ids.of_subset rfl rfl rfl rfl id id fun found _ => ⟨_, found, rfl⟩

/-- **One step** under the condition. -/
theorem drawsFresh_step {a : NodeAction} (ids : Ids n) (meets : n.IdsMeet a)
    (stepped : n.step a = some m) : DrawsFresh n m := by
  cases stepIs_of_step stepped with
  | accept _ | udpPacket _ | release _ | relay _ _ =>
    refine .of_same ⟨rfl, rfl, rfl, rfl⟩ ?_
    exact ids.of_subset rfl rfl rfl rfl id id fun found _ => ⟨_, found, rfl⟩
  | tick _ => exact .of_same (sameIssues_tick n) (ids_tick ids)
  | @manager throws task strand queue =>
    have ids : Ids { n with strand } :=
      ids.of_subset rfl rfl rfl rfl id id fun found _ => ⟨_, found, rfl⟩
    have meets : n.IdsMeetTask task := meets task (by rw [queue]; rfl)
    suffices draws : (runTask { n with strand } throws task).Both (DrawsFresh { n with strand }) from
      ⟨draws.ids, draws.fresh⟩
    cases task with
    | addRequest relay buf =>
      have quiet := quiet_addRequest { n with strand } throws.newSsl (some relay) buf
      exact .of_same quiet.issues (ids.quiet quiet)
    | addResponse relay buf =>
      exact .of_same (sameIssues_addResponse { n with strand } throws relay buf)
        (ids_addResponse ids meets)
    | addLocalRawTcp relay => exact drawsFresh_addLocalRawTcp ids meets throws relay
    | sendUdpData src buf => exact drawsFresh_sendUdpData ids throws src buf

theorem ids_initLocal {type : ServerType} (localSide : type ≠ .remoteServer) :
    Ids (initLocal type) := by
  refine ⟨localSide, rfl, fun there => absurd there Map.notMem_empty, ?_, ?_, ?_, ?_⟩
  · rintro s ⟨issue, member, _⟩
    exact absurd member List.not_mem_nil
  · rintro s (there | ⟨_, entry, member, _⟩)
    · exact absurd there Map.notMem_empty
    · exact absurd member List.not_mem_nil
  · exact fun there => absurd there Map.notMem_empty
  · intro src src' entry entry' found
    simp only [initLocal, Map.lookup_empty, reduceCtorEq] at found

/-- **Session ids are fresh.** In every state of a local manager reached under the
condition by fewer than `2 ^ 32` draws no two live sessions share an id, and no step
hands out the id of a live session. -/
theorem sessionIds_fresh {type : ServerType} (localSide : type ≠ .remoteServer)
    (run : Reach step IdsMeet (initLocal type) n) (few : n.allocated < 2 ^ 32) :
    NoCollision n ∧ ∀ {a m issue}, n.IdsMeet a → n.step a = some m →
      m.allocated < 2 ^ 32 → m.issued = n.issued ++ [issue] → ¬ n.Live issue.session := by
  have ids : n.allocated < 2 ^ 32 → Ids n :=
    run.invariant (P := fun n => n.allocated < 2 ^ 32 → Ids n)
      (fun _ => ids_initLocal localSide) fun _ ih meets stepped few => by
        have before := Nat.lt_of_le_of_lt (allocated_le_step stepped) few
        exact (drawsFresh_step (ih before) meets stepped).ids few
  exact ⟨(ids few).noCollision, fun meets stepped within more =>
    (drawsFresh_step (ids few) meets stepped).fresh within more⟩

/-- Two connections and then a UDP source get the ids 1, 2 and 4. -/
theorem sessionIds_fresh_mixed :
    ∃ n, Reachable step (initLocal .localTransparent) n ∧ n.allocated = 3 ∧
      1 ∈ n.relays ∧ 2 ∈ n.relays ∧ n.LiveUdp 4 ∧ NoCollision n := by
  have run := @Reach.of_isSome _ _ step IdsMeet (initLocal .localTransparent) _
    [.accept ⟨.v4 #v[1, 1, 1, 1], 80⟩, .manager {}, .accept ⟨.v4 #v[1, 1, 1, 1], 443⟩, .manager {},
      .udpPacket ⟨.v4 #v[10, 0, 0, 1], 5000⟩ (some ⟨.v4 #v[8, 8, 8, 8], 53⟩) (some [1]),
      .manager {}] (by decide +kernel)
  exact ⟨_, run.reachable, by decide +kernel, by decide +kernel, by decide +kernel,
    by decide +kernel, (sessionIds_fresh (by decide) run (by decide +kernel)).1⟩

/-- **A UDP source and a connection share an id** when the first packet of the source
is handled before the connection: both get 2. -/
theorem sessionIds_shared :
    ∃ n, Reachable step (initLocal .localTransparent) n ∧ n.allocated < 2 ^ 32 ∧
      2 ∈ n.relays ∧ n.udpSrcs.lookup 2 = some ⟨.v4 #v[10, 0, 0, 1], 5000⟩ ∧
      ¬ NoCollision n := by
  refine ⟨_, .of_isSome
    [.udpPacket ⟨.v4 #v[10, 0, 0, 1], 5000⟩ (some ⟨.v4 #v[8, 8, 8, 8], 53⟩) (some [1]),
      .manager {}, .accept ⟨.v4 #v[1, 1, 1, 1], 80⟩, .manager {}] (by decide +kernel),
    by decide +kernel, by decide +kernel, by decide +kernel, fun apart => ?_⟩
  exact apart.tcp (s := 2) (by decide +kernel) (by decide +kernel)

end Node

end SslSocks
