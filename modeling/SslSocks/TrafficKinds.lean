import SslSocks.SessionOwners
import SslSocks.System
import SslSocks.UdpWindows

/-!
# TCP and UDP at the remote end

The remote manager keeps both kinds of raw relay in `_relays`, by session alone, so the two
kinds are kept apart by the local manager only: no session may go to a connection while
something of a UDP source is left under it, on either side or on the way, nor the other way
round (`System.KindsMeet`). `kinds_apart` holds in every run under this condition. A local
manager does not make sure of it: `send_udp_data` hands out `++_session`, `add_local_raw_tcp`
hands out `_session++`, and so the first connection after a UDP source gets its id.
-/

namespace SslSocks

open Lib

namespace Node

variable {n m : Node}

/-! ## The messages on their way -/

theorem leftByCalls_feeds : LeftByCalls Relay.Feeds where
  refl _ := .of_same rfl rfl fun _ there => there
  trans := Relay.Feeds.trans
  call r c _ := Relay.feeds_call r c

theorem feeds_step {a : NodeAction} (wf : WellFormed n) (stepped : n.step a = some m)
    {r : RelayId} (known : r < n.next) : (n.objs r).Feeds (m.objs r) := by
  have one : Reach step anyStep n m := Reach.refl.tail trivial stepped
  refine leftByCalls_feeds.run wf one known (fun a s => Relay.feeds_call a _) fun _ handled => ?_
  obtain ⟨h, handle, rfl⟩ := Relay.step_eq_some.mp handled
  have feeds := (Relay.handles_of_handle handle).feeds
  exact feeds.trans (.of_same rfl rfl fun _ there => there)

/-- A message of an ssl relay was on its way before the step, or is asked for in it. -/
theorem ahead_step {a : NodeAction} (wf : WellFormed n) (ledger : n.Ledger) (ledger' : m.Ledger)
    (live : RelaysLive m) (stepped : n.step a = some m) {P : Request → Prop}
    (asked : Asked P n m) {k : RelayId} (known : k < m.next) (ssl : (m.objs k).kind = .ssl)
    {done : Nat} {buf : Frame} (there : buf ∈ (m.objs k).ahead done) :
    k < n.next ∧ (n.objs k).kind = .ssl ∧ buf ∈ (n.objs k).ahead done ∨
      ∃ q, P q ∧ q.buf = buf := by
  obtain ⟨asked, requests, holds⟩ := asked
  -- a message that is given to the relay now is one that is asked for now
  have new (isKnown : n.next ≤ k ∨ (n.objs k).kind = .ssl)
      (given : buf ∈ (m.objs k).log.given.drop (n.objs k).log.given.length) :
      ∃ q, P q ∧ q.buf = buf := by
    have sent : m.requestsTo k = n.requestsTo k ++ asked.filterMap (Request.sentTo k) := by
      unfold requestsTo
      rw [requests, List.filterMap_append]
    rw [ledger'.given k (.inr ssl), ledger.given k isKnown, sent, List.drop_left] at given
    obtain ⟨q, isAsked, is⟩ := List.mem_filterMap.mp given
    unfold Request.sentTo at is
    split at is
    · exact ⟨q, holds q isAsked, Option.some.inj is⟩
    · cases is
  rcases Nat.lt_or_ge k n.next with old | made
  · have feeds := feeds_step wf stepped old
    have one : Reach step anyStep n m := Reach.refl.tail trivial stepped
    have isSsl : (n.objs k).kind = .ssl := (kind_reach wf one old).symm.trans ssl
    rcases feeds.ahead there with before | given
    · exact .inl ⟨old, isSsl, before⟩
    · exact .inr (new (.inr isSsl) given)
  · refine .inr (new (.inl made) ?_)
    rw [ledger.fresh k made]
    have sound := (live k known).fromManager
    rcases List.mem_append.mp there with pushed | posted
    · exact sound.pushed buf (List.mem_of_mem_drop pushed)
    · obtain ⟨task, queued, is⟩ := List.mem_filterMap.mp posted
      cases task with
      | sendData sent =>
        cases is
        exact sound.posted queued
      | _ => cases is

/-- What an ssl relay has pushed can be told apart. -/
theorem accepted_fit {C : Node → NodeAction → Prop} {n₀ : Node} (starts : Starts n₀)
    (run : Reach step C n₀ n) {k : RelayId} (known : k < n.next) (ssl : (n.objs k).kind = .ssl)
    {buf : Frame} (there : buf ∈ (n.objs k).log.accepted) :
    buf.Fits ∧ ∃ q ∈ n.requests, q.buf = buf := by
  obtain ⟨_, ledger, live⟩ := starts.sound run
  have given := (live k known).fromManager.pushed buf there
  rw [ledger.given k (.inr ssl)] at given
  obtain ⟨q, isAsked, is⟩ := List.mem_filterMap.mp given
  unfold Request.sentTo at is
  split at is
  · cases is
    exact ⟨requests_fit starts run isAsked, q, isAsked, rfl⟩
  · cases is

/-- The remote side asks for no connection. -/
theorem requests_remote {C : Node → NodeAction → Prop} (run : Reach step C initRemote n)
    {q : Request} (there : q ∈ n.requests) : q.buf.cmd ≠ .startTcp := by
  intro start
  have starts := Starts.remote
  have type := (grows_reach starts.wellFormed run).type
  cases relay : q.relay with
  | none =>
    rcases (ownAsks_reach starts run q there relay).2 with stop | ⟨isData, _⟩
    · cases stop.symm.trans start
    · cases isData.symm.trans start
  | some r =>
    obtain ⟨known, emitted, asks⟩ := asks_of_request starts run there relay
    have remote : (n.objs r).type = .remoteServer :=
      ((wellFormed_reach starts.wellFormed run).type known).trans type
    cases kind : (n.objs r).kind with
    | ssl =>
      rw [asks.ssl kind] at emitted
      cases emitted
    | rawUdp => cases (asks.udp kind _ emitted).2.symm.trans start
    | rawTcp =>
      rcases asks.tcp kind _ emitted with isData | stop | ⟨localSide, _⟩
      · cases isData.symm.trans start
      · cases stop.symm.trans start
      · exact localSide remote

/-- A message that the manager has, or had, from a relay was delivered by it. -/
theorem delivered_of_answer (ledger : n.Ledger) (live : RelaysLive n) {k : RelayId} {buf : Frame}
    (there : buf ∈ n.answersOf k ++ n.responsesOf k) :
    k < n.next ∧ (n.objs k).kind = .ssl ∧ buf ∈ (n.objs k).log.delivered := by
  rw [ledger.answered k] at there
  have known : k < n.next := by
    by_contra new
    rw [ledger.fresh k (Nat.le_of_not_lt new)] at there
    cases there
  exact ⟨known, (live k known).delivered_ssl there, there⟩

end Node

namespace System

/-! ## The condition -/

/-- The messages on their way to the manager at the other end of a connection. -/
def underWay (y : System) (k : RelayId) : List Frame :=
  (y.loc.objs k).ahead ((y.rem k).answersOf 0).length

/-- Something of this kind is left under the session: on the local side, on the way or on a
remote side. -/
def Left (y : System) (kind : RelayKind) (s : UInt32) : Prop :=
  y.loc.Owns kind s ∨ ∃ k,
    (k < y.loc.next ∧ (y.loc.objs k).kind = .ssl ∧
      ∃ buf ∈ y.underWay k, buf.For kind ∧ buf.session = s) ∨ (y.rem k).Holds kind s

/-- An id that is handed out is not one under which something of the other kind is left. -/
def KindsMeet (y : System) : SystemAction → Prop
  | .loc a => ∀ issue ∈ y.loc.draws a, ∀ kind, y.Left kind issue.session → kind = issue.kind
  | .rem _ _ => True

variable {y z : System} {type : ServerType}

/-! ## What the managers hear -/

/-- A message that the remote manager has from its connection is on its way until it is
handled. -/
theorem Joined.handles_underWay (joined : Joined type y) (localSide : type ≠ .remoteServer)
    {j k : RelayId} {buf : Frame}
    (head : (y.rem k).strand.head? = some (.addResponse j buf)) :
    k < y.loc.next ∧ (y.loc.objs k).kind = .ssl ∧ buf ∈ y.underWay k := by
  obtain ⟨_, ledger, live⟩ := joined.soundRem k
  obtain ⟨strand, queue⟩ := List.head?_eq_some_iff.mp head
  have first : (y.rem k).responsesOf j = buf :: strand.filterMap (ManagerTask.responseOf j) := by
    rw [Node.responsesOf_cons queue,
      show ManagerTask.responseOf j (.addResponse j buf) = some buf from if_pos rfl]
    rfl
  have waits : buf ∈ (y.rem k).answersOf j ++ (y.rem k).responsesOf j :=
    List.mem_append_right _ (first ▸ List.mem_cons_self)
  obtain ⟨known, isSsl, _⟩ := Node.delivered_of_answer ledger live waits
  obtain rfl := Node.remote_ssl (joined.rem k) known isSsl
  have lives := live 0 known
  have delivered := ledger.answered 0
  rw [first] at delivered
  rcases joined.down k with none | ⟨made, ssl, heard⟩
  · have nothing : ((y.rem k).objs 0).log.delivered <+: [] :=
      delivered_prefix lives isSsl (none ▸ List.nil_prefix) List.nil_prefix
        fun _ there => absurd there List.not_mem_nil
    rw [List.prefix_nil.mp nothing] at delivered
    cases (List.append_eq_nil_iff.mp delivered).2
  · have relay := (joined.soundLoc localSide).live k made
    have begins : ((y.rem k).objs 0).log.delivered <+: (y.loc.objs k).log.accepted :=
      delivered_prefix lives isSsl heard (relay.written_encodes ssl) fun buf there =>
        (Node.accepted_fit (.localSide localSide) joined.loc made ssl there).1
    rw [← delivered] at begins
    obtain ⟨rest, accepted⟩ := begins
    refine ⟨made, ssl, List.mem_append_left _ ?_⟩
    rw [← accepted, List.append_assoc, List.drop_left]
    exact List.mem_cons_self

/-- The remote side opens no connection. -/
theorem Joined.hears_noStart (joined : Joined type y) (localSide : type ≠ .remoteServer)
    {k : RelayId} {buf : Frame} (there : buf ∈ y.loc.answersOf k ++ y.loc.responsesOf k) :
    buf.cmd ≠ .startTcp := by
  obtain ⟨_, ledger, live⟩ := joined.soundLoc localSide
  obtain ⟨known, ssl, delivered⟩ := Node.delivered_of_answer ledger live there
  obtain ⟨first, isSsl⟩ := joined.rem_ssl k
  have far := (joined.soundRem k).live 0 first
  have fits {buf : Frame} (pushed : buf ∈ ((y.rem k).objs 0).log.accepted) :=
    Node.accepted_fit Node.Starts.remote (joined.rem k) first isSsl pushed
  have begins := joined.delivered_up localSide known ssl (far.written_encodes isSsl)
    fun buf pushed => (fits pushed).1
  obtain ⟨_, q, asked, rfl⟩ := fits (begins.subset delivered)
  exact Node.requests_remote (joined.rem k) asked

/-! ## What is left under a session -/

theorem Joined.unwelcome (joined : Joined type y) (localSide : type ≠ .remoteServer) :
    ¬ y.loc.Welcomed := by
  intro welcomed
  obtain ⟨s, ⟨k, buf⟩, there, start, _⟩ := welcomed
  refine joined.hears_noStart localSide (k := k) (List.mem_append_left _ ?_) start
  exact List.mem_filterMap.mpr ⟨(k, buf), there, if_pos rfl⟩

/-- A step of the local side leaves something new only under an id that it hands out. -/
theorem Joined.left_loc (joined : Joined type y) (localSide : type ≠ .remoteServer)
    {a : NodeAction} {n : Node} (stepped : y.loc.step a = some n) {kind : RelayKind} {s : UInt32}
    (left : Left { y with loc := n } kind s) : y.Left kind s ∨ y.loc.Draws a kind s := by
  obtain ⟨wf, ledger, live⟩ := joined.soundLoc localSide
  have sound : n.Sound :=
    (Node.Starts.localSide localSide).sound (joined.loc.tail trivial stepped)
  have asks := Node.asks_step wf ledger live (Node.traced_reach localSide joined.loc)
    (joined.unwelcome localSide) (Node.localSide_reach localSide joined.loc)
    (fun {k buf} head => by
      obtain ⟨strand, queue⟩ := List.head?_eq_some_iff.mp head
      refine joined.hears_noStart localSide (k := k) (List.mem_append_right _ ?_)
      rw [Node.responsesOf_cons queue]
      exact List.mem_append_left _ (Option.mem_toList.mpr (if_pos rfl))) stepped
  rcases left with owns | ⟨k, ⟨known, ssl, buf, there, isFor, same⟩ | holds⟩
  · exact (Node.owns_step wf (Node.begun_reach joined.loc) stepped owns).imp .inl id
  · have before := Node.ahead_step wf ledger sound.ledger sound.live stepped asks known ssl there
    rcases before with ⟨made, isSsl, before⟩ | ⟨q, reason, rfl⟩
    · exact .inl (.inr ⟨k, .inl ⟨made, isSsl, buf, before, isFor, same⟩⟩)
    · rw [← same]
      exact (reason kind isFor).imp .inl id
  · exact .inl (.inr ⟨k, .inr holds⟩)

/-- No session is left to two kinds, and no relay of a remote side was given a message of
another kind. -/
structure Apart (y : System) : Prop where
  exclusive : Exclusive y.Left
  given : ∀ k {r}, r < (y.rem k).next →
    ∀ buf ∈ (y.rem k).givenTo r, Suits ((y.rem k).objs r).kind buf

theorem Apart.unmixed (apart : Apart y) (joined : Joined type y) (k : RelayId) :
    (y.rem k).Unmixed y.Left := by
  have wf := (joined.soundRem k).wf
  refine ⟨apart.given k, fun {s r} there => ?_⟩
  exact ⟨(wf.relays there).1.1, .inr ⟨k, .inr ⟨r, there, rfl⟩⟩⟩

/-- A message that a remote manager is about to handle. -/
theorem Joined.left_head (joined : Joined type y) (localSide : type ≠ .remoteServer)
    {j k : RelayId} {buf : Frame} (head : (y.rem k).strand.head? = some (.addResponse j buf))
    {kind : RelayKind} (isFor : buf.For kind) : y.Left kind buf.session := by
  obtain ⟨known, ssl, there⟩ := joined.handles_underWay localSide head
  exact .inr ⟨k, .inl ⟨known, ssl, buf, there, isFor, rfl⟩⟩

/-- A step of a remote side leaves nothing new. -/
theorem Joined.left_rem (joined : Joined type y) {k : RelayId} {a : NodeAction} {n : Node}
    (stepped : (y.rem k).step a = some n) (unmixed : n.Unmixed y.Left) {kind : RelayKind}
    {s : UInt32} (left : Left { y with rem := Function.update y.rem k n } kind s) :
    y.Left kind s := by
  have wf := (joined.soundRem k).wf
  have one : Reach Node.step anyStep (y.rem k) n := Reach.refl.tail trivial stepped
  have more : ((y.rem k).answersOf 0).length ≤ (n.answersOf 0).length :=
    ((Node.grows_reach wf one).answered.filterMap _).length_le
  rcases left with owns | ⟨j, ⟨known, ssl, buf, there, isFor, same⟩ | ⟨r, there, isKind⟩⟩
  · exact .inl owns
  · refine .inr ⟨j, .inl ⟨known, ssl, buf, ?_, isFor, same⟩⟩
    replace there : buf ∈ (y.loc.objs j).ahead ((Function.update y.rem k n j).answersOf 0).length :=
      there
    by_cases is : j = k
    · subst is
      rw [Function.update_self] at there
      refine List.mem_append.mpr ((List.mem_append.mp there).imp (fun pushed => ?_) id)
      exact (List.drop_sublist_drop_left _ more).subset pushed
    · rw [Function.update_of_ne is] at there
      exact there
  · replace there : (Function.update y.rem k n j).relays.lookup s = some (some r) := there
    replace isKind : ((Function.update y.rem k n j).objs r).kind = kind := isKind
    by_cases is : j = k
    · subst is
      rw [Function.update_self] at there isKind
      exact isKind ▸ (unmixed.keys there).2
    · rw [Function.update_of_ne is] at there isKind
      exact .inr ⟨j, .inr ⟨r, there, isKind⟩⟩

theorem left_init {kind : RelayKind} {s : UInt32} : ¬ (init type).Left kind s := by
  intro left
  rcases left with owns | ⟨k, ⟨known, ssl, _⟩ | ⟨r, there, _⟩⟩
  · cases kind with
    | rawTcp =>
      obtain ⟨r, issued, _⟩ := owns
      cases issued
    | rawUdp =>
      obtain ⟨_, src, entry, there, _⟩ := owns
      replace there : (∅ : Map Endpoint UdpTimeout).lookup src = some entry := there
      rw [Map.lookup_empty] at there
      cases there
    | ssl => exact owns
  · cases ssl
  · replace there : (∅ : Map UInt32 (Option RelayId)).lookup s = some (some r) := there
    rw [Map.lookup_empty] at there
    cases there

theorem apart_init : Apart (init type) := by
  refine ⟨fun s kind kind' left => absurd left left_init, fun k r _ buf there => ?_⟩
  replace there : buf ∈ (Node.initRemote.objs r).log.given := there
  cases there

/-- A remote side keeps the kinds apart for as long as nothing is left to two of them. -/
theorem Apart.unmixed_rem (apart : Apart y) (joined : Joined type y)
    (localSide : type ≠ .remoteServer) {k : RelayId} {a : NodeAction} {n : Node}
    (stepped : (y.rem k).step a = some n) : n.Unmixed y.Left := by
  have wf := (joined.soundRem k).wf
  have tasks : Node.RemoteTasks (y.rem k) := (joined.rem k).invariant
    Node.remoteTasks_initRemote fun _ tasks _ stepped => Node.remoteTasks_step tasks stepped
  exact Node.unmixed_step (apart.unmixed joined k) wf tasks apart.exclusive
    (fun head kind isFor => joined.left_head localSide head isFor) stepped

/-- **One step** under the condition. -/
theorem apart_step (localSide : type ≠ .remoteServer) (joined : Joined type y) (apart : Apart y)
    {a : SystemAction} (meets : y.KindsMeet a) (stepped : y.step a = some z) : Apart z := by
  cases a with
  | loc a =>
    obtain ⟨_, n, step, rfl⟩ := step_loc stepped
    refine ⟨fun s kind kind' first second => ?_, apart.given⟩
    have old {kind : RelayKind} (left : Left { y with loc := n } kind s) :=
      joined.left_loc localSide step left
    rcases old first with before | ⟨issue, drawn, rfl, rfl⟩
    · rcases old second with before' | ⟨issue, drawn, rfl, rfl⟩
      · exact apart.exclusive _ _ _ before before'
      · exact meets issue drawn kind before
    · rcases old second with before' | ⟨issue', drawn', rfl, _⟩
      · exact (meets issue drawn kind' before').symm
      · cases drawn.symm.trans drawn'
        rfl
  | rem k a =>
    obtain ⟨_, n, step, rfl⟩ := step_rem stepped
    have unmixed := apart.unmixed_rem joined localSide step
    refine ⟨fun s kind kind' first second => ?_, fun j r known buf there => ?_⟩
    · exact apart.exclusive _ _ _ (joined.left_rem step unmixed first)
        (joined.left_rem step unmixed second)
    · replace known : r < (Function.update y.rem k n j).next := known
      replace there : buf ∈ (Function.update y.rem k n j).givenTo r := there
      show Suits ((Function.update y.rem k n j).objs r).kind buf
      by_cases is : j = k
      · subst is
        rw [Function.update_self] at known there ⊢
        exact unmixed.given known buf there
      · rw [Function.update_of_ne is] at known there ⊢
        exact apart.given j known buf there

theorem apart_reach (localSide : type ≠ .remoteServer)
    (run : Reach step KindsMeet (init type) y) : Apart y :=
  run.invariant apart_init fun before apart meets stepped =>
    apart_step localSide (joined_reach localSide before) apart meets stepped

/-- **TCP and UDP traffic stay apart at the remote end.** In every run under the condition,
what was given to a raw_tcp, and so what it wrote, is data of connections, what was given to a
raw_udp is datagrams, and the relay that a message finds under its session is of its kind: no
`START_TCP` stops a raw_udp. -/
theorem kinds_apart (localSide : type ≠ .remoteServer)
    (run : Reach step KindsMeet (init type) y) (k : RelayId) :
    (∀ r < (y.rem k).next, ((y.rem k).objs r).kind = .rawTcp →
      (∀ buf ∈ (y.rem k).givenTo r, buf.cmd = .dataTcp) ∧
      ∃ bufs : List Frame, ((y.rem k).objs r).log.written <+: bufs.flatMap Frame.payload ∧
        ∀ buf ∈ bufs, buf ∈ (y.rem k).givenTo r) ∧
    (∀ r < (y.rem k).next, ((y.rem k).objs r).kind = .rawUdp →
      ∀ buf ∈ (y.rem k).givenTo r, buf.cmd = .dataUdp) ∧
    ∀ j buf, (y.rem k).strand.head? = some (.addResponse j buf) → ∀ kind, buf.For kind →
      ∀ r, (y.rem k).relays.lookup buf.session = some (some r) →
        ((y.rem k).objs r).kind = kind := by
  have apart := apart_reach localSide run
  have joined := joined_reach localSide run
  have live := (joined.soundRem k).live
  refine ⟨?_, ?_, ?_⟩
  · intro r known isTcp
    have lives := live r known
    have stream : ((y.rem k).objs r).kind ≠ .rawUdp := by
      rw [isTcp]
      decide
    have text : ((y.rem k).objs r).text = Frame.payload := by
      funext buf
      apply if_neg
      rw [isTcp]
      decide
    have written := lives.written_pushed stream
    rw [text] at written
    exact ⟨fun buf there => (apart.given k known buf there).1 isTcp, _, written,
      lives.fromManager.pushed⟩
  · intro r known isUdp buf there
    exact (apart.given k known buf there).2 isUdp
  · intro j buf head kind isFor r there
    exact apart.exclusive _ _ _ (.inr ⟨k, .inr ⟨r, there, rfl⟩⟩)
      (joined.left_head localSide head isFor)

/-! ## Ids that were never handed out -/

/-- An id that is handed out never went to the other kind before. -/
def NewIds (y : System) : SystemAction → Prop
  | .loc a => ∀ issue ∈ y.loc.draws a, ∀ old ∈ y.loc.issued,
    old.session = issue.session → old.kind = issue.kind
  | .rem _ _ => True

instance (y : System) : DecidablePred y.NewIds
  | .loc _ => inferInstanceAs (Decidable (∀ _ ∈ _, ∀ _ ∈ _, _ → _))
  | .rem _ _ => isTrue trivial

/-- Only what once got an id leaves something under it. -/
def LeftIssued (y : System) : Prop :=
  ∀ kind s, y.Left kind s → ∃ old ∈ y.loc.issued, old.kind = kind ∧ old.session = s

theorem LeftIssued.meets (issued : LeftIssued y) {a : SystemAction} (new : y.NewIds a) :
    y.KindsMeet a := by
  cases a with
  | loc a =>
    intro issue drawn kind left
    obtain ⟨old, there, rfl, same⟩ := issued kind issue.session left
    exact new issue drawn old there same
  | rem k a => exact trivial

/-- A run in which no id goes to both kinds. -/
theorem kindsMeet_of_newIds (localSide : type ≠ .remoteServer)
    (run : Reach step NewIds (init type) y) : Reach step KindsMeet (init type) y := by
  suffices both : Reach step KindsMeet (init type) y ∧ LeftIssued y from both.1
  refine run.invariant (P := fun y => Reach step KindsMeet (init type) y ∧ LeftIssued y)
    ⟨.refl, fun kind s left => absurd left left_init⟩ fun {t a t'} _ holds new stepped => ?_
  obtain ⟨before, issued⟩ := holds
  have meets := issued.meets new
  refine ⟨before.tail meets stepped, ?_⟩
  have joined := joined_reach localSide before
  cases a with
  | loc a =>
    obtain ⟨_, n, step, rfl⟩ := step_loc stepped
    intro kind s left
    have grows := (Node.counts_step step).issued
    rcases joined.left_loc localSide step left with old | ⟨issue, drawn, same⟩
    · obtain ⟨old, there, same⟩ := issued kind s old
      refine ⟨old, ?_, same⟩
      show old ∈ n.issued
      rw [grows]
      exact List.mem_append_left _ there
    · refine ⟨issue, ?_, same⟩
      show issue ∈ n.issued
      rw [grows]
      exact List.mem_append_right _ (Option.mem_toList.mpr drawn)
  | rem k a =>
    obtain ⟨_, n, step, rfl⟩ := step_rem stepped
    have unmixed := (apart_reach localSide before).unmixed_rem joined localSide step
    exact fun kind s left => issued kind s (joined.left_rem step unmixed left)

/-! ## Runs -/

/-- The first ssl relay connects, with the messages that wait for it. -/
def connectSsl (k : RelayId) (messages : Nat) : List SystemAction :=
  List.replicate 3 (.loc (.relay k (.startup true))) ++
    List.replicate messages (.loc (.relay k .task)) ++
    [.loc (.relay k (.startSend 0)), .rem k (.relay 0 (.startup true))]

/-- A message is written, read at the other end, and handled. -/
def carry (k : RelayId) (buf : Frame) : List SystemAction :=
  [.loc (.relay k (.take buf.encode.length)), .loc (.relay k (.sent 0)),
    .rem k (.relay 0 (.arrive (.stream (buf.encode.take headerSize)))), .rem k (.relay 0 .read),
    .rem k (.relay 0 (.arrive (.stream (buf.encode.drop headerSize)))), .rem k (.relay 0 .read),
    .rem k (.manager {})]

/-- A packet from a source to a name server. -/
def packet : List SystemAction :=
  [.loc (.udpPacket (.ipv4 127 0 0 1 9) (some (.ipv4 8 8 8 8 53)) (some [7])), .loc (.manager {})]

/-- A connection to a web server. -/
def connection : List SystemAction :=
  [.loc (.accept (.ipv4 8 8 8 8 80)), .loc (.manager {})]

def query (session : UInt32) : Frame :=
  ⟨session, .dataUdp, udpHead (some (.ipv4 8 8 8 8 53)) ++ [7]⟩

def opening (session : UInt32) : Frame := ⟨session, .startTcp, parseAddr (.ipv4 8 8 8 8 80)⟩

/-- A connection and a source get the ids 1 and 3, and each its relay at the other end. -/
theorem kinds_apart_ordered :
    ∃ y, Reach step NewIds (init .localTransparent) y ∧ (y.rem 2).givenTo 2 = [query 3] ∧
      ((y.rem 2).objs 1).kind = .rawTcp ∧ ((y.rem 2).objs 2).kind = .rawUdp ∧
      ∀ buf ∈ (y.rem 2).givenTo 1, buf.cmd = .dataTcp := by
  have run := @Reach.of_isSome _ _ step NewIds (init .localTransparent) _
    (connection ++ packet ++ connectSsl 2 2 ++ carry 2 (opening 1) ++ carry 2 (query 3))
    (by decide +kernel)
  refine ⟨_, run, by decide +kernel, by decide +kernel, by decide +kernel, ?_⟩
  have localSide : ServerType.localTransparent ≠ .remoteServer := by decide
  have all := (kinds_apart localSide (kindsMeet_of_newIds localSide run) 2).1 1
  exact (all (by decide +kernel) (by decide +kernel)).1

/-- **A datagram in a TCP stream**: a source gets the id 2 and so does the connection after
it. At the other end its `START_TCP` stops the raw_udp of the source, and the next packet of
the source is given to the raw_tcp. -/
theorem kinds_crossed :
    ∃ y, Reachable step (init .localTransparent) y ∧ ((y.rem 1).objs 1).kind = .rawUdp ∧
      ((y.rem 1).objs 1).log.stopCalled = true ∧ ((y.rem 1).objs 2).kind = .rawTcp ∧
      (y.rem 1).givenTo 2 = [query 2] := by
  have run := @Reach.of_isSome _ _ step anyStep (init .localTransparent) _
    (packet ++ connection ++ packet ++ connectSsl 1 3 ++ carry 1 (query 2) ++
      carry 1 (opening 2) ++ carry 1 (query 2)) (by decide +kernel)
  exact ⟨_, run, by decide +kernel, by decide +kernel, by decide +kernel, by decide +kernel⟩

end System

end SslSocks
