import SslSocks.NodeRelays

/-!
# The histories of a node agree

Each relay logs what it was given, what it asked and what it delivered; the manager logs
the calls of `add_request` and of `add_response`. `Ledger` says that the two accounts
agree: an ssl relay was given exactly the requests that went to it, what a relay asked is
what `add_request` has handled for it followed by what still waits in the strand, and the
same for what an ssl relay delivered. `ledger_reach` proves it for every run, and
`Gives` says what one part of a handler may give to one relay.
-/

namespace SslSocks

open Lib

/-- The message, when the request went to the ssl relay. -/
def Request.sentTo (k : RelayId) (q : Request) : Option Frame :=
  if q.ssl = some k then some q.buf else none

/-- The message, when the relay asked. -/
def Request.askedBy (r : RelayId) (q : Request) : Option Frame :=
  if q.relay = some r then some q.buf else none

def ManagerTask.requestOf (r : RelayId) : ManagerTask → Option Frame
  | .addRequest a buf => if a = r then some buf else none
  | _ => none

def ManagerTask.responseOf (k : RelayId) : ManagerTask → Option Frame
  | .addResponse a buf => if a = k then some buf else none
  | _ => none

/-- A handler leaves to `Relay.note` what it asks and delivers. -/
theorem Relay.Handles.notes {alive : Bool} {r r' : Relay} {ev : RelayEvent} {outs : List RelayOut}
    (handled : Handles alive r ev r' outs) :
    r'.log.emitted = r.log.emitted ∧ r'.log.delivered = r.log.delivered := by
  have stop (a : Relay) : a.stopHere.log.emitted = a.log.emitted ∧
      a.stopHere.log.delivered = a.log.delivered := by
    rcases stopHere_cases a with ⟨_, same⟩ | ⟨_, ⟨_, same⟩ | ⟨bound, same⟩⟩ <;> rw [same] <;>
      exact ⟨rfl, rfl⟩
  have sends {a b : Relay} (loop : SendLoop a b) : b.log.emitted = a.log.emitted ∧
      b.log.delivered = a.log.delivered := by
    cases loop with
    | threw => exact stop _
    | _ => exact ⟨rfl, rfl⟩
  cases handled with
  | @stopTask inbox _ =>
    rcases stopTask_cases { r with inbox } with ⟨_, same⟩ | ⟨bound, same⟩ <;> rw [same] <;>
      exact ⟨rfl, rfl⟩
  | startSend _ _ loop | sent _ loop =>
    have both := sends loop
    exact both
  | sendError | readThrew | readError | startupThrew | requestBad | directFailed => exact stop _
  | _ => exact ⟨rfl, rfl⟩

namespace Node

/-- The requests that went to the ssl relay, and those of the relay. -/
def requestsTo (n : Node) (k : RelayId) : List Frame := n.requests.filterMap (Request.sentTo k)

def requestsBy (n : Node) (r : RelayId) : List Frame := n.requests.filterMap (Request.askedBy r)

/-- The messages of the ssl relay that `add_response` has handled. -/
def answersOf (n : Node) (k : RelayId) : List Frame :=
  n.answered.filterMap fun entry => if entry.1 = k then some entry.2 else none

/-- What waits in the strand. -/
def queuedBy (n : Node) (r : RelayId) : List Frame := n.strand.filterMap (ManagerTask.requestOf r)

def responsesOf (n : Node) (k : RelayId) : List Frame :=
  n.strand.filterMap (ManagerTask.responseOf k)

/-- The accounts agree, but for messages that the relays are about to ask. -/
structure Owing (owed : RelayId → List Frame) (n : Node) : Prop where
  fresh : ∀ r, n.next ≤ r → (n.objs r).log = {}
  given : ∀ r, n.next ≤ r ∨ (n.objs r).kind = .ssl → (n.objs r).log.given = n.requestsTo r
  asked : ∀ r, n.requestsBy r ++ owed r ++ n.queuedBy r = (n.objs r).log.emitted
  answered : ∀ k, n.answersOf k ++ n.responsesOf k = (n.objs k).log.delivered

/-- The accounts agree. -/
def Ledger (n : Node) : Prop := n.Owing fun _ => []

variable {n m : Node} {owed : RelayId → List Frame}

/-! ## The accounts and the parts of a handler -/

/-- A call that gives no message to an ssl relay. -/
theorem Owing.call (owing : n.Owing owed) {r : RelayId} {c : RelayCall} (known : r < n.next)
    (quiet : ∀ buf, c ≠ .emit buf) (raw : (n.objs r).kind ≠ .ssl ∨ ∀ buf, c ≠ .sendData buf) :
    (n.call r c).Owing owed := by
  have called := Relay.calls_call (n.objs r) c
  generalize calledIs : (n.objs r).call c = r' at called
  have objs (a : RelayId) : (n.call r c).objs a = if a = r then r' else n.objs a := by
    rw [objs_call, calledIs]
  refine ⟨fun a new => ?_, fun a which => ?_, fun a => ?_, fun a => ?_⟩
  · have other : a ≠ r := Nat.ne_of_gt (Nat.lt_of_lt_of_le known new)
    rw [objs, if_neg other]
    exact owing.fresh a new
  · rw [objs] at which ⊢
    split
    · rename_i same
      rw [if_pos same] at which
      have ssl : r'.kind = .ssl :=
        which.resolve_left fun later => Nat.not_lt_of_le later (same ▸ known)
      have given : r'.log.given = (n.objs r).log.given ∧ (n.objs r).kind = .ssl := by
        cases called with
        | @sendData buf =>
          rcases raw with raw | other
          · exact absurd ssl raw
          · exact absurd rfl (other buf)
        | _ => exact ⟨rfl, ssl⟩
      rw [given.1, same]
      exact owing.given r (.inr given.2)
    · rename_i other
      rw [if_neg other] at which
      exact owing.given a which
  · rw [objs]
    split
    · rename_i same
      have emitted : r'.log.emitted = (n.objs r).log.emitted := by
        cases called with
        | @emit buf => exact absurd rfl (quiet buf)
        | _ => rfl
      rw [emitted, same]
      exact owing.asked r
    · exact owing.asked a
  · rw [objs]
    split
    · rename_i same
      have delivered : r'.log.delivered = (n.objs r).log.delivered := by cases called <;> rfl
      rw [delivered, same]
      exact owing.answered r
    · exact owing.answered a

/-- A relay is made. -/
theorem Owing.make (owing : n.Owing owed) {relay : Relay} (log : relay.log = {}) :
    (n.make relay).Owing owed := by
  have new := owing.fresh n.next (Nat.le_refl _)
  refine ⟨fun a later => ?_, fun a which => ?_, fun a => ?_, fun a => ?_⟩
  · rw [objs_make, if_neg (Nat.ne_of_gt later)]
    exact owing.fresh a (Nat.le_of_succ_le later)
  · rw [objs_make] at which ⊢
    split
    · rename_i same
      rw [log, same]
      have before := owing.given n.next (.inl (Nat.le_refl _))
      rw [new] at before
      exact before
    · rename_i other
      rw [if_neg other] at which
      exact owing.given a (which.imp Nat.le_of_succ_le id)
  · rw [objs_make]
    split
    · rename_i same
      rw [log, same]
      have before := owing.asked n.next
      rw [new] at before
      exact before
    · exact owing.asked a
  · rw [objs_make]
    split
    · rename_i same
      rw [log, same]
      have before := owing.answered n.next
      rw [new] at before
      exact before
    · exact owing.answered a

/-- Only the strand, the histories and what has no account may differ. -/
theorem Owing.of_same (owing : n.Owing owed) (next : m.next = n.next) (objs : m.objs = n.objs)
    (requests : m.requests = n.requests) {owed' : RelayId → List Frame}
    (queued : ∀ r, owed' r ++ m.queuedBy r = owed r ++ n.queuedBy r)
    (responses : ∀ k, m.answersOf k ++ m.responsesOf k = n.answersOf k ++ n.responsesOf k) :
    m.Owing owed' := by
  refine ⟨fun r later => ?_, fun r which => ?_, fun r => ?_, fun k => ?_⟩
  · rw [objs]
    exact owing.fresh r (next ▸ later)
  · rw [objs] at which ⊢
    rw [requestsTo, requests]
    exact owing.given r (next ▸ which)
  · have asked := owing.asked r
    rw [List.append_assoc] at asked
    rw [objs, List.append_assoc, queued, requestsBy, requests]
    exact asked
  · rw [objs, responses]
    exact owing.answered k

theorem mem_requestsBy {r : RelayId} {buf : Frame} :
    buf ∈ n.requestsBy r ↔ ∃ q ∈ n.requests, q.relay = some r ∧ q.buf = buf := by
  unfold requestsBy
  simp only [List.mem_filterMap, Request.askedBy, Option.ite_none_right_eq_some, Option.some.injEq]

/-- What a relay was noted to ask, it asked. -/
theorem emitted_of_request (ledger : n.Ledger) {q : Request} {r : RelayId}
    (there : q ∈ n.requests) (relay : q.relay = some r) :
    q.buf ∈ (n.objs r).log.emitted ∧ r < n.next := by
  have emitted : q.buf ∈ (n.objs r).log.emitted := by
    rw [← ledger.asked r]
    exact List.mem_append_left _ (List.mem_append_left _ (mem_requestsBy.mpr ⟨q, there, relay, rfl⟩))
  refine ⟨emitted, ?_⟩
  by_contra new
  rw [ledger.fresh r (Nat.le_of_not_lt new)] at emitted
  cases emitted

theorem queuedBy_cons {task : ManagerTask} {strand : List ManagerTask}
    (queue : n.strand = task :: strand) (r : RelayId) :
    n.queuedBy r = (task.requestOf r).toList ++ strand.filterMap (ManagerTask.requestOf r) := by
  rw [queuedBy, queue, List.filterMap_cons]
  cases task.requestOf r <;> rfl

theorem responsesOf_cons {task : ManagerTask} {strand : List ManagerTask}
    (queue : n.strand = task :: strand) (k : RelayId) :
    n.responsesOf k = (task.responseOf k).toList ++ strand.filterMap (ManagerTask.responseOf k) := by
  rw [responsesOf, queue, List.filterMap_cons]
  cases task.responseOf k <;> rfl

/-- The request that was owed is made. -/
theorem Owing.requested {relay : Option RelayId} {buf : Frame}
    (owing : n.Owing fun a => if relay = some a then [buf] else [])
    (requested : Requested relay buf n m) (wf : WellFormed n) : m.Ledger := by
  -- the account of the relay that asked
  have asked {ssl : Option RelayId} (r : RelayId) :
      (n.requests ++ [Request.mk ssl relay buf]).filterMap (Request.askedBy r) ++ [] ++
        n.queuedBy r = (n.objs r).log.emitted := by
    rw [← owing.asked r, requestsBy, List.filterMap_append, List.append_nil]
    congr 2
    by_cases same : relay = some r
    · simp only [List.filterMap_cons, List.filterMap_nil, Request.askedBy, same, ↓reduceIte]
    · simp only [List.filterMap_cons, List.filterMap_nil, Request.askedBy, same, ↓reduceIte]
  have sent {m : Node} {k : RelayId} (requests : m.requests = n.requests ++ [⟨some k, relay, buf⟩])
      (r : RelayId) : m.requestsTo r = n.requestsTo r ++ if r = k then [buf] else [] := by
    rw [requestsTo, requests, List.filterMap_append]
    congr 1
    by_cases same : r = k
    · simp only [List.filterMap_cons, List.filterMap_nil, Request.sentTo, same, ↓reduceIte]
    · have other : k ≠ r := fun eq => same eq.symm
      simp only [List.filterMap_cons, List.filterMap_nil, Request.sentTo, same, other,
        Option.some.injEq, ↓reduceIte]
  -- the message goes to the ssl relay `k`, which is there or is made for it
  have passed {m : Node} {k : RelayId} {relay' : Relay}
      (objs : ∀ a, m.objs a = if a = k then relay' else n.objs a)
      (requests : m.requests = n.requests ++ [⟨some k, relay, buf⟩])
      (strand : m.strand = n.strand) (answered : m.answered = n.answered)
      (ssl : n.next ≤ k ∨ (n.objs k).kind = .ssl)
      (log : relay'.log.given = (n.objs k).log.given ++ [buf] ∧
        relay'.log.emitted = (n.objs k).log.emitted ∧
        relay'.log.delivered = (n.objs k).log.delivered)
      (next : ∀ a, m.next ≤ a → n.next ≤ a ∧ a ≠ k) : m.Ledger := by
    refine ⟨fun a later => ?_, fun a which => ?_, fun a => ?_, fun a => ?_⟩
    · obtain ⟨old, other⟩ := next a later
      rw [objs, if_neg other]
      exact owing.fresh a old
    · rw [sent requests a]
      rw [objs] at which ⊢
      split
      · rename_i same
        rw [log.1, same, owing.given k ssl]
      · rename_i other
        rw [if_neg other] at which
        rw [List.append_nil]
        exact owing.given a (which.imp (fun later => (next a later).1) id)
    · rw [objs, requestsBy, requests, queuedBy, strand]
      refine (asked a).trans ?_
      split
      · rename_i same
        rw [log.2.1, same]
      · rfl
    · rw [objs, answersOf, answered, responsesOf, strand]
      refine (owing.answered a).trans ?_
      split
      · rename_i same
        rw [log.2.2, same]
      · rfl
  cases requested with
  | @sent k current _ =>
    obtain ⟨known, ssl⟩ := wf.ssl current
    refine passed (k := k) (fun a => objs_call n k a (.sendData buf)) rfl rfl rfl (.inr ssl)
      ⟨rfl, rfl, rfl⟩ fun a later => ⟨later, ?_⟩
    exact Nat.ne_of_gt (Nat.lt_of_lt_of_le known later)
  | made _ localSide =>
    have new := owing.fresh n.next (Nat.le_refl _)
    refine passed (k := n.next) (fun a => objs_make n _ a) rfl rfl rfl (.inl (Nat.le_refl _)) ?_
      fun a later => ⟨Nat.le_of_succ_le later, Nat.ne_of_gt later⟩
    rw [new]
    exact ⟨rfl, rfl, rfl⟩
  | lost _ =>
    refine ⟨owing.fresh, fun a which => ?_, fun a => asked a, owing.answered⟩
    rw [owing.given a which, requestsTo, requestsTo, List.filterMap_append]
    exact (List.append_nil _).symm

theorem queuedBy_eq_nil {r : RelayId} (none : ∀ later, .addRequest r later ∉ n.strand) :
    n.queuedBy r = [] := by
  refine List.filterMap_eq_nil_iff.mpr fun task there => ?_
  cases task with
  | addRequest a later =>
    refine if_neg ?_
    rintro rfl
    exact none later there
  | addResponse | addLocalRawTcp | sendUdpData => rfl

/-- A relay asks in the manager's strand; nothing of it waits there. -/
theorem Owing.emit (ledger : n.Ledger) {r : RelayId} {buf : Frame} (known : r < n.next)
    (none : ∀ later, .addRequest r later ∉ n.strand) :
    (n.call r (.emit buf)).Owing fun a => if some r = some a then [buf] else [] := by
  have empty := queuedBy_eq_nil none
  refine ⟨fun a later => ?_, fun a which => ?_, fun a => ?_, fun a => ?_⟩
  · rw [objs_call_of_ne _ (Nat.ne_of_gt (Nat.lt_of_lt_of_le known later))]
    exact ledger.fresh a later
  · rw [objs_call_kind] at which
    have given := ledger.given a which
    rw [objs_call]
    split
    · rename_i same
      rw [same] at given ⊢
      exact given
    · exact given
  · have asked := ledger.asked a
    rw [objs_call]
    by_cases same : a = r
    · rw [if_pos same, if_pos (congrArg some same.symm)]
      rw [same, empty, List.append_nil, List.append_nil] at asked
      show n.requestsBy a ++ [buf] ++ n.queuedBy a = (n.objs r).log.emitted ++ [buf]
      rw [same, empty, List.append_nil, asked]
    · rw [if_neg same, if_neg fun eq => same (Option.some.inj eq).symm]
      exact asked
  · have answered := ledger.answered a
    rw [objs_call]
    split
    · rename_i same
      rw [same] at answered ⊢
      exact answered
    · exact answered

/-- A handler that is neither a request nor a response leaves the strand. -/
theorem Owing.pop (owing : n.Owing owed) {task : ManagerTask} {strand : List ManagerTask}
    (queue : n.strand = task :: strand) (request : ∀ r, task.requestOf r = none)
    (response : ∀ k, task.responseOf k = none) (objs : m.objs = n.objs) (next : m.next = n.next)
    (isStrand : m.strand = strand) (requests : m.requests = n.requests)
    (answered : m.answered = n.answered) : m.Owing owed := by
  refine owing.of_same next objs requests (fun r => ?_) fun k => ?_
  · rw [queuedBy_cons queue, request, queuedBy, isStrand]
    rfl
  · rw [responsesOf_cons queue, response, responsesOf, isStrand, answersOf, answered]
    rfl

/-- The handler of a response leaves the strand and is noted. -/
theorem Owing.respond (owing : n.Owing owed) {k : RelayId} {buf : Frame}
    {strand : List ManagerTask} (queue : n.strand = .addResponse k buf :: strand) :
    (n.respond k buf strand).Owing owed := by
  refine Owing.of_same (m := n.respond k buf strand) owing rfl rfl rfl (fun r => ?_) fun a => ?_
  · rw [queuedBy_cons queue]
    rfl
  · rw [responsesOf_cons queue]
    show (n.answered ++ [(k, buf)]).filterMap _ ++ _ = _
    rw [List.filterMap_append, List.append_assoc]
    by_cases same : k = a
    · simp only [List.filterMap_cons, List.filterMap_nil, same, ManagerTask.responseOf,
        ↓reduceIte, Option.toList_some]
      rfl
    · simp only [List.filterMap_cons, List.filterMap_nil, same, ManagerTask.responseOf,
        ↓reduceIte, Option.toList_none]
      rfl

/-- What the accounts do not mention may change. -/
theorem Ledger.same (ledger : n.Ledger) (objs : m.objs = n.objs) (next : m.next = n.next)
    (strand : m.strand = n.strand) (requests : m.requests = n.requests)
    (answered : m.answered = n.answered) : m.Ledger := by
  refine Owing.of_same ledger next objs requests (fun r => ?_) fun k => ?_
  · rw [queuedBy, strand, queuedBy]
  · rw [answersOf, answered, responsesOf, strand, answersOf, responsesOf]

theorem log_startUdp (n : Node) (s : UInt32) : (n.newRawUdp s).startUdp.log = {} := by
  unfold Relay.startUdp
  split <;> rfl

theorem ledger_part (wf : WellFormed n) (ledger : n.Ledger) (part : Part n m) : m.Ledger := by
  cases part with
  | @requested r buf strand _ queue requested =>
    refine Owing.requested (n := { n with strand }) ?_ requested (wf.pop queue)
    refine Owing.of_same (m := { n with strand }) ledger rfl rfl rfl (fun a => ?_) fun k => ?_
    · rw [queuedBy_cons queue]
      by_cases same : r = a
      · simp only [same, ManagerTask.requestOf, ↓reduceIte, Option.toList_some]
        rfl
      · have apart : ¬ some r = some a := fun eq => same (Option.some.inj eq)
        simp only [same, apart, ManagerTask.requestOf, ↓reduceIte, Option.toList_none]
        rfl
    · rw [responsesOf_cons queue]
      rfl
  | @emit r buf m listed _ none requested =>
    have callable := wf.callable listed
    have wf' := wf.call (c := .emit buf) callable nofun fun _ _ => .inl rfl
    exact Owing.requested (.emit ledger callable.1 none) requested wf'
  | own _ _ requested =>
    refine Owing.requested ?_ requested wf
    exact ledger.of_same rfl rfl rfl (fun _ => rfl) fun _ => rfl
  | respond queue _ => exact Owing.respond ledger queue
  | @data k r buf strand queue _ there _ =>
    obtain ⟨⟨known, _⟩, raw, _⟩ := wf.relays there
    exact (Owing.respond ledger queue).call known nofun (.inl raw)
  | @stopped k r buf strand queue _ _ _ =>
    exact Ledger.same (Owing.respond ledger queue) rfl rfl rfl rfl rfl
  | repeated queue _ | packet queue =>
    exact Owing.pop ledger queue (fun _ => rfl) (fun _ => rfl) rfl rfl rfl rfl rfl
  | @begin r strand queue _ =>
    have popped : Ledger
        { n with
          strand
          session := n.session + 1
          allocated := n.allocated + 1
          relays := n.relays.insert n.session (some r)
          issued := n.issued ++ [Issue.tcp n.session r] } :=
      Owing.pop ledger queue (fun _ => rfl) (fun _ => rfl) rfl rfl rfl rfl rfl
    exact popped.call (wf.pending (queue ▸ List.mem_cons_self)).1 nofun (.inr nofun)
  | startRead callable _ _ => exact Owing.call ledger callable.1 nofun (.inr nofun)
  | halt callable halts _ =>
    rcases halts with rfl | rfl
    · exact Owing.call ledger callable.1 nofun (.inr nofun)
    · exact Owing.call ledger callable.1 nofun (.inr nofun)
  | drop _ => exact ledger.same rfl rfl rfl rfl rfl
  | @makeTcp s target _ _ _ _ =>
    have log : ((n.newRawTcp (some target)).begin s).log = {} := rfl
    exact Ledger.same (Owing.make ledger log) rfl rfl rfl rfl rfl
  | orphanUdp _ _ _ _ => exact Owing.make ledger rfl
  | @makeUdp s _ _ _ _ =>
    exact Ledger.same (Owing.make ledger (log_startUdp n s)) rfl rfl rfl rfl rfl
  | datagram _ there _ _ _ =>
    obtain ⟨⟨known, _⟩, raw, _⟩ := wf.relays there
    exact Owing.call ledger known nofun (.inl raw)
  | reply _ current _ _ =>
    obtain ⟨known, udp⟩ := wf.udpSend current
    exact Owing.call ledger known nofun (.inl (udp ▸ nofun))

theorem ledger_udpPart (wf : WellFormed n) (ledger : n.Ledger) (part : UdpPart n m) :
    m.Ledger := by
  cases part with
  | assign | sources _ => exact ledger.same rfl rfl rfl rfl rfl
  | addPeer current _ | delPeer current =>
    exact Owing.call ledger (wf.udpSend current).1 nofun (.inr nofun)
  | localUdp begun =>
    refine Ledger.same (Owing.make ledger ?_) rfl rfl rfl rfl rfl
    split
    · exact log_startUdp n 0
    · rfl

/-- A handler of a relay's strand: what it asks and delivers waits in the manager's. -/
theorem ledger_relay (ledger : n.Ledger) {r : RelayId} {ev : RelayEvent}
    {relay : Relay} {outs : List RelayOut} (known : r < n.next)
    (stepped : (n.objs r).step n.alive ev = some (relay, outs)) :
    Ledger { n with
      objs := Function.update n.objs r relay
      strand := n.strand ++ outs.filterMap (asked r)
      crashed := outs.contains .crash } := by
  have same := Relay.sameCalls_step stepped
  obtain ⟨h, handled, rfl⟩ := Relay.step_eq_some.mp stepped
  have kept := (Relay.handles_of_handle handled).notes
  have asks (a : RelayId) : (outs.filterMap (asked r)).filterMap (ManagerTask.requestOf a) =
      if a = r then outs.filterMap RelayOut.asRequest else [] := by
    rw [List.filterMap_filterMap]
    split
    · rename_i same
      refine List.filterMap_congr fun out _ => ?_
      cases out with
      | request buf => exact if_pos same.symm
      | response | crash => rfl
    · rename_i other
      refine List.filterMap_eq_nil_iff.mpr fun out _ => ?_
      cases out with
      | request buf => exact if_neg fun eq => other eq.symm
      | response | crash => rfl
  have answers (a : RelayId) : (outs.filterMap (asked r)).filterMap (ManagerTask.responseOf a) =
      if a = r then outs.filterMap RelayOut.asResponse else [] := by
    rw [List.filterMap_filterMap]
    split
    · rename_i same
      refine List.filterMap_congr fun out _ => ?_
      cases out with
      | response buf => exact if_pos same.symm
      | request | crash => rfl
    · rename_i other
      refine List.filterMap_eq_nil_iff.mpr fun out _ => ?_
      cases out with
      | response buf => exact if_neg fun eq => other eq.symm
      | request | crash => rfl
  refine ⟨fun a later => ?_, fun a which => ?_, fun a => ?_, fun a => ?_⟩
  · show (Function.update n.objs r (h.note outs) a).log = {}
    rw [Function.update_of_ne (Nat.ne_of_gt (Nat.lt_of_lt_of_le known later))]
    exact ledger.fresh a later
  · replace which : n.next ≤ a ∨ (Function.update n.objs r (h.note outs) a).kind = .ssl := which
    show (Function.update n.objs r (h.note outs) a).log.given = n.requestsTo a
    rw [Function.update_apply] at which ⊢
    split
    · rename_i isR
      rw [if_pos isR, same.kind] at which
      rw [same.given, isR]
      exact ledger.given r (isR ▸ which)
    · rename_i other
      rw [if_neg other] at which
      exact ledger.given a which
  · show n.requestsBy a ++ [] ++ (n.strand ++ _).filterMap (ManagerTask.requestOf a) =
      (Function.update n.objs r (h.note outs) a).log.emitted
    rw [List.filterMap_append, asks, Function.update_apply, ← List.append_assoc]
    have before : n.requestsBy a ++ [] ++ n.strand.filterMap (ManagerTask.requestOf a) = _ :=
      ledger.asked a
    rw [before]
    split
    · rename_i isR
      rw [isR]
      exact congrArg (· ++ _) kept.1.symm
    · exact List.append_nil _
  · show n.answersOf a ++ (n.strand ++ _).filterMap (ManagerTask.responseOf a) =
      (Function.update n.objs r (h.note outs) a).log.delivered
    rw [List.filterMap_append, answers, Function.update_apply, ← List.append_assoc]
    have before : n.answersOf a ++ n.strand.filterMap (ManagerTask.responseOf a) = _ :=
      ledger.answered a
    rw [before]
    split
    · rename_i isR
      rw [isR]
      exact congrArg (· ++ _) kept.2.symm
    · exact List.append_nil _

theorem ledger_outside {a : NodeAction} (ledger : n.Ledger)
    (outside : Outside n a m) : m.Ledger := by
  have posted {m : Node} (task : ManagerTask) (request : ∀ r, task.requestOf r = none)
      (response : ∀ k, task.responseOf k = none) (before : m.Ledger) :
      Ledger { m with strand := m.strand ++ [task] } := by
    refine Owing.of_same (m := { m with strand := m.strand ++ [task] }) before rfl rfl rfl
      (fun r => ?_) fun k => ?_
    · show [] ++ (m.strand ++ [task]).filterMap (ManagerTask.requestOf r) = [] ++ m.queuedBy r
      rw [List.filterMap_append, List.filterMap_cons, request]
      exact congrArg _ (List.append_nil _)
    · show _ ++ (m.strand ++ [task]).filterMap (ManagerTask.responseOf k) = _ ++ m.responsesOf k
      rw [List.filterMap_append, List.filterMap_cons, response]
      exact congrArg _ (List.append_nil _)
  cases outside with
  | @accept dst _ =>
    have made : (n.make (n.newAccepted dst)).Ledger := Owing.make ledger rfl
    exact posted (.addLocalRawTcp n.next) (fun _ => rfl) (fun _ => rfl) made
  | @udpPacket src dst received _ =>
    exact posted (.sendUdpData src (transparentUdpRecvOn dst received)) (fun _ => rfl)
      (fun _ => rfl) ledger
  | release => exact ledger.same rfl rfl rfl rfl rfl
  | relay callable stepped => exact ledger_relay ledger callable.1 stepped

theorem ledger_initLocal (type : ServerType) : (initLocal type).Ledger :=
  ⟨fun _ _ => rfl, fun _ _ => rfl, fun _ => rfl, fun _ => rfl⟩

theorem ledger_initRemote : initRemote.Ledger :=
  ⟨fun _ _ => rfl, fun _ _ => rfl, fun _ => rfl, fun _ => rfl⟩

/-- **The accounts of a run agree.** -/
theorem ledger_reach {C : Node → NodeAction → Prop} {n₀ : Node} (wf : WellFormed n₀)
    (ledger : n₀.Ledger) (run : Reach step C n₀ n) : n.Ledger :=
  parts_rule wf run ledger (fun wf ledger part => ledger_part wf ledger part)
    (fun wf ledger part => ledger_udpPart wf ledger part)
    fun _ ledger _ outside => ledger_outside ledger outside

/-! ## Runs from the start -/

/-- The start of a manager, local or remote. -/
inductive Starts : Node → Prop
  | localSide {type : ServerType} : type ≠ .remoteServer → Starts (initLocal type)
  | remote : Starts initRemote

theorem Starts.wellFormed (starts : Starts n) : WellFormed n := by
  cases starts with
  | localSide _ => exact wellFormed_initLocal _
  | remote => exact wellFormed_initRemote

theorem Starts.ledger (starts : Starts n) : n.Ledger := by
  cases starts with
  | localSide _ => exact ledger_initLocal _
  | remote => exact ledger_initRemote

theorem Starts.relaysLive (starts : Starts n) : RelaysLive n := by
  cases starts with
  | localSide other => exact relaysLive_initLocal other
  | remote => exact relaysLive_initRemote

/-- The accounts of every run agree. -/
theorem Starts.ledger_reach {C : Node → NodeAction → Prop} {n₀ : Node} (starts : Starts n₀)
    (run : Reach step C n₀ n) : n.Ledger :=
  Node.ledger_reach starts.wellFormed starts.ledger run

/-- What holds of a manager in every run from the start. -/
structure Sound (n : Node) : Prop where
  wf : WellFormed n
  ledger : n.Ledger
  live : RelaysLive n

theorem Starts.sound {C : Node → NodeAction → Prop} {n₀ : Node} (starts : Starts n₀)
    (run : Reach step C n₀ n) : Sound n where
  wf := wellFormed_reach starts.wellFormed run
  ledger := starts.ledger_reach run
  live := relaysLive_reach starts.wellFormed starts.relaysLive run

/-! ## One relay through a step -/

/-- What the calls of the manager leave of a relay, other than the one that gives it its
session. -/
structure LeftByCalls (T : Relay → Relay → Prop) : Prop where
  refl : ∀ r, T r r
  trans : ∀ {a b c}, T a b → T b c → T a c
  call : ∀ r {c}, (∀ s, c ≠ RelayCall.begin s) → T r (r.call c)

namespace LeftByCalls

variable {T : Relay → Relay → Prop} (left : LeftByCalls T) {r : RelayId}

include left

theorem objs_call (n : Node) (a r : RelayId) {c : RelayCall} (other : ∀ s, c ≠ .begin s) :
    T (n.objs r) ((n.call a c).objs r) := by
  rw [Node.objs_call]
  split
  · rename_i same
    exact same ▸ left.call _ other
  · exact left.refl _

theorem objs_make (relay : Relay) (known : r < n.next) :
    T (n.objs r) ((n.make relay).objs r) := by
  rw [objs_make_of_lt relay known]
  exact left.refl _

theorem requested {relay : Option RelayId} {buf : Frame} (requested : Requested relay buf n m)
    (known : r < n.next) : T (n.objs r) (m.objs r) := by
  cases requested with
  | sent _ _ =>
    apply left.objs_call
    exact nofun
  | made _ _ => exact left.objs_make _ known
  | lost _ => exact left.refl _

/-- Only a relay that waits for its session gets one. -/
theorem part (part : Part n m) (known : r < n.next)
    (begins : .addLocalRawTcp r ∉ n.strand ∨ ∀ a s, T a (a.call (.begin s))) :
    T (n.objs r) (m.objs r) := by
  cases part with
  | requested _ requested =>
    have kept := left.requested requested known
    exact kept
  | @emit a buf _ _ _ _ requested =>
    refine left.trans ?_ (left.requested requested known)
    apply left.objs_call
    exact nofun
  | own _ _ requested => exact left.requested requested known
  | respond | stopped | repeated | drop | packet => exact left.refl _
  | data | startRead | datagram | reply =>
    apply left.objs_call
    exact nofun
  | halt _ halts _ =>
    apply left.objs_call
    rcases halts with rfl | rfl <;> exact nofun
  | @begin a strand queue _ =>
    rcases begins with waits | all
    · have other : r ≠ a := fun same => waits (queue ▸ same ▸ List.mem_cons_self)
      rw [objs_call_of_ne _ other]
      exact left.refl _
    · rw [Node.objs_call]
      split
      · rename_i same
        exact same ▸ all _ _
      · exact left.refl _
  | makeTcp | orphanUdp | makeUdp => exact left.objs_make _ known

theorem udpPart (part : UdpPart n m) (known : r < n.next) : T (n.objs r) (m.objs r) := by
  cases part with
  | assign | sources => exact left.refl _
  | addPeer | delPeer =>
    apply left.objs_call
    exact nofun
  | localUdp => exact left.objs_make _ known

theorem outside {a : NodeAction} (outside : Outside n a m) (known : r < n.next)
    (event : ∀ {ev relay outs}, a = .relay r ev →
      (n.objs r).step n.alive ev = some (relay, outs) → T (n.objs r) relay) :
    T (n.objs r) (m.objs r) := by
  cases outside with
  | accept => exact left.objs_make _ known
  | udpPacket | release => exact left.refl _
  | @relay b ev relay outs callable stepped =>
    show T (n.objs r) (Function.update n.objs b relay r)
    rw [Function.update_apply]
    split
    · rename_i same
      subst same
      exact event rfl stepped
    · exact left.refl _

end LeftByCalls

theorem leftByCalls_kind : LeftByCalls fun r r' => r'.kind = r.kind :=
  ⟨fun _ => rfl, fun first second => second.trans first, fun r c _ => Relay.call_kind r c⟩

theorem leftByCalls_session : LeftByCalls fun r r' => r'.session = r.session :=
  ⟨fun _ => rfl, fun first second => second.trans first, fun r _ => Relay.call_session r⟩

/-- A relay keeps its kind. -/
theorem kind_part (part : Part n m) {r : RelayId} (known : r < n.next) :
    (m.objs r).kind = (n.objs r).kind :=
  leftByCalls_kind.part part known (.inr fun _ _ => Relay.call_kind _ _)

theorem kind_udpPart (part : UdpPart n m) {r : RelayId} (known : r < n.next) :
    (m.objs r).kind = (n.objs r).kind := leftByCalls_kind.udpPart part known

theorem kind_outside {a : NodeAction} (outside : Outside n a m) {r : RelayId}
    (known : r < n.next) : (m.objs r).kind = (n.objs r).kind :=
  leftByCalls_kind.outside outside known fun _ stepped => (Relay.sameCalls_step stepped).kind

theorem session_outside {a : NodeAction} (outside : Outside n a m) {r : RelayId}
    (known : r < n.next) : (m.objs r).session = (n.objs r).session :=
  leftByCalls_session.outside outside known fun _ stepped =>
    (Relay.sameCalls_step stepped).session

/-! ## The histories -/

/-- The histories only grow, and the type stays. -/
structure Grows (n m : Node) : Prop where
  type : m.type = n.type
  next : n.next ≤ m.next
  requests : n.requests <+: m.requests
  answered : n.answered <+: m.answered
  issued : n.issued <+: m.issued

theorem Grows.refl (n : Node) : Grows n n :=
  ⟨rfl, Nat.le_refl _, List.prefix_rfl, List.prefix_rfl, List.prefix_rfl⟩

theorem Grows.trans {k : Node} (first : Grows n m) (second : Grows m k) : Grows n k where
  type := second.type.trans first.type
  next := first.next.trans second.next
  requests := first.requests.trans second.requests
  answered := first.answered.trans second.answered
  issued := first.issued.trans second.issued

theorem Requested.grows {relay : Option RelayId} {buf : Frame}
    (requested : Requested relay buf n m) : Grows n m := by
  cases requested with
  | sent _ _ | lost _ =>
    exact ⟨rfl, Nat.le_refl _, List.prefix_append _ _, List.prefix_rfl, List.prefix_rfl⟩
  | made _ _ =>
    exact ⟨rfl, Nat.le_succ _, List.prefix_append _ _, List.prefix_rfl, List.prefix_rfl⟩

theorem grows_part (part : Part n m) : Grows n m := by
  cases part with
  | requested _ requested => exact ⟨requested.grows.type, requested.grows.next,
      requested.grows.requests, requested.grows.answered, requested.grows.issued⟩
  | emit _ _ _ requested => exact ⟨requested.grows.type, requested.grows.next,
      requested.grows.requests, requested.grows.answered, requested.grows.issued⟩
  | own _ _ requested => exact requested.grows
  | respond | data | stopped =>
    exact ⟨rfl, Nat.le_refl _, List.prefix_rfl, List.prefix_append _ _, List.prefix_rfl⟩
  | begin =>
    exact ⟨rfl, Nat.le_refl _, List.prefix_rfl, List.prefix_rfl, List.prefix_append _ _⟩
  | makeTcp | orphanUdp | makeUdp =>
    exact ⟨rfl, Nat.le_succ _, List.prefix_rfl, List.prefix_rfl, List.prefix_rfl⟩
  | _ => exact ⟨rfl, Nat.le_refl _, List.prefix_rfl, List.prefix_rfl, List.prefix_rfl⟩

theorem grows_udpPart (part : UdpPart n m) : Grows n m := by
  cases part with
  | assign =>
    exact ⟨rfl, Nat.le_refl _, List.prefix_rfl, List.prefix_rfl, List.prefix_append _ _⟩
  | localUdp => exact ⟨rfl, Nat.le_succ _, List.prefix_rfl, List.prefix_rfl, List.prefix_rfl⟩
  | _ => exact ⟨rfl, Nat.le_refl _, List.prefix_rfl, List.prefix_rfl, List.prefix_rfl⟩

theorem grows_outside {a : NodeAction} (outside : Outside n a m) : Grows n m := by
  cases outside with
  | accept => exact ⟨rfl, Nat.le_succ _, List.prefix_rfl, List.prefix_rfl, List.prefix_rfl⟩
  | _ => exact ⟨rfl, Nat.le_refl _, List.prefix_rfl, List.prefix_rfl, List.prefix_rfl⟩

theorem grows_reach {C : Node → NodeAction → Prop} (wf : WellFormed n)
    (run : Reach step C n m) : Grows n m :=
  parts_rule wf run (Grows.refl n) (fun _ grows part => grows.trans (grows_part part))
    (fun _ grows part => grows.trans (grows_udpPart part))
    fun _ grows _ outside => grows.trans (grows_outside outside)

theorem LeftByCalls.run {T : Relay → Relay → Prop} (left : LeftByCalls T)
    {C : Node → NodeAction → Prop} (wf : WellFormed n) (run : Reach step C n m) {r : RelayId}
    (known : r < n.next) (begins : ∀ a s, T a (a.call (.begin s)))
    (event : ∀ {k ev relay outs}, C k (.relay r ev) →
      (k.objs r).step k.alive ev = some (relay, outs) → T (k.objs r) relay) :
    T (n.objs r) (m.objs r) := by
  suffices both : r < m.next ∧ T (n.objs r) (m.objs r) from both.2
  refine parts_rule (P := fun k => r < k.next ∧ T (n.objs r) (k.objs r)) wf run
    ⟨known, left.refl _⟩ (fun _ both part => ?_) (fun _ both part => ?_)
    fun _ both meets outside => ?_
  · exact ⟨both.1.trans_le (grows_part part).next,
      left.trans both.2 (left.part part both.1 (.inr begins))⟩
  · exact ⟨both.1.trans_le (grows_udpPart part).next, left.trans both.2 (left.udpPart part both.1)⟩
  · refine ⟨both.1.trans_le (grows_outside outside).next, left.trans both.2 ?_⟩
    refine left.outside outside both.1 fun {ev relay outs} is stepped => ?_
    subst is
    exact event meets stepped

theorem kind_reach {C : Node → NodeAction → Prop} (wf : WellFormed n) (run : Reach step C n m)
    {r : RelayId} (known : r < n.next) : (m.objs r).kind = (n.objs r).kind :=
  leftByCalls_kind.run wf run known (fun _ _ => Relay.call_kind _ _) fun _ stepped =>
    (Relay.sameCalls_step stepped).kind

/-- The parts of a handler take handlers from the strand. -/
theorem strand_part (part : Part n m) : m.strand <:+ n.strand := by
  have popped {task : ManagerTask} {strand : List ManagerTask} (queue : n.strand = task :: strand) :
      strand <:+ n.strand := queue ▸ List.suffix_cons _ _
  cases part with
  | requested queue requested => exact requested.strand ▸ popped queue
  | emit _ _ _ requested => exact requested.strand ▸ List.suffix_rfl
  | own _ _ requested => exact requested.strand ▸ List.suffix_rfl
  | respond queue | data queue | stopped queue | repeated queue | begin queue | packet queue =>
    exact popped queue
  | _ => exact List.suffix_rfl

theorem strand_udpPart (part : UdpPart n m) : m.strand <:+ n.strand := by
  cases part with
  | _ => exact List.suffix_rfl

/-! ## What a raw relay is given -/

/-- The messages given to a relay. -/
def givenTo (n : Node) (r : RelayId) : List Frame := (n.objs r).log.given

/-- What one part gives to a raw relay: nothing, the data that `add_response` has just
found for its session, or the datagram it is about. -/
inductive Gives (n m : Node) (r : RelayId) : Prop
  | nothing : m.givenTo r = n.givenTo r → Gives n m r
  | data {k : RelayId} {buf : Frame} :
    m.answered = n.answered ++ [(k, buf)] → buf.cmd = .dataTcp →
    n.relays.lookup buf.session = some (some r) → (n.objs r).state ≠ .stop →
    m.givenTo r = n.givenTo r ++ [buf] → Gives n m r
  | datagram {buf : Frame} :
    n.Callable r →
    n.type = .remoteServer ∧ buf.session = (n.objs r).session ∨
      n.type = .localTransparent ∧ (n.objs r).kind = .rawUdp →
    n.Answering buf → buf.cmd = .dataUdp → m.answered = n.answered →
    m.givenTo r = n.givenTo r ++ [buf] → Gives n m r

theorem givenTo_call {r a : RelayId} {c : RelayCall} (quiet : ∀ buf, c ≠ .sendData buf) :
    (n.call a c).givenTo r = n.givenTo r := by
  unfold givenTo
  rw [objs_call]
  split
  · rename_i same
    have called := Relay.calls_call (n.objs a) c
    generalize (n.objs a).call c = r' at called
    rw [same]
    cases called with
    | @sendData buf => exact absurd rfl (quiet buf)
    | _ => rfl
  · rfl

theorem givenTo_send (n : Node) (r a : RelayId) (buf : Frame) :
    (n.call a (.sendData buf)).givenTo r = n.givenTo r ++ if r = a then [buf] else [] := by
  unfold givenTo
  rw [objs_call]
  split
  · rename_i same
    rw [same]
    rfl
  · exact (List.append_nil _).symm

theorem Ledger.givenTo_make (ledger : n.Ledger) {r : RelayId} {relay : Relay}
    (log : relay.log = {}) : (n.make relay).givenTo r = n.givenTo r := by
  unfold givenTo
  rw [objs_make]
  split
  · rename_i same
    rw [log, same, ledger.fresh n.next (Nat.le_refl _)]
  · rfl

/-- A request gives nothing to a raw relay. -/
theorem Requested.givenTo {relay : Option RelayId} {buf : Frame}
    (requested : Requested relay buf n m) (wf : WellFormed n) {r : RelayId}
    (raw : (m.objs r).kind ≠ .ssl) : m.givenTo r = n.givenTo r := by
  cases requested with
  | @sent k current _ =>
    have other : r ≠ k := by
      rintro rfl
      exact raw ((objs_call_kind n r r (.sendData buf)).trans (wf.ssl current).2)
    refine (givenTo_send n r k buf).trans ?_
    rw [if_neg other, List.append_nil]
  | made _ _ =>
    have other : r ≠ n.next := by
      rintro rfl
      exact raw (congrArg Relay.kind (objs_make n (n.newSslRelay.sendData buf) n.next) |>.trans
        (congrArg Relay.kind (if_pos rfl)))
    exact congrArg (fun a : Relay => a.log.given) ((objs_make n _ r).trans (if_neg other))
  | lost _ => rfl

theorem gives_part (wf : WellFormed n) (ledger : n.Ledger) (part : Part n m) {r : RelayId}
    (raw : (m.objs r).kind ≠ .ssl) : Gives n m r := by
  have sends (n : Node) {a : RelayId} (buf : Frame) (sent : r = a → Gives n (n.call a (.sendData buf)) r) :
      Gives n (n.call a (.sendData buf)) r := by
    by_cases same : r = a
    · exact sent same
    · refine .nothing ?_
      rw [givenTo_send, if_neg same, List.append_nil]
  cases part with
  | @requested _ _ strand _ queue requested =>
    exact .nothing (requested.givenTo (wf.pop queue) raw)
  | @emit a buf _ listed _ _ requested =>
    have wf' := wf.call (c := .emit buf) (wf.callable listed) nofun fun _ _ => .inl rfl
    exact .nothing ((requested.givenTo wf' raw).trans (givenTo_call nofun))
  | own _ _ requested => exact .nothing (requested.givenTo wf raw)
  | respond | stopped | repeated | drop | packet => exact .nothing rfl
  | @data k a buf strand _ isData there running =>
    by_cases same : r = a
    · refine @Gives.data _ _ _ k buf rfl isData (same ▸ there) (same ▸ running) ?_
      refine (givenTo_send _ r a buf).trans ?_
      rw [if_pos same]
      rfl
    · refine .nothing ((givenTo_send _ r a buf).trans ?_)
      rw [if_neg same, List.append_nil]
      rfl
  | begin => exact .nothing (givenTo_call nofun)
  | startRead => exact .nothing (givenTo_call nofun)
  | halt _ halts _ =>
    rcases halts with rfl | rfl
    · exact .nothing (givenTo_call nofun)
    · exact .nothing (givenTo_call nofun)
  | @makeTcp s target _ _ _ _ =>
    have log : ((n.newRawTcp (some target)).begin s).log = {} := rfl
    exact .nothing (ledger.givenTo_make log)
  | orphanUdp => exact .nothing (ledger.givenTo_make rfl)
  | @makeUdp s => exact .nothing (ledger.givenTo_make (log_startUdp n s))
  | @datagram s a buf remote there isData answering session =>
    refine sends n buf fun same => .datagram ?_ (.inl ⟨remote, ?_⟩) answering isData rfl ?_
    · exact same ▸ (wf.relays there).1
    · rw [session, same, (wf.relays there).2.2]
    · rw [givenTo_send, if_pos same]
  | @reply u buf transparent current isData answering =>
    refine sends n buf fun same => .datagram ?_ (.inr ⟨transparent, ?_⟩) answering isData rfl ?_
    · exact same ▸ wf.callable_udpSend current
    · rw [same, (wf.udpSend current).2]
    · rw [givenTo_send, if_pos same]

theorem givenTo_udpPart (ledger : n.Ledger) (part : UdpPart n m) (r : RelayId) :
    m.givenTo r = n.givenTo r := by
  cases part with
  | assign | sources => rfl
  | addPeer | delPeer => exact givenTo_call nofun
  | localUdp begun =>
    refine ledger.givenTo_make ?_
    split
    · exact log_startUdp n 0
    · rfl

theorem givenTo_outside (ledger : n.Ledger) {a : NodeAction} (outside : Outside n a m)
    (r : RelayId) : m.givenTo r = n.givenTo r := by
  cases outside with
  | @accept dst _ => exact @Ledger.givenTo_make n ledger r (n.newAccepted dst) rfl
  | udpPacket | release => rfl
  | @relay b ev relay outs callable stepped =>
    show (Function.update n.objs b relay r).log.given = (n.objs r).log.given
    rw [Function.update_apply]
    split
    · rename_i same
      rw [(Relay.sameCalls_step stepped).given, same]
    · rfl

end Node

end SslSocks
