import SslSocks.NodeMoves
import SslSocks.SessionStreams

/-!
# Where the messages of the other end go

`add_response` gives a message to one relay, or to none. `messages_dealt` says so of whole
runs: the messages that the raw relays of a manager were given are a division of those that
it has handled, each of them in the order in which they came.
-/

namespace SslSocks

open Lib

namespace Node

/-- The message, when it was given to the relay. -/
def Dealing.givenTo (r : RelayId) : Dealing → Option Frame
  | .give a buf => if a = r then some buf else none
  | .answer _ _ => none

def Dealing.answered : Dealing → Option (RelayId × Frame)
  | .answer k buf => some (k, buf)
  | .give _ _ => none

/-- A message that `add_response` handled: the ssl relay that it came from and the relay that
it was given to, if it was given to one. -/
structure Deal where
  via : RelayId
  buf : Frame
  target : Option RelayId

/-- The message, when it came from the ssl relay. -/
def Deal.cameBy (k : RelayId) (deal : Deal) : Option Frame :=
  if deal.via = k then some deal.buf else none

/-- The message, when the relay got it. -/
def Deal.dealtTo (r : RelayId) (deal : Deal) : Option Frame :=
  if deal.target = some r then some deal.buf else none

def Deal.answer (deal : Deal) : RelayId × Frame := (deal.via, deal.buf)

variable {n m : Node} {ls : List Dealing}

/-! ## One move -/

/-- No relay is lost, and relays keep their kind. -/
theorem kind_move (move : Move n ls m) : n.next ≤ m.next ∧
    ∀ {r}, r < n.next → (m.objs r).kind = (n.objs r).kind := by
  have made (relay : Relay) {r : RelayId} (known : r < n.next) :
      ((n.make relay).objs r).kind = (n.objs r).kind := by rw [objs_make_of_lt relay known]
  cases move with
  | same same =>
    rw [same.next, same.objs]
    exact ⟨Nat.le_refl _, fun _ => rfl⟩
  | call | sendSsl | give => exact ⟨Nat.le_refl _, fun _ => objs_call_kind n _ _ _⟩
  | newSsl | newUdp | orphanUdp | makeUdp | makeTcp => exact ⟨Nat.le_succ _, made _⟩
  | answer | list | slot | unlist | clear => exact ⟨Nat.le_refl _, fun _ => rfl⟩

theorem fresh_move (fresh : ∀ r, n.next ≤ r → (n.objs r).log = {}) (kinds : Kinds n)
    (move : Move n ls m) : ∀ r, m.next ≤ r → (m.objs r).log = {} := by
  have called {a : RelayId} (c : RelayCall) (known : a < n.next) (r : RelayId) (new : n.next ≤ r) :
      ((n.call a c).objs r).log = {} := by
    rw [objs_call_of_ne c (Nat.ne_of_gt (Nat.lt_of_lt_of_le known new))]
    exact fresh r new
  have made (relay : Relay) (r : RelayId) (new : n.next + 1 ≤ r) :
      ((n.make relay).objs r).log = {} := by
    rw [objs_make, if_neg (Nat.ne_of_gt new)]
    exact fresh r (Nat.le_of_succ_le new)
  cases move with
  | same same =>
    intro r new
    rw [same.objs]
    exact fresh r (same.next ▸ new)
  | call tracked _ =>
    refine called _ ?_
    rcases tracked with listed | current | current
    · exact (kinds.listed listed).1
    · exact (kinds.ssl current).1
    · exact (kinds.udpSend current).1
  | sendSsl current => exact called _ (kinds.ssl current).1
  | give place =>
    refine called _ ?_
    rcases place with listed | current
    · exact (kinds.listed listed).1
    · exact (kinds.udpSend current).1
  | newSsl | newUdp | orphanUdp | makeUdp | makeTcp => exact made _
  | answer | list | slot | unlist | clear => exact fresh

theorem answered_move (move : Move n ls m) :
    m.answered = n.answered ++ ls.filterMap Dealing.answered := by
  cases move with
  | same same => rw [same.answered, List.filterMap_nil, List.append_nil]
  | answer => rfl
  | _ => exact (List.append_nil _).symm

/-- A raw relay is given what the move shows. -/
theorem givenTo_move (fresh : ∀ r, n.next ≤ r → (n.objs r).log = {}) (kinds : Kinds n)
    (move : Move n ls m) {r : RelayId} (raw : r < m.next → (m.objs r).kind ≠ .ssl) :
    m.givenTo r = n.givenTo r ++ ls.filterMap (Dealing.givenTo r) := by
  have quiet (same : m.givenTo r = n.givenTo r) : m.givenTo r = n.givenTo r ++ [] := by
    rw [same, List.append_nil]
  have made (relay : Relay) (log : relay.log = {}) :
      (n.make relay).givenTo r = n.givenTo r := by
    unfold givenTo
    rw [objs_make]
    split
    · rename_i new
      rw [log, new, fresh n.next (Nat.le_refl _)]
    · rfl
  cases move with
  | same same =>
    apply quiet
    unfold givenTo
    rw [same.objs]
  | answer => exact (List.append_nil _).symm
  | call _ other => exact quiet (givenTo_call other)
  | @sendSsl k buf current =>
    have other : r ≠ k := by
      rintro rfl
      obtain ⟨known, ssl⟩ := kinds.ssl current
      exact raw known ((objs_call_kind n _ _ _).trans ssl)
    refine (givenTo_send n r k buf).trans ?_
    rw [if_neg other]
    rfl
  | @give a buf _ =>
    refine (givenTo_send n r a buf).trans ?_
    by_cases same : a = r
    · rw [if_pos same.symm, List.filterMap_cons, Dealing.givenTo, if_pos same]
      rfl
    · rw [if_neg fun eq => same eq.symm, List.filterMap_cons, Dealing.givenTo, if_neg same]
      rfl
  | newSsl =>
    have born : n.newSslRelay.log = {} := rfl
    exact quiet (made _ born)
  | newUdp started =>
    apply quiet
    refine made (if started then (n.newRawUdp 0).startUdp else n.newRawUdp 0) ?_
    split
    · exact log_startUdp n 0
    · rfl
  | orphanUdp s =>
    have born : (n.newRawUdp s).log = {} := rfl
    exact quiet (made _ born)
  | @makeUdp s _ => exact quiet (made _ (log_startUdp n s))
  | makeTcp target _ =>
    have born : (n.newRawTcp (some target)).log = {} := rfl
    exact quiet (made _ born)
  | list | slot | unlist | clear => exact quiet rfl

theorem raw_move (kinds : Kinds n) (move : Move n ls m) {r : RelayId} {buf : Frame}
    (given : .give r buf ∈ ls) : m.Raw r := by
  cases move with
  | @give a buf place =>
    cases List.mem_singleton.mp given
    have raw : n.Raw r := by
      rcases place with listed | current
      · exact ⟨(kinds.listed listed).1, (kinds.listed listed).2⟩
      · obtain ⟨known, udp⟩ := kinds.udpSend current
        refine ⟨known, ?_⟩
        rw [udp]
        decide
    exact ⟨raw.known, by rw [objs_call_kind]; exact raw.kind⟩
  | answer => cases List.mem_singleton.mp given
  | _ => cases given

/-! ## The dealings of a run -/

/-- What a path deals. -/
structure Deals (n : Node) (ls : List Dealing) (m : Node) : Prop where
  next : n.next ≤ m.next
  kind : ∀ {r}, r < n.next → (m.objs r).kind = (n.objs r).kind
  fresh : ∀ r, m.next ≤ r → (m.objs r).log = {}
  raw : ∀ {r buf}, .give r buf ∈ ls → m.Raw r
  answered : m.answered = n.answered ++ ls.filterMap Dealing.answered
  given : ∀ {r}, (r < m.next → (m.objs r).kind ≠ .ssl) →
    m.givenTo r = n.givenTo r ++ ls.filterMap (Dealing.givenTo r)

theorem deals_moves (fresh : ∀ r, n.next ≤ r → (n.objs r).log = {}) (kinds : Kinds n)
    (path : Moves n ls m) : Deals n ls m := by
  refine path.fold (P := Kinds) kinds (fun kinds move => kinds_move kinds move) ?_ ?_
  · exact ⟨Nat.le_refl _, fun _ => rfl, fresh, nofun, (List.append_nil _).symm,
      fun _ => (List.append_nil _).symm⟩
  · intro a b shown more kinds deals move
    have moved := kind_move move
    have next : n.next ≤ b.next := deals.next.trans moved.1
    have kind {r : RelayId} (old : r < n.next) : (b.objs r).kind = (n.objs r).kind :=
      (moved.2 (Nat.lt_of_lt_of_le old deals.next)).trans (deals.kind old)
    refine ⟨next, kind, fresh_move deals.fresh kinds move, fun given => ?_, ?_, fun {r} raw => ?_⟩
    · rcases List.mem_append.mp given with before | now
      · obtain ⟨known, raw⟩ := deals.raw before
        exact ⟨Nat.lt_of_lt_of_le known moved.1, by rw [moved.2 known]; exact raw⟩
      · exact raw_move kinds move now
    · rw [answered_move move, deals.answered, List.filterMap_append, List.append_assoc]
    · have before (known : r < a.next) : (a.objs r).kind ≠ .ssl := by
        rw [← moved.2 known]
        exact raw (Nat.lt_of_lt_of_le known moved.1)
      rw [givenTo_move deals.fresh kinds move raw, deals.given before, List.filterMap_append,
        List.append_assoc]

/-- The messages handled, each with the relay that got it, if one did. -/
structure Divides (n : Node) (deals : List Deal) : Prop where
  answered : deals.map Deal.answer = n.answered
  raw : ∀ {deal r}, deal ∈ deals → deal.target = some r → n.Raw r
  given : ∀ {r}, n.Raw r → n.givenTo r = deals.filterMap (Deal.dealtTo r)

variable {deals more : List Deal}

/-- Nothing was dealt to a relay that is made later. -/
theorem Divides.absent (divides : Divides n deals) {r : RelayId} (new : n.next ≤ r) :
    deals.filterMap (Deal.dealtTo r) = [] := by
  apply List.filterMap_eq_nil_iff.mpr
  intro deal there
  unfold Deal.dealtTo
  split
  · rename_i same
    exact absurd (divides.raw there same).known (Nat.not_lt_of_le new)
  · rfl

theorem Divides.grow (divides : Divides n deals) (next : n.next ≤ m.next)
    (kind : ∀ {r}, r < n.next → (m.objs r).kind = (n.objs r).kind)
    (fresh : ∀ r, n.next ≤ r → n.givenTo r = [])
    (answered : m.answered = n.answered ++ more.map Deal.answer)
    (raw : ∀ {deal r}, deal ∈ more → deal.target = some r → m.Raw r)
    (given : ∀ {r}, m.Raw r → m.givenTo r = n.givenTo r ++ more.filterMap (Deal.dealtTo r)) :
    Divides m (deals ++ more) := by
  refine ⟨?_, fun there target => ?_, fun {r} isRaw => ?_⟩
  · rw [List.map_append, divides.answered, answered]
  · rcases List.mem_append.mp there with before | now
    · obtain ⟨known, isRaw⟩ := divides.raw before target
      exact ⟨Nat.lt_of_lt_of_le known next, by rw [kind known]; exact isRaw⟩
    · exact raw now target
  · rw [given isRaw, List.filterMap_append]
    congr 1
    rcases Nat.lt_or_ge r n.next with old | new
    · exact divides.given ⟨old, kind old ▸ isRaw.kind⟩
    · rw [fresh r new, divides.absent new]

theorem Divides.moves (divides : Divides n deals) (done : Deals n ls m)
    (fresh : ∀ r, n.next ≤ r → n.givenTo r = [])
    (answered : more.map Deal.answer = ls.filterMap Dealing.answered)
    (raw : ∀ {deal r}, deal ∈ more → deal.target = some r → .give r deal.buf ∈ ls)
    (given : ∀ r, ls.filterMap (Dealing.givenTo r) = more.filterMap (Deal.dealtTo r)) :
    Divides m (deals ++ more) := by
  refine divides.grow done.next done.kind fresh ?_ (fun there target => ?_) ?_
  · rw [done.answered, answered]
  · exact done.raw (raw there target)
  · intro r isRaw
    rw [done.given fun _ => isRaw.kind, given r]

theorem divides_step {a : NodeAction} (wf : WellFormed n) (ledger : n.Ledger)
    (divides : Divides n deals) (stepped : n.step a = some m) : ∃ deals', Divides m deals' := by
  have fresh (r : RelayId) (new : n.next ≤ r) : n.givenTo r = [] :=
    congrArg RelayLog.given (ledger.fresh r new)
  rcases dealt_step wf stepped with dealt | outside
  · cases dealt with
    | silent path =>
      have done := deals_moves ledger.fresh wf.kinds path
      exact ⟨deals ++ [], divides.moves done fresh rfl nofun fun _ => rfl⟩
    | kept k buf path =>
      have done := deals_moves ledger.fresh wf.kinds path
      refine ⟨deals ++ [⟨k, buf, none⟩], divides.moves done fresh rfl ?_ fun _ => rfl⟩
      intro deal r there target
      cases List.mem_singleton.mp there
      cases target
    | given k r buf path =>
      have done := deals_moves ledger.fresh wf.kinds path
      refine ⟨deals ++ [⟨k, buf, some r⟩], divides.moves done fresh rfl ?_ fun a => ?_⟩
      · intro deal a there target
        cases List.mem_singleton.mp there
        cases target
        exact List.mem_cons_of_mem _ List.mem_cons_self
      · by_cases same : r = a <;>
          simp [Dealing.givenTo, Deal.dealtTo, same, List.filterMap_cons]
  · have grows := grows_outside outside
    have left : m.answered = n.answered := by cases outside <;> rfl
    refine ⟨deals ++ [], divides.grow grows.next (kind_outside outside) fresh ?_ nofun ?_⟩
    · rw [List.map_nil, List.append_nil, left]
    · intro r _
      rw [givenTo_outside ledger outside, List.filterMap_nil, List.append_nil]

theorem exists_divides {C : Node → NodeAction → Prop} {n₀ : Node} (starts : Starts n₀)
    (run : Reach step C n₀ n) : ∃ deals, Divides n deals := by
  refine run.invariant (P := fun n => ∃ deals, Divides n deals) ⟨[], ?_⟩
    fun before divided _ stepped => ?_
  · have fresh (r : RelayId) : n₀.givenTo r = [] := by cases starts <;> rfl
    refine ⟨by cases starts <;> rfl, nofun, fun _ => ?_⟩
    rw [fresh, List.filterMap_nil]
  · obtain ⟨deals, divides⟩ := divided
    have sound := starts.sound before
    exact divides_step sound.wf sound.ledger divides stepped

theorem Divides.handled (divides : Divides n deals) : deals.map Deal.buf = n.handled := by
  unfold Node.handled
  rw [← divides.answered, List.map_map]
  rfl

theorem Divides.answersOf (divides : Divides n deals) (k : RelayId) :
    deals.filterMap (Deal.cameBy k) = n.answersOf k := by
  unfold Node.answersOf
  rw [← divides.answered, List.filterMap_map]
  rfl

/-- **Messages are dealt.** In every run of a manager of any server type the messages that
`add_response` handled can be divided among the raw relays, each going to one or to none, so
that a raw relay was given those that went to it, once each and in the order in which they
came. -/
theorem messages_dealt {C : Node → NodeAction → Prop} {n₀ : Node} (starts : Starts n₀)
    (run : Reach step C n₀ n) : ∃ deals : List Deal, deals.map Deal.answer = n.answered ∧
      (∀ {deal r}, deal ∈ deals → deal.target = some r → n.Raw r) ∧
        ∀ {r}, n.Raw r → n.givenTo r = deals.filterMap (Deal.dealtTo r) := by
  obtain ⟨deals, divides⟩ := exists_divides starts run
  exact ⟨deals, divides.answered, divides.raw, divides.given⟩

/-- A session is started, and of two messages one is for it. -/
theorem messages_dealt_byte : ∃ n, Reachable step initRemote n ∧
    n.handled = [startOf [1, 8, 8, 8, 8, 0, 53], ⟨4, .dataTcp, [5]⟩, ⟨3, .dataTcp, [7]⟩] ∧
    n.givenTo 1 = [⟨3, .dataTcp, [7]⟩] ∧
    ∃ deals : List Deal, deals.map Deal.answer = n.answered ∧
      n.givenTo 1 = deals.filterMap (Deal.dealtTo 1) := by
  have run := @Reach.of_isSome _ _ step anyStep initRemote _
    (.relay 0 (.startup true) :: bring (startOf [1, 8, 8, 8, 8, 0, 53]) ++
      bring ⟨4, .dataTcp, [5]⟩ ++ bring ⟨3, .dataTcp, [7]⟩) (by decide +kernel)
  obtain ⟨deals, answered, _, given⟩ := messages_dealt .remote run
  exact ⟨_, run, by decide +kernel, by decide +kernel, deals, answered,
    given ⟨by decide +kernel, by decide +kernel⟩⟩

end Node

end SslSocks
