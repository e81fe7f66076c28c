import SslSocks.AddressRecords

/-!
# The connect request of a client

`impl_start_local` takes the connect request from one `async_read_some`, and tests the
length of what that returned. A stream may bring the request in several reads.
`serveRequest_iff` says for which requests and reads the outcome is that of one read.
-/

namespace SslSocks

/-- A CONNECT request: version, command, a reserved byte, and an address record, or an
address of a type that SOCKS5 does not know here. -/
inductive ConnectRequest : List UInt8 → Prop
  | known {record : List UInt8} {host : Host} {port : UInt16} (version reserved : UInt8) :
    AddressRecord record host port → ConnectRequest (version :: 1 :: reserved :: record)
  | unknown (version reserved type : UInt8) (rest : List UInt8) :
    type ∉ [1, 3, 4] → ConnectRequest (version :: 1 :: reserved :: type :: rest)

/-- The host and the service that `impl_start_local` goes on with, after these bytes. -/
def requestTarget (buf : List UInt8) : Option (Host × String) :=
  if buf.length < 6 ∨ buf.getD 1 0 ≠ 1 then none
  else (parseAddress (buf.drop 3) (buf.length - 3)).toOption

/-- What comes of a request: the target, what the manager is asked, and the await that
comes next: the reply, the resolver of a direct connection, or none. -/
structure RequestOutcome where
  target : Option (Host × String)
  outs : List RelayOut
  next : Startup
  deriving DecidableEq

namespace Relay

/-- The relay awaits its connect request. -/
structure AwaitsRequest (r : Relay) : Prop where
  kind : r.kind = .rawTcp
  startup : r.startup = .request
  sock : r.sock = true
  reading : r.reading = false
  arrived : r.arrived = none

/-- The socket brings these reads, one after another, for as long as `impl_start_local`
awaits its request; `gfw` is `gfw.is_blocked`. -/
def serveRequest (r : Relay) (gfw : Host → Bool) : List (List UInt8) → Option RequestOutcome
  | [] => none
  | bytes :: reads =>
    match r.step true (.arrive (.stream bytes)) with
    | none => none
    | some (heard, _) =>
      match heard.step true
        (.request ((requestTarget bytes).elim false fun found => gfw found.1)) with
      | none => none
      | some (served, outs) =>
        if served.startup = .request then served.serveRequest gfw reads
        else some ⟨requestTarget bytes, outs, served.startup⟩

end Relay

/-- The outcome of one read. -/
def requestOutcome (session : UInt32) (gfw : Host → Bool) (buf : List UInt8) : RequestOutcome :=
  match requestTarget buf with
  | none => ⟨none, [.request ⟨session, .stopTcp, []⟩], .idle⟩
  | some found =>
    if gfw found.1 then ⟨some found, [.request ⟨session, .startTcp, buf.drop 3⟩], .okReply⟩
    else ⟨some found, [], .directResolve⟩

section Requests

variable {r : Relay} {gfw : Host → Bool} {session : UInt32} {request bytes record : List UInt8}
  {host : Host} {port : UInt16} {reads : List (List UInt8)}

/-- The handler of the request, by the target. -/
theorem requestDone_outcome (kind : r.kind = .rawTcp) {blocked : Bool}
    (known : blocked = (requestTarget bytes).elim false fun found => gfw found.1) :
    (r.requestDone true blocked bytes).1.startup ≠ .request ∧
      (⟨requestTarget bytes, (r.requestDone true blocked bytes).2,
        (r.requestDone true blocked bytes).1.startup⟩ : RequestOutcome) =
          requestOutcome r.session gfw bytes := by
  have rejected : ({ r with arrived := none, startup := .idle }.caught true).1.startup = .idle ∧
      ({ r with arrived := none, startup := .idle }.caught true).2 =
        [.request ⟨r.session, .stopTcp, []⟩] := by
    unfold Relay.caught Relay.stopHere Relay.stopTask
    simp only [kind]
    constructor
    · split <;> rfl
    · rfl
  unfold Relay.requestDone requestOutcome
  subst known
  by_cases bad : bytes.length < 6 ∨ bytes.getD 1 0 ≠ 1
  · have none : requestTarget bytes = none := if_pos bad
    simp only [if_pos bad, none, rejected]
    exact ⟨by decide, trivial⟩
  · have target : requestTarget bytes =
        (parseAddress (bytes.drop 3) (bytes.length - 3)).toOption := if_neg bad
    rw [if_neg bad, target]
    cases parsed : parseAddress (bytes.drop 3) (bytes.length - 3) with
    | error message =>
      simp only [Except.toOption, rejected]
      exact ⟨by decide, trivial⟩
    | ok found =>
      simp only [Except.toOption, Option.elim_some, if_true]
      cases gfw found.1 with
      | true =>
        have leaves : Startup.okReply ≠ .request := by decide
        exact ⟨leaves, rfl⟩
      | false =>
        have leaves : Startup.directResolve ≠ .request := by decide
        exact ⟨leaves, rfl⟩

/-- The start-up goes on after its first read, with what that brought. -/
theorem serveRequest_cons (awaits : r.AwaitsRequest) (nonempty : bytes ≠ [])
    (short : bytes.length ≤ 512) :
    r.serveRequest gfw (bytes :: reads) = some (requestOutcome r.session gfw bytes) := by
  obtain ⟨kind, startup, sock, reading, arrived⟩ := awaits
  have can : r.awaitsRead ∧ r.sock ∧ r.arrived.isNone ∧ r.CanArrive (.stream bytes) := by
    refine ⟨?_, sock, ?_, ?_, nonempty, ?_⟩
    · rw [Relay.awaitsRead, startup]
      simp
    · rw [arrived]
      rfl
    · rw [kind]
      exact nofun
    · rw [Relay.readSize, kind, reading]
      exact short
  have heard : r.step true (.arrive (.stream bytes)) =
      some ({ r with arrived := some (.stream bytes) }.note [], []) := by
    rw [Relay.step, Relay.handle, if_pos can]
    rfl
  generalize heardIs : { r with arrived := some (.stream bytes) }.note [] = a at heard
  have served (blocked : Bool) : a.step true (.request blocked) =
      some ((a.requestDone true blocked bytes).1.note (a.requestDone true blocked bytes).2,
        (a.requestDone true blocked bytes).2) := by
    have awaits : a.startup = .request := by
      rw [← heardIs]
      exact startup
    have there : a.arrived = some (.stream bytes) := by rw [← heardIs]; rfl
    simp only [Relay.step, Relay.handle, awaits, there, Option.map_some]
  have same : a.kind = .rawTcp ∧ a.session = r.session := by
    rw [← heardIs]
    exact ⟨kind, rfl⟩
  obtain ⟨leaves, outcome⟩ := @requestDone_outcome a gfw bytes same.1 _ rfl
  have noted (h : Relay) (outs : List RelayOut) : (h.note outs).startup = h.startup := rfl
  unfold Relay.serveRequest
  rw [heard]
  simp only [served, noted]
  rw [if_neg leaves, ← same.2, ← outcome]

/-! ## Parts of a request -/

/-- The bytes of a record. -/
def Host.recordLength : Host → Nat
  | .v4 _ => 7
  | .v6 _ => 19
  | .name bytes => bytes.length + 4

theorem AddressRecord.length_eq (isRecord : AddressRecord record host port) :
    record.length = host.recordLength := by
  cases isRecord with
  | v4 bytes => simp [Host.recordLength, portBytes]
  | v6 bytes => simp [Host.recordLength, portBytes]
  | name bytes => simp [Host.recordLength, portBytes]

/-- No record begins another. -/
theorem AddressRecord.eq_of_prefix {record' : List UInt8} {host' : Host} {port' : UInt16}
    (isRecord : AddressRecord record host port) (isRecord' : AddressRecord record' host' port')
    (begins : record' <+: record) : record' = record := by
  have read := @parseAddress_record record [] host port record.length isRecord (Nat.le_refl _)
  obtain ⟨rest, same⟩ := begins
  have read' := @parseAddress_record record' rest host' port' record.length isRecord' (by
    rw [← same, List.length_append]
    omega)
  rw [same] at read'
  rw [List.append_nil, read'] at read
  have hosts : host' = host := (Prod.mk.inj (Except.ok.inj read)).1
  have lengths : record'.length = record.length := by
    rw [isRecord'.length_eq, isRecord.length_eq, hosts]
  exact List.IsPrefix.eq_of_length ⟨rest, same⟩ lengths

/-- A request with its record is understood. -/
theorem requestTarget_known (version reserved : UInt8) (isRecord : AddressRecord record host port) :
    requestTarget (version :: 1 :: reserved :: record) = some (host, serviceText port) := by
  have long : ¬ (version :: 1 :: reserved :: record).length < 6 := by
    have size := isRecord.length_eq
    rw [List.length_cons, List.length_cons, List.length_cons, size]
    cases host <;> simp only [Host.recordLength] <;> omega
  have read := @parseAddress_record record [] host port record.length isRecord (Nat.le_refl _)
  rw [List.append_nil] at read
  have connect : ¬ (version :: 1 :: reserved :: record).getD 1 0 ≠ 1 := not_not.mpr rfl
  unfold requestTarget
  rw [if_neg (not_or.mpr ⟨long, connect⟩)]
  show (parseAddress record record.length).toOption = _
  rw [read]
  rfl

/-- A part of it is not. -/
theorem requestTarget_part (isRecord : AddressRecord record host port) {version reserved : UInt8}
    (part : bytes <+: version :: 1 :: reserved :: record)
    (proper : bytes ≠ version :: 1 :: reserved :: record) : requestTarget bytes = none := by
  unfold requestTarget
  split
  · rfl
  · rename_i long
    obtain ⟨long, _⟩ := not_or.mp long
    obtain ⟨rest, whole⟩ := part
    cases parsed : parseAddress (bytes.drop 3) (bytes.length - 3) with
    | error message => rfl
    | ok found =>
      -- a record within the part would begin that of the request
      have size : bytes.length - 3 = (bytes.drop 3).length := List.length_drop.symm
      rw [size] at parsed
      obtain ⟨record', port', isRecord', begins, _⟩ :=
        (@parseAddress_iff (bytes.drop 3) [] found.1 found.2).mp (by rwa [List.append_nil])
      have behind : bytes.drop 3 ++ rest = record := by
        have dropped := congrArg (List.drop 3) whole
        rwa [List.drop_append_of_le_length (by omega)] at dropped
      have same := isRecord.eq_of_prefix isRecord' (begins.trans ⟨rest, behind⟩)
      have all : rest = [] := by
        have shorter := begins.length_le
        rw [same, ← behind, List.length_append] at shorter
        exact List.length_eq_zero_iff.mp (by omega)
      rw [all, List.append_nil] at whole
      exact absurd whole proper

/-- A request of another type is not understood, nor is any part of it. -/
theorem requestTarget_unknown {version reserved type : UInt8} {rest : List UInt8}
    (other : type ∉ [1, 3, 4]) (part : bytes <+: version :: 1 :: reserved :: type :: rest) :
    requestTarget bytes = none := by
  unfold requestTarget
  split
  · rfl
  · rename_i long
    obtain ⟨long, _⟩ := not_or.mp long
    obtain ⟨more, whole⟩ := part
    have dropped := congrArg (List.drop 3) whole
    rw [List.drop_append_of_le_length (by omega)] at dropped
    have first : (bytes.drop 3).getD 0 0 = type := by
      have inside : 0 < (bytes.drop 3).length := by
        rw [List.length_drop]
        omega
      have head := congrArg (fun text => List.getD text 0 0) dropped
      rw [List.getD_append _ _ _ _ inside] at head
      exact head
    have ne1 : type ≠ 1 := fun same => other (by simp [same])
    have ne3 : type ≠ 3 := fun same => other (by simp [same])
    have ne4 : type ≠ 4 := fun same => other (by simp [same])
    unfold parseAddress
    simp only [first, ne1, ne3, ne4, if_false]
    rfl

/-- **The reads matter**: a request has the outcome of one read exactly when it comes in
one read, or has an address type that is rejected in any case. -/
theorem serveRequest_iff (awaits : r.AwaitsRequest) (gfw : Host → Bool)
    (connect : ConnectRequest request) (short : request.length ≤ 512)
    (nonempty : ∀ bytes ∈ reads, bytes ≠ []) (cut : reads.flatten = request) :
    r.serveRequest gfw reads = r.serveRequest gfw [request] ↔
      reads = [request] ∨ request.getD 3 0 ∉ [1, 3, 4] := by
  have some : request ≠ [] := by cases connect <;> exact List.cons_ne_nil _ _
  cases reads with
  | nil => exact absurd cut.symm some
  | cons first reads =>
    obtain ⟨firstSome, nonempty⟩ := List.forall_mem_cons.mp nonempty
    have part : first <+: request := ⟨reads.flatten, cut⟩
    rw [serveRequest_cons awaits firstSome (part.length_le.trans short),
      serveRequest_cons awaits some short, Option.some_inj]
    by_cases whole : first = request
    · subst whole
      have last : reads = [] := by
        cases reads with
        | nil => rfl
        | cons next reads =>
          have nothing := List.append_right_eq_self.mp cut
          exact absurd (List.append_eq_nil_iff.mp nothing).1 (nonempty next List.mem_cons_self)
      exact iff_of_true rfl (.inl (by rw [last]))
    · have several : first :: reads ≠ [request] := fun same => whole (List.cons.inj same).1
      rw [or_iff_right several]
      cases connect with
      | @known record host port version reserved isRecord =>
        have type : (version :: 1 :: reserved :: record).getD 3 0 ∈ [1, 3, 4] := by
          cases isRecord <;> simp
        refine iff_of_false ?_ (not_not.mpr type)
        intro same
        have targets := congrArg RequestOutcome.target same
        unfold requestOutcome at targets
        rw [requestTarget_part isRecord part whole, requestTarget_known version reserved isRecord]
          at targets
        simp only at targets
        split at targets <;> cases targets
      | unknown version reserved type rest other =>
        refine iff_of_true ?_ other
        unfold requestOutcome
        rw [requestTarget_unknown other part, requestTarget_unknown other (List.prefix_refl _)]

end Requests

/-- A relay that awaits its request. -/
def awaiting : Relay :=
  { kind := .rawTcp, type := .localServer, session := 1, startup := .request, sock := true }

/-- A request for a name server. -/
def someRequest : List UInt8 := [5, 1, 0, 1, 8, 8, 8, 8, 0, 53]

/-- An address of another type is rejected however it comes. -/
theorem serveRequest_iff_rejected :
    awaiting.serveRequest (fun _ => true) [[5, 1, 0], [2, 7]] =
      awaiting.serveRequest (fun _ => true) [[5, 1, 0, 2, 7]] :=
  (@serveRequest_iff awaiting [5, 1, 0, 2, 7] [[5, 1, 0], [2, 7]] ⟨rfl, rfl, rfl, rfl, rfl⟩
    (fun _ => true) (.unknown 5 0 2 [7] (by decide)) (by decide) (by decide) rfl).mpr
    (.inr (by decide))

/-- **A request in two reads is rejected**, and in one read it is not. -/
theorem serveRequest_split :
    ConnectRequest someRequest ∧ [[5, 1, 0, 1, 8], [8, 8, 8, 0, 53]].flatten = someRequest ∧
      awaiting.serveRequest (fun _ => true) [[5, 1, 0, 1, 8], [8, 8, 8, 0, 53]] =
        some ⟨none, [.request ⟨1, .stopTcp, []⟩], .idle⟩ ∧
      awaiting.serveRequest (fun _ => true) [someRequest] =
        some ⟨some (.v4 #v[8, 8, 8, 8], "53"),
          [.request ⟨1, .startTcp, [1, 8, 8, 8, 8, 0, 53]⟩], .okReply⟩ := by
  refine ⟨.known 5 0 (.v4 #v[8, 8, 8, 8] 53), rfl, ?_, ?_⟩
  · decide +kernel
  · decide +kernel

end SslSocks
