import SslSocks.Relay

/-!
# The address records of SOCKS5

`AddressRecord` is the grammar of the records. `parse_address` accepts a buffer exactly
when its first `len` bytes begin with one, whatever lies behind them
(`parseAddress_grammar`), and the writer and the two readers of addresses agree on the
records of socket addresses (`addressCodecs_agree`).
-/

namespace SslSocks

/-- A record with the host and the port that it denotes. -/
inductive AddressRecord : List UInt8 → Host → UInt16 → Prop
  | v4 (bytes : Vector UInt8 4) (port : UInt16) :
    AddressRecord (1 :: bytes.toList ++ portBytes port) (.v4 bytes) port
  | v6 (bytes : Vector UInt8 16) (port : UInt16) :
    AddressRecord (4 :: bytes.toList ++ portBytes port) (.v6 bytes) port
  | name (bytes : List UInt8) (port : UInt16) :
    bytes.length < 256 →
    AddressRecord (3 :: UInt8.ofNat bytes.length :: bytes ++ portBytes port) (.name bytes) port

/-- The decimal text of a port. -/
def serviceText (port : UInt16) : String := toString port.toNat

/-! ## Fields of a buffer -/

/-- A fixed field, as it is read byte by byte. -/
theorem toList_field {data : List UInt8} {off size : Nat} (inside : off + size ≤ data.length) :
    (Vector.ofFn fun i : Fin size => data.getD (off + i) 0).toList = (data.drop off).take size := by
  apply List.ext_getElem
  · simp only [Vector.length_toList, List.length_take, List.length_drop]
    omega
  · intro i here there
    simp only [Vector.length_toList] at here
    have bound : off + i < data.length := by omega
    simp [List.getD_eq_getElem?_getD, bound]

theorem getD_eq_getElem {data : List UInt8} {i : Nat} (inside : i < data.length) :
    data.getD i 0 = data[i] := by
  rw [List.getD_eq_getElem?_getD, List.getElem?_eq_getElem inside, Option.getD_some]

theorem take_one {data : List UInt8} (inside : 1 ≤ data.length) :
    data.take 1 = [data.getD 0 0] := by
  rcases data with _ | ⟨a, data⟩
  · cases inside
  · rfl

theorem take_two {data : List UInt8} (inside : 2 ≤ data.length) :
    data.take 2 = [data.getD 0 0, data.getD 1 0] := by
  rcases data with _ | ⟨a, _ | ⟨b, data⟩⟩
  · cases inside
  · exact absurd inside (by simp)
  · rfl

/-- The port field. -/
theorem portBytes_portAt {data : List UInt8} {i : Nat} (inside : i + 2 ≤ data.length) :
    portBytes (portAt data i) = (data.drop i).take 2 := by
  have field : (data.drop i).take 2 = [data.getD i 0, data.getD (i + 1) 0] := by
    rw [List.drop_eq_getElem_cons (by omega), List.drop_eq_getElem_cons (by omega),
      getD_eq_getElem (by omega), getD_eq_getElem (by omega)]
    rfl
  rw [field]
  unfold portBytes portAt
  generalize data.getD i 0 = high
  generalize data.getD (i + 1) 0 = low
  have highLt : high.toNat < 256 := high.toNat_lt
  have lowLt : low.toNat < 256 := low.toNat_lt
  have value : (UInt16.ofNat (high.toNat * 256 + low.toNat)).toNat = high.toNat * 256 + low.toNat :=
    UInt16.toNat_ofNat_of_lt' (by show _ < 65536; omega)
  rw [value]
  have first : UInt8.ofNat ((high.toNat * 256 + low.toNat) / 256) = high := by
    apply UInt8.toNat_inj.mp
    rw [UInt8.toNat_ofNat']
    omega
  have second : UInt8.ofNat (high.toNat * 256 + low.toNat) = low := by
    apply UInt8.toNat_inj.mp
    rw [UInt8.toNat_ofNat']
    omega
  rw [first, second]

/-- The text of a port is that of its two bytes. -/
theorem portName_eq (data : List UInt8) (i : Nat) :
    portName data i = serviceText (portAt data i) := by
  unfold portName serviceText portAt
  generalize data.getD i 0 = high
  generalize data.getD (i + 1) 0 = low
  have highLt : high.toNat < 256 := high.toNat_lt
  have lowLt : low.toNat < 256 := low.toNat_lt
  have value : (UInt16.ofNat (high.toNat * 256 + low.toNat)).toNat = high.toNat * 256 + low.toNat :=
    UInt16.toNat_ofNat_of_lt' (by show _ < 65536; omega)
  rw [value, ← Nat.shiftLeft_add_eq_or_of_lt (show low.toNat < 2 ^ 8 from lowLt), Nat.shiftLeft_eq]

/-- The port at a place where its bytes lie. -/
theorem portAt_of_bytes {data : List UInt8} {i : Nat} {port : UInt16}
    (inside : i + 2 ≤ data.length) (bytes : (data.drop i).take 2 = portBytes port) :
    portAt data i = port := by
  rw [← portBytes_portAt inside] at bytes
  unfold portBytes at bytes
  have high := congrArg UInt8.toNat (List.cons.inj bytes).1
  have low := congrArg UInt8.toNat (List.cons.inj (List.cons.inj bytes).2).1
  rw [UInt8.toNat_ofNat', UInt8.toNat_ofNat'] at high low
  have one : (portAt data i).toNat < 65536 := (portAt data i).toNat_lt
  have two : port.toNat < 65536 := port.toNat_lt
  apply UInt16.toNat_inj.mp
  omega

/-! ## `parse_address` -/

/-- The port of a record at the head of a buffer, behind `skip` bytes. -/
theorem portAt_of_layout (skip : List UInt8) (port : UInt16) (rest : List UInt8) :
    portAt (skip ++ portBytes port ++ rest) skip.length = port := by
  have two : (portBytes port).length = 2 := rfl
  apply portAt_of_bytes
  · simp only [List.length_append, two]
    omega
  · rw [List.append_assoc, List.drop_left, ← two, List.take_left]

/-- A record at the head of a buffer is read, when it lies within `len`. -/
theorem parseAddress_record {record rest : List UInt8} {host : Host} {port : UInt16} {len : Nat}
    (isRecord : AddressRecord record host port) (within : record.length ≤ len) :
    parseAddress (record ++ rest) len = .ok (host, serviceText port) := by
  cases isRecord with
  | v4 bytes =>
    have portIs := portAt_of_layout (1 :: bytes.toList) port rest
    have enough : ¬ len < 4 + 3 := by
      simp only [List.length_append, List.length_cons, Vector.length_toList, portBytes,
        List.length_nil] at within
      omega
    have text := portName_eq (1 :: bytes.toList ++ portBytes port ++ rest) 5
    rw [show portAt (1 :: bytes.toList ++ portBytes port ++ rest) 5 = port from by
      simpa using portIs] at text
    have host : (Vector.ofFn fun i : Fin 4 =>
        (1 :: bytes.toList ++ portBytes port ++ rest).getD (1 + i) 0) = bytes := by
      apply Vector.toList_inj.mp
      rw [toList_field (by simp [portBytes])]
      simp
    unfold parseAddress
    rw [text, host]
    simp only [List.cons_append, List.getD_cons_zero, ↓reduceIte, enough]
  | v6 bytes =>
    have portIs := portAt_of_layout (4 :: bytes.toList) port rest
    have enough : ¬ len < 16 + 3 := by
      simp only [List.length_append, List.length_cons, Vector.length_toList, portBytes,
        List.length_nil] at within
      omega
    have text := portName_eq (4 :: bytes.toList ++ portBytes port ++ rest) 17
    rw [show portAt (4 :: bytes.toList ++ portBytes port ++ rest) 17 = port from by
      simpa using portIs] at text
    have host : (Vector.ofFn fun i : Fin 16 =>
        (4 :: bytes.toList ++ portBytes port ++ rest).getD (1 + i) 0) = bytes := by
      apply Vector.toList_inj.mp
      rw [toList_field (by simp [portBytes])]
      simp
    unfold parseAddress
    rw [text, host]
    have other : (4 : UInt8) ≠ 1 := by decide
    simp only [List.cons_append, List.getD_cons_zero, other, ↓reduceIte, enough]
  | name bytes _ short =>
    have portIs := portAt_of_layout (3 :: UInt8.ofNat bytes.length :: bytes) port rest
    have size : (UInt8.ofNat bytes.length).toNat = bytes.length := UInt8.toNat_ofNat_of_lt' short
    have enough : ¬ len < bytes.length + 4 := by
      simp only [List.length_append, List.length_cons, portBytes, List.length_nil] at within
      omega
    have text := portName_eq (3 :: UInt8.ofNat bytes.length :: bytes ++ portBytes port ++ rest)
      (bytes.length + 2)
    rw [show portAt (3 :: UInt8.ofNat bytes.length :: bytes ++ portBytes port ++ rest)
      (bytes.length + 2) = port from portIs] at text
    have host : ((3 :: UInt8.ofNat bytes.length :: bytes ++ portBytes port ++ rest).drop 2).take
        bytes.length = bytes := by simp
    have other1 : (3 : UInt8) ≠ 1 := by decide
    have other4 : (3 : UInt8) ≠ 4 := by decide
    unfold parseAddress
    simp only [List.cons_append, List.getD_cons_zero, List.getD_cons_succ, other1, other4, size,
      ↓reduceIte, enough] at text host ⊢
    rw [text, host]

/-- What is read lies at the head of the buffer. -/
theorem record_of_parseAddress {data : List UInt8} {host : Host} {service : String} {len : Nat}
    (present : len ≤ data.length) (parsed : parseAddress data len = .ok (host, service)) :
    ∃ record port, AddressRecord record host port ∧ record <+: data.take len ∧
      service = serviceText port := by
  -- the bytes before, in and behind a field, and the port
  have cut (skip size : Nat) (enough : skip + size + 2 ≤ len) :
      data.take skip ++ (data.drop skip).take size ++ portBytes (portAt data (skip + size)) <+:
        data.take len := by
    rw [portBytes_portAt (by omega), ← List.take_add, ← List.take_add]
    exact List.take_prefix_take_left enough
  unfold parseAddress at parsed
  simp only at parsed
  split at parsed
  · rename_i type
    split at parsed
    · cases parsed
    · rename_i enough
      cases parsed
      have here := cut 1 4 (by omega)
      rw [take_one (by omega), type, ← toList_field (by omega)] at here
      exact ⟨_, _, .v4 _ (portAt data 5), here, portName_eq data 5⟩
  · split at parsed
    · rename_i type
      split at parsed
      · cases parsed
      · rename_i enough
        cases parsed
        have here := cut 1 16 (by omega)
        rw [take_one (by omega), type, ← toList_field (by omega)] at here
        exact ⟨_, _, .v6 _ (portAt data 17), here, portName_eq data 17⟩
    · split at parsed
      · rename_i type
        split at parsed
        · cases parsed
        · rename_i enough
          cases parsed
          have here := cut 2 (data.getD 1 0).toNat (by omega)
          generalize fieldIs : (data.drop 2).take (data.getD 1 0).toNat = field at here ⊢
          have size : field.length = (data.getD 1 0).toNat := by
            rw [← fieldIs, List.length_take, List.length_drop]
            omega
          have length : data.getD 1 0 = UInt8.ofNat field.length := by
            rw [size, UInt8.ofNat_toNat]
          rw [take_two (by omega), type, length] at here
          refine ⟨_, _, .name field _ ?_, here, ?_⟩
          · rw [size]
            exact (data.getD 1 0).toNat_lt
          · rw [← length, Nat.add_comm 2]
            exact portName_eq data _
      · cases parsed

/-- Acceptance, and the value, by the record at the head of the buffer. -/
theorem parseAddress_iff {bytes stale : List UInt8} {host : Host} {service : String} :
    parseAddress (bytes ++ stale) bytes.length = .ok (host, service) ↔
      ∃ record port, AddressRecord record host port ∧ record <+: bytes ∧
        service = serviceText port := by
  constructor
  · intro parsed
    have found := record_of_parseAddress (by simp) parsed
    rwa [List.take_left] at found
  · rintro ⟨record, port, isRecord, ⟨rest, rfl⟩, rfl⟩
    rw [List.append_assoc]
    exact parseAddress_record isRecord (by simp)

/-- **`parse_address` accepts the grammar.** A buffer whose first bytes are `bytes`, with
anything behind them, is accepted when they begin with a record, and then read as that
record says; what lies behind shows at most in the text of an exception. -/
theorem parseAddress_grammar (bytes stale : List UInt8) :
    (∀ host service, parseAddress (bytes ++ stale) bytes.length = .ok (host, service) ↔
      ∃ record port, AddressRecord record host port ∧ record <+: bytes ∧
        service = serviceText port) ∧
    ((∃ message, parseAddress (bytes ++ stale) bytes.length = .error message) ↔
      ¬ ∃ record host port, AddressRecord record host port ∧ record <+: bytes) ∧
    (∀ stale', (parseAddress (bytes ++ stale) bytes.length).toOption =
      (parseAddress (bytes ++ stale') bytes.length).toOption) ∧
    (2 ≤ bytes.length → ∀ stale', parseAddress (bytes ++ stale) bytes.length =
      parseAddress (bytes ++ stale') bytes.length) := by
  have grammar (stale : List UInt8) := @parseAddress_iff bytes stale
  refine ⟨fun host service => grammar stale, ⟨?_, ?_⟩, fun stale' => ?_, fun two stale' => ?_⟩
  · rintro ⟨message, threw⟩ ⟨record, host, port, isRecord, begins⟩
    have parsed := (grammar stale).mpr ⟨record, port, isRecord, begins, rfl⟩
    rw [threw] at parsed
    cases parsed
  · intro none
    cases parsed : parseAddress (bytes ++ stale) bytes.length with
    | error message => exact ⟨message, rfl⟩
    | ok found =>
      obtain ⟨record, port, isRecord, begins, _⟩ := (grammar stale).mp parsed
      exact absurd ⟨record, _, port, isRecord, begins⟩ none
  · apply Option.ext
    rintro ⟨host, service⟩
    have ok (x : Except String (Host × String)) (r : Host × String) :
        x.toOption = some r ↔ x = .ok r := by
      cases x <;> simp [Except.toOption]
    rw [ok, ok, grammar stale, grammar stale']
  · rcases bytes with _ | ⟨type, _ | ⟨size, bytes⟩⟩
    · exact absurd two (by simp)
    · exact absurd two (by simp)
    · have same (found : Host × String) :
          parseAddress (type :: size :: bytes ++ stale) (type :: size :: bytes).length = .ok found ↔
          parseAddress (type :: size :: bytes ++ stale') (type :: size :: bytes).length =
            .ok found :=
        (grammar stale).trans (grammar stale').symm
      cases first : parseAddress (type :: size :: bytes ++ stale) (type :: size :: bytes).length with
      | ok found => exact ((same found).mp first).symm
      | error message =>
        cases second : parseAddress (type :: size :: bytes ++ stale')
            (type :: size :: bytes).length with
        | ok found =>
          rw [(same found).mpr second] at first
          cases first
        | error message' =>
          -- the text of an exception takes no more than the first two bytes and `len`
          unfold parseAddress at first second
          simp only [List.cons_append, List.getD_cons_zero, List.getD_cons_succ] at first second
          split_ifs at first second <;> exact first.symm.trans second

/-! ## The three codecs -/

/-- The host that a socket address is. -/
def IpAddress.host : IpAddress → Host
  | .v4 bytes => .v4 bytes
  | .v6 bytes => .v6 bytes

/-- What `parse_addr` writes is the record of the endpoint. -/
theorem addressRecord_parseAddr (e : Endpoint) : AddressRecord (parseAddr e) e.addr.host e.port := by
  obtain ⟨addr, port⟩ := e
  cases addr with
  | v4 bytes => exact .v4 bytes port
  | v6 bytes => exact .v6 bytes port

/-- `get_data_addr` reads it back, whatever lies behind. -/
theorem getDataAddr_parseAddr (e : Endpoint) (rest : List UInt8) :
    getDataAddr (parseAddr e ++ rest) = e := by
  obtain ⟨addr, port⟩ := e
  cases addr with
  | v4 bytes =>
    have portIs : portAt (1 :: bytes.toList ++ portBytes port ++ rest) 5 = port := by
      simpa using portAt_of_layout (1 :: bytes.toList) port rest
    have host : (Vector.ofFn fun i : Fin 4 =>
        (1 :: bytes.toList ++ portBytes port ++ rest).getD (1 + i) 0) = bytes := by
      apply Vector.toList_inj.mp
      rw [toList_field (by simp [portBytes])]
      simp
    unfold getDataAddr parseAddr
    rw [portIs, host]
    simp only [List.cons_append, List.getD_cons_zero, ↓reduceIte]
  | v6 bytes =>
    have portIs : portAt (4 :: bytes.toList ++ portBytes port ++ rest) 17 = port := by
      simpa using portAt_of_layout (4 :: bytes.toList) port rest
    have host : (Vector.ofFn fun i : Fin 16 =>
        (4 :: bytes.toList ++ portBytes port ++ rest).getD (1 + i) 0) = bytes := by
      apply Vector.toList_inj.mp
      rw [toList_field (by simp [portBytes])]
      simp
    have other : (4 : UInt8) ≠ 1 := by decide
    unfold getDataAddr parseAddr
    rw [portIs, host]
    simp only [List.cons_append, List.getD_cons_zero, other, ↓reduceIte]

/-- The two readers agree on every address record of a socket address. -/
theorem getDataAddr_of_parseAddress {data : List UInt8} {len : Nat} {host : Host}
    {service : String} (parsed : parseAddress data len = .ok (host, service))
    (type : data.getD 0 0 = 1 ∨ data.getD 0 0 = 4) :
    host = (getDataAddr data).addr.host ∧ service = serviceText (getDataAddr data).port := by
  unfold parseAddress at parsed
  unfold getDataAddr
  have other : (4 : UInt8) ≠ 1 := by decide
  rcases type with type | type
  all_goals
    simp only [type, other, ↓reduceIte] at parsed ⊢
    split at parsed
    · cases parsed
    · cases parsed
      exact ⟨rfl, portName_eq data _⟩

/-- A connect request that goes on over the ssl connection was read, and its address
goes on as it came. -/
theorem startTcp_of_requestDone {r : Relay} {alive blocked : Bool} {request : List UInt8}
    {buf : Frame} (asked : .request buf ∈ (r.requestDone alive blocked request).2)
    (start : buf.cmd = .startTcp) :
    buf.payload = request.drop 3 ∧ 6 ≤ request.length ∧
      ∃ found, parseAddress (request.drop 3) (request.length - 3) = .ok found := by
  have noStart (a : Relay) : .request buf ∉ (a.caught alive).2 := by
    unfold Relay.caught
    simp only
    split
    · intro told
      cases List.mem_singleton.mp told
      cases start
    · exact List.not_mem_nil
  unfold Relay.requestDone at asked
  simp only at asked
  split at asked
  · exact absurd asked (noStart _)
  · rename_i complete
    split at asked
    · exact absurd asked (noStart _)
    · rename_i found parsed
      split at asked
      · split at asked
        · cases List.mem_singleton.mp asked
          exact ⟨rfl, Nat.not_lt.mp fun short => complete (.inl short), found, parsed⟩
        · cases List.mem_singleton.mp asked
      · cases asked

/-- A connect request that is accepted and blocked goes on as a `START_TCP` with its address. -/
theorem requestDone_accepted {request : List UInt8} {found : Host × String} (r : Relay)
    (complete : 6 ≤ request.length) (connect : request.getD 1 0 = 1)
    (parsed : parseAddress (request.drop 3) (request.length - 3) = .ok found) :
    (r.requestDone true true request).2 =
      [.request ⟨r.session, .startTcp, request.drop 3⟩] := by
  have goes : ¬ (request.length < 6 ∨ request.getD 1 0 ≠ 1) :=
    not_or.mpr ⟨Nat.not_lt.mpr complete, not_not.mpr connect⟩
  unfold Relay.requestDone
  simp only [if_neg goes, parsed, if_true]

/-- What lies behind the bytes is not read. -/
theorem parseAddress_stale {bytes : List UInt8} {found : Host × String}
    (parsed : parseAddress bytes bytes.length = .ok found) (stale : List UInt8) :
    parseAddress (bytes ++ stale) bytes.length = .ok found := by
  have here : parseAddress (bytes ++ []) bytes.length = .ok found := by
    rw [List.append_nil]
    exact parsed
  exact parseAddress_iff.mpr (parseAddress_iff.mp here)

/-- **The address codecs agree**: what `parse_addr` writes, `get_data_addr` and
`parse_address` read back; on the records of socket addresses the two readers agree; the remote
side reads in a `START_TCP` what the local side read in the request; and each connect request
that the local side accepts for a blocked host makes such a `START_TCP`. -/
theorem addressCodecs_agree :
    (∀ (e : Endpoint) (stale : List UInt8),
      getDataAddr (parseAddr e ++ stale) = e ∧
        parseAddress (parseAddr e ++ stale) (parseAddr e).length =
          .ok (e.addr.host, serviceText e.port)) ∧
    (∀ (data : List UInt8) (len : Nat) (host : Host) (service : String),
      parseAddress data len = .ok (host, service) → data.getD 0 0 = 1 ∨ data.getD 0 0 = 4 →
        host = (getDataAddr data).addr.host ∧ service = serviceText (getDataAddr data).port) ∧
    (∀ (r : Relay) (alive blocked : Bool) (request : List UInt8) (buf : Frame),
      .request buf ∈ (r.requestDone alive blocked request).2 → buf.cmd = .startTcp →
        ∃ found, ∀ stale stale' : List UInt8,
          parseAddress (request.drop 3 ++ stale) (request.length - 3) = .ok found ∧
            parseAddress (buf.payload ++ stale') buf.payload.length = .ok found) ∧
    (∀ (r : Relay) (request : List UInt8) (found : Host × String),
      6 ≤ request.length → request.getD 1 0 = 1 →
        parseAddress (request.drop 3) (request.length - 3) = .ok found →
          ∃ buf, (r.requestDone true true request).2 = [.request buf] ∧ buf.cmd = .startTcp ∧
            buf.session = r.session ∧
            ∀ stale, parseAddress (buf.payload ++ stale) buf.payload.length = .ok found) := by
  refine ⟨fun e stale => ⟨getDataAddr_parseAddr e stale, ?_⟩, fun _ _ _ _ => ?_,
    fun r alive blocked request buf asked start => ?_,
    fun r request found complete connect parsed => ?_⟩
  · exact parseAddress_record (addressRecord_parseAddr e) (Nat.le_refl _)
  · exact getDataAddr_of_parseAddress
  · obtain ⟨payload, complete, found, parsed⟩ := startTcp_of_requestDone asked start
    rw [← List.length_drop] at parsed
    refine ⟨found, fun stale stale' => ⟨?_, ?_⟩⟩
    · rw [← List.length_drop]
      exact parseAddress_stale parsed stale
    · rw [payload]
      exact parseAddress_stale parsed stale'
  · refine ⟨_, requestDone_accepted r complete connect parsed, rfl, rfl, ?_⟩
    rw [← List.length_drop] at parsed
    exact parseAddress_stale parsed

/-- A request for port 80 of the host `a.b`. -/
def connectByName : List UInt8 := [5, 1, 0, 3, 3, 97, 46, 98, 0, 80]

theorem addressCodecs_agree_byName :
    ∃ buf, (Relay.requestDone { kind := .rawTcp, type := .localServer, session := 7 } true true
        connectByName).2 = [.request buf] ∧ buf.cmd = .startTcp ∧ buf.session = 7 ∧
      ∀ stale, parseAddress (buf.payload ++ stale) buf.payload.length =
        .ok (.name [97, 46, 98], "80") :=
  addressCodecs_agree.2.2.2 _ connectByName _ (by decide) (by decide) (by decide +kernel)

end SslSocks
