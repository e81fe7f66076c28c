import SslSocks.RelayData

/-!
# `ssl_impl::impl_start_read`: cutting the ssl byte stream into messages

`Reader` is the await point of the read loop together with the `relay_data` it
fills, and `Reader.feed` is what the loop does with one completed read. The
header is asked for by one `async_read_some`, which may return fewer bytes than
asked; the payload by an `async_read`, which goes on until it is complete.
`implStartRead` runs the loop on a stream that arrives in chunks.

`Reader.feed_spec` says once what a read does to the bytes consumed so far; the
results about whole streams, and later those about whole connections, rest on it.
-/

namespace SslSocks

open Lib

/-- The await points of the read loop. -/
inductive Reader
  /-- `async_read_some(header_buffer())`. -/
  | header
  /-- `async_read(data_buffer())`, of which `got` bytes have arrived. -/
  | payload (buf : RelayData) (got : Nat)

/-- The bytes asked of the stream. -/
def Reader.want : Reader → Nat
  | .header => headerSize
  | .payload buf got => buf.dataSize - got

/-- What the loop does with the bytes of one read. -/
inductive ReadStep
  | more (rd : Reader)
  | message (buf : RelayData)
  | threw
  | overrun

/-- One completed read. -/
def Reader.feed : Reader → List UInt8 → ReadStep
  | .header, bytes =>
    let buf := (RelayData.ofSession 0).setHead (Header.ofBytes bytes)
    if bytes.length ≠ headerSize ∨ readBufferSize < buf.dataSize then .threw
    -- an empty payload is not read at all
    else if buf.dataSize = 0 then .message buf
    else .more (.payload buf 0)
  | .payload buf got, bytes =>
    match buf.store got bytes with
    | none => .overrun
    | some buf =>
      if got + bytes.length < buf.dataSize then .more (.payload buf (got + bytes.length))
      else .message buf

/-- The bytes of the message at hand that have been consumed. -/
def Reader.text : Reader → List UInt8
  | .header => []
  | .payload buf got => buf.head.bytes ++ buf.data.take got

/-- The payload awaited fits `_data` and is not complete. -/
def Reader.Ok : Reader → Prop
  | .header => True
  | .payload buf got => buf.dataSize ≤ readBufferSize ∧ got < buf.dataSize

theorem Reader.ok_header : Reader.header.Ok := True.intro

theorem Reader.want_pos {rd : Reader} (ok : rd.Ok) : 0 < rd.want := by
  cases rd with
  | header => decide
  | payload buf got =>
    exact Nat.sub_pos_of_lt ok.2

/-- **One read of the loop.** Bytes that a read can return are appended to the
text of the message at hand, a complete message is the text consumed for it, no
store leaves `_data`, and the loop throws only on a header that is short or
announces too much. -/
theorem Reader.feed_spec {rd : Reader} {bytes : List UInt8} (ok : rd.Ok)
    (nonempty : bytes ≠ []) (asked : bytes.length ≤ rd.want) :
    match rd.feed bytes with
    | .more rd' => rd'.Ok ∧ rd'.text = rd.text ++ bytes
    | .message buf => buf.dataSize ≤ readBufferSize ∧ buf.buffers = rd.text ++ bytes
    | .threw => rd = .header ∧ (bytes.length ≠ headerSize ∨
        readBufferSize < (Header.ofBytes bytes).len.toNat)
    | .overrun => False := by
  cases rd with
  | header =>
    by_cases bad : bytes.length ≠ headerSize ∨
        readBufferSize < (Header.ofBytes bytes).len.toNat
    · have fed : feed .header bytes = .threw := if_pos bad
      rw [fed]
      exact ⟨rfl, bad⟩
    · obtain ⟨full, fits⟩ := not_or.mp bad
      have head := Header.bytes_ofBytes (not_not.mp full)
      by_cases empty : (Header.ofBytes bytes).len.toNat = 0
      · have fed : feed .header bytes =
            .message ((RelayData.ofSession 0).setHead (Header.ofBytes bytes)) :=
          (if_neg bad).trans (if_pos empty)
        rw [fed]
        refine ⟨Nat.le_of_not_lt fits, ?_⟩
        have length : ((RelayData.ofSession 0).setHead (Header.ofBytes bytes)).dataSize = 0 :=
          empty
        rw [RelayData.buffers, RelayData.dataBuffer, length, List.take_zero, List.append_nil]
        exact head
      · have fed : feed .header bytes =
            .more (.payload ((RelayData.ofSession 0).setHead (Header.ofBytes bytes)) 0) :=
          (if_neg bad).trans (if_neg empty)
        rw [fed]
        refine ⟨⟨Nat.le_of_not_lt fits, Nat.pos_of_ne_zero empty⟩, ?_⟩
        show (Header.ofBytes bytes).bytes ++ List.take 0 _ = bytes
        rw [List.take_zero, List.append_nil]
        exact head
  | payload buf got =>
    obtain ⟨fits, unfinished⟩ := ok
    have within : got + bytes.length ≤ buf.dataSize := by
      have le : bytes.length ≤ buf.dataSize - got := asked
      omega
    have positive : 0 < bytes.length := List.length_pos_of_ne_nil nonempty
    cases stored : buf.store got bytes with
    | none =>
      have inside : got + bytes.length ≤ readBufferSize := Nat.le_trans within fits
      simp only [RelayData.store, inside, ↓reduceDIte, reduceCtorEq] at stored
    | some buf' =>
      obtain ⟨data, head⟩ := RelayData.take_store stored
      have size : buf'.dataSize = buf.dataSize := by
        rw [RelayData.dataSize, head]
        rfl
      have consumed : buf'.head.bytes ++ buf'.data.take (got + bytes.length) =
          Reader.text (.payload buf got) ++ bytes := by
        rw [head, data, text, List.append_assoc]
      simp only [feed, stored]
      by_cases short : got + bytes.length < buf'.dataSize
      · rw [if_pos short]
        exact ⟨⟨size ▸ fits, short⟩, consumed⟩
      · rw [if_neg short]
        refine ⟨size ▸ fits, ?_⟩
        have complete : buf'.dataSize = got + bytes.length := by omega
        rw [RelayData.buffers, RelayData.dataBuffer, complete]
        exact consumed

/-! ## A stream delivered in chunks -/

/-- `async_read_some` of up to `n` bytes: at most what is left of the chunk that
has arrived. `none` is the end of the stream. -/
def readSome (n : Nat) : List (List UInt8) → Option (List UInt8 × List (List UInt8))
  | [] => none
  | [] :: chunks => readSome n chunks
  | (b :: bs) :: chunks => some ((b :: bs).take n, (b :: bs).drop n :: chunks)

/-- How the loop ended. -/
inductive ReadEnd
  | eof
  | threw
  | overrun
  | running
  deriving DecidableEq

/-- The messages handed to `add_response`, and how the loop ended. -/
structure ReadRun where
  handed : List RelayData
  ended : ReadEnd

/-- The loop from one await point on, for at most `fuel` reads. -/
def readLoop : Nat → Reader → List (List UInt8) → ReadRun
  | 0, _, _ => ⟨[], .running⟩
  | fuel + 1, rd, chunks =>
    match readSome rd.want chunks with
    | none => ⟨[], .eof⟩
    | some (bytes, rest) =>
      match rd.feed bytes with
      | .more rd' => readLoop fuel rd' rest
      | .message buf =>
        let run := readLoop fuel .header rest
        { run with handed := buf :: run.handed }
      | .threw => ⟨[], .threw⟩
      | .overrun => ⟨[], .overrun⟩

/-- `impl_start_read` on a stream. Every read consumes a byte, so one read more
than there are bytes reaches the end (`implStartRead_ended`). -/
def implStartRead (chunks : List (List UInt8)) : ReadRun :=
  readLoop (chunks.flatten.length + 1) .header chunks

theorem readSome_eq_none {n : Nat} {chunks : List (List UInt8)} :
    readSome n chunks = none ↔ chunks.flatten = [] := by
  induction chunks with
  | nil => simp only [readSome, List.flatten_nil]
  | cons chunk chunks ih =>
    cases chunk with
    | nil => simpa only [readSome, List.flatten_cons, List.nil_append] using ih
    | cons b bs => simp only [readSome, List.flatten_cons, List.cons_append, reduceCtorEq]

/-- A read returns between one byte and the bytes asked for, in order. -/
theorem readSome_spec {n : Nat} {chunks rest : List (List UInt8)} {bytes : List UInt8}
    (positive : 0 < n) (read : readSome n chunks = some (bytes, rest)) :
    bytes ≠ [] ∧ bytes.length ≤ n ∧ chunks.flatten = bytes ++ rest.flatten := by
  induction chunks with
  | nil => cases read
  | cons chunk chunks ih =>
    cases chunk with
    | nil => simpa only [List.flatten_cons, List.nil_append] using ih read
    | cons b bs =>
      cases read
      refine ⟨?_, List.length_take_le _ _, ?_⟩
      · obtain ⟨m, rfl⟩ := Nat.exists_eq_succ_of_ne_zero (Nat.ne_of_gt positive)
        rw [List.take_succ_cons]
        exact List.cons_ne_nil _ _
      · rw [List.flatten_cons, List.flatten_cons, ← List.append_assoc, List.take_append_drop]

/-- The messages handed on are, as text, a prefix of what was consumed. -/
theorem readLoop_text {fuel : Nat} {rd : Reader} {chunks : List (List UInt8)} (ok : rd.Ok) :
    (readLoop fuel rd chunks).handed.flatMap RelayData.buffers <+: rd.text ++ chunks.flatten ∧
      (∀ buf ∈ (readLoop fuel rd chunks).handed, buf.dataSize ≤ readBufferSize) ∧
      (readLoop fuel rd chunks).ended ≠ .overrun := by
  induction fuel generalizing rd chunks with
  | zero => exact ⟨List.nil_prefix, fun _ member => absurd member List.not_mem_nil, nofun⟩
  | succ fuel ih =>
    unfold readLoop
    cases read : readSome rd.want chunks with
    | none => exact ⟨List.nil_prefix, fun _ member => absurd member List.not_mem_nil, nofun⟩
    | some result =>
      obtain ⟨bytes, rest⟩ := result
      obtain ⟨nonempty, asked, flat⟩ := readSome_spec (Reader.want_pos ok) read
      have spec := Reader.feed_spec ok nonempty asked
      simp only
      cases fed : rd.feed bytes with
      | more rd' =>
        rw [fed] at spec
        obtain ⟨ok', text⟩ := spec
        have whole : rd'.text ++ rest.flatten = rd.text ++ chunks.flatten := by
          rw [text, flat, List.append_assoc]
        rw [← whole]
        exact ih ok'
      | message buf =>
        rw [fed] at spec
        obtain ⟨fits, text⟩ := spec
        obtain ⟨later, laterFits, ended⟩ := ih Reader.ok_header
        refine ⟨?_, ?_, ended⟩
        · rw [flat, ← List.append_assoc, ← text, List.flatMap_cons]
          exact (List.prefix_append_right_inj _).mpr later
        · intro b member
          rcases List.mem_cons.mp member with rfl | member
          · exact fits
          · exact laterFits b member
      | threw => exact ⟨List.nil_prefix, fun _ member => absurd member List.not_mem_nil, nofun⟩
      | overrun =>
        rw [fed] at spec
        exact spec.elim

/-- The loop comes to its end when there is a read more than there are bytes. -/
theorem readLoop_ended {fuel : Nat} {rd : Reader} {chunks : List (List UInt8)} (ok : rd.Ok)
    (enough : chunks.flatten.length < fuel) : (readLoop fuel rd chunks).ended ≠ .running := by
  induction fuel generalizing rd chunks with
  | zero => exact absurd enough (Nat.not_lt_zero _)
  | succ fuel ih =>
    unfold readLoop
    cases read : readSome rd.want chunks with
    | none => exact nofun
    | some result =>
      obtain ⟨bytes, rest⟩ := result
      obtain ⟨nonempty, asked, flat⟩ := readSome_spec (Reader.want_pos ok) read
      have positive : 0 < bytes.length := List.length_pos_of_ne_nil nonempty
      have shorter : rest.flatten.length < fuel := by
        rw [flat, List.length_append] at enough
        omega
      have spec := Reader.feed_spec ok nonempty asked
      simp only
      cases fed : rd.feed bytes with
      | more rd' =>
        rw [fed] at spec
        exact ih spec.1 shorter
      | message buf => exact ih Reader.ok_header shorter
      | threw | overrun => exact nofun

/-- `impl_start_read` ends on every stream that does. -/
theorem implStartRead_ended (chunks : List (List UInt8)) :
    (implStartRead chunks).ended ≠ .running :=
  readLoop_ended Reader.ok_header (Nat.lt_succ_self _)

/-! ## Chunk boundaries inside headers -/

/-- Where the header of message `i` starts in the stream of `msgs`. -/
def headerStart (msgs : List RelayData) (i : Nat) : Nat :=
  ((msgs.take i).flatMap RelayData.buffers).length

/-- Where the first `j` chunks end. -/
def chunkEnd (chunks : List (List UInt8)) (j : Nat) : Nat :=
  (chunks.take j).flatten.length

/-- With `base` bytes before the messages, no chunk ends inside a header. -/
def HeadersWhole (base : Nat) (msgs : List RelayData) (chunks : List (List UInt8)) : Prop :=
  ∀ i < msgs.length, ∀ j,
    ¬ (base + headerStart msgs i < chunkEnd chunks j ∧
      chunkEnd chunks j < base + headerStart msgs i + headerSize)

theorem headerStart_succ (msg : RelayData) (msgs : List RelayData) (i : Nat) :
    headerStart (msg :: msgs) (i + 1) = msg.buffers.length + headerStart msgs i := by
  simp only [headerStart, List.take_succ_cons, List.flatMap_cons, List.length_append]

theorem HeadersWhole.tail {base : Nat} {msg : RelayData} {msgs : List RelayData}
    {chunks : List (List UInt8)} (whole : HeadersWhole base (msg :: msgs) chunks) :
    HeadersWhole (base + msg.buffers.length) msgs chunks := by
  intro i lt j
  have later := whole (i + 1) (Nat.succ_lt_succ lt) j
  rw [headerStart_succ] at later
  rwa [Nat.add_assoc]

/-- A read moves the boundaries to the left by what it consumed. -/
theorem HeadersWhole.read {base n : Nat} {msgs : List RelayData}
    {chunks rest : List (List UInt8)} {bytes : List UInt8}
    (whole : HeadersWhole base msgs chunks) (read : readSome n chunks = some (bytes, rest))
    (before : bytes.length ≤ base) : HeadersWhole (base - bytes.length) msgs rest := by
  induction chunks with
  | nil => cases read
  | cons chunk chunks ih =>
    cases chunk with
    | nil =>
      refine ih (fun i lt j => ?_) read
      exact whole i lt (j + 1)
    | cons b bs =>
      cases read
      intro i lt j inside
      cases j with
      | zero => exact absurd inside.1 (Nat.not_lt_zero _)
      | succ j =>
        have unread := whole i lt (j + 1)
        have ends : chunkEnd ((b :: bs) :: chunks) (j + 1) =
            ((b :: bs).take n).length + chunkEnd ((b :: bs).drop n :: chunks) (j + 1) := by
          have cut := congrArg List.length (List.take_append_drop n (b :: bs))
          rw [List.length_append] at cut
          simp only [chunkEnd, List.take_succ_cons, List.flatten_cons, List.length_append]
          omega
        rw [ends] at unread
        omega

/-- A header that no boundary cuts is returned whole by the one read. -/
theorem HeadersWhole.length_read {msg : RelayData} {msgs : List RelayData}
    {chunks rest : List (List UInt8)} {bytes : List UInt8}
    (whole : HeadersWhole 0 (msg :: msgs) chunks)
    (enough : headerSize ≤ chunks.flatten.length)
    (read : readSome headerSize chunks = some (bytes, rest)) :
    bytes.length = headerSize := by
  induction chunks with
  | nil => cases read
  | cons chunk chunks ih =>
    cases chunk with
    | nil => exact ih (fun i lt j => whole i lt (j + 1)) enough read
    | cons b bs =>
      cases read
      have first := whole 0 (Nat.succ_pos _) 1
      have start : headerStart (msg :: msgs) 0 = 0 := rfl
      have ends : chunkEnd ((b :: bs) :: chunks) 1 = (b :: bs).length := by
        simp only [chunkEnd, List.take_succ_cons, List.take_zero, List.flatten_cons,
          List.flatten_nil, List.append_nil]
      rw [start, ends] at first
      have positive : 0 < (b :: bs).length := Nat.succ_pos _
      rw [List.length_take]
      omega

/-- What has been consumed of the message at hand and what is still to come are
together the text of `msgs`, and no later header is cut. -/
structure Reader.Aligned (rd : Reader) (msgs : List RelayData)
    (chunks : List (List UInt8)) : Prop where
  stream : rd.text ++ chunks.flatten = msgs.flatMap RelayData.buffers
  whole : rd = .header → HeadersWhole 0 msgs chunks
  later : ∀ {msg rest}, msgs = msg :: rest →
    HeadersWhole (msg.buffers.length - rd.text.length) rest chunks

/-- At a message boundary alignment is about the stream and its headers only. -/
theorem Reader.aligned_header {msgs : List RelayData} {chunks : List (List UInt8)}
    (stream : chunks.flatten = msgs.flatMap RelayData.buffers)
    (whole : HeadersWhole 0 msgs chunks) : Reader.header.Aligned msgs chunks := by
  refine ⟨stream, fun _ => whole, ?_⟩
  rintro msg rest rfl
  have tail := whole.tail
  rw [Nat.zero_add] at tail
  exact tail

theorem RelayData.length_buffers {buf : RelayData} (fits : buf.dataSize ≤ readBufferSize) :
    buf.buffers.length = headerSize + buf.dataSize := by
  rw [buffers, List.length_append, Header.length_bytes, length_dataBuffer fits]

/-- Two messages at the head of one text have the same content and end together. -/
theorem RelayData.eq_of_text {buf msg : RelayData} {rest later : List UInt8}
    (fitsBuf : buf.dataSize ≤ readBufferSize) (fitsMsg : msg.dataSize ≤ readBufferSize)
    (text : buf.buffers ++ rest = msg.buffers ++ later) :
    buf.frame = msg.frame ∧ rest = later := by
  have frame : buf.frame = msg.frame := by
    have first : frameCode.encode buf.frame <+: buf.buffers ++ rest :=
      encode_frame fitsBuf ▸ List.prefix_append _ _
    have second : frameCode.encode msg.frame <+: buf.buffers ++ rest :=
      text ▸ encode_frame fitsMsg ▸ List.prefix_append _ _
    have bufDom : buf.frame ∈ frameCode.dom := frame_fits fitsBuf
    have msgDom : msg.frame ∈ frameCode.dom := frame_fits fitsMsg
    exact PrefixCode.eq_of_append bufDom msgDom first second
  refine ⟨frame, ?_⟩
  rw [← encode_frame fitsBuf, ← encode_frame fitsMsg, frame] at text
  exact List.append_cancel_left text

/-- The bytes asked for at an await point do not reach past the message at hand. -/
theorem Reader.want_le {rd : Reader} {msg : RelayData} {stream later : List UInt8}
    (ok : rd.Ok) (fits : msg.dataSize ≤ readBufferSize)
    (text : rd.text ++ stream = msg.buffers ++ later) :
    rd.want ≤ msg.buffers.length - rd.text.length ∧
      (rd ≠ .header → rd.want = msg.buffers.length - rd.text.length) := by
  rw [RelayData.length_buffers fits]
  cases rd with
  | header =>
    refine ⟨?_, fun other => absurd rfl other⟩
    show headerSize ≤ headerSize + msg.dataSize - 0
    omega
  | payload buf got =>
    have length : (Reader.payload buf got).text.length = headerSize + got := by
      rw [Reader.text, List.length_append, Header.length_bytes, List.length_take, buf.size_data]
      have bounds := ok
      simp only [Ok] at bounds
      omega
    have head : buf.head = msg.head := by
      rw [Reader.text, RelayData.buffers, List.append_assoc, List.append_assoc] at text
      exact Header.bytes_injective
        (List.append_inj text ((Header.length_bytes _).trans (Header.length_bytes _).symm)).1
    have size : buf.dataSize = msg.dataSize := congrArg (fun h => h.len.toNat) head
    rw [length]
    show buf.dataSize - got ≤ _ ∧ (_ → buf.dataSize - got = _)
    exact ⟨by omega, fun _ => by omega⟩

theorem Reader.feed_more_ne_header {rd : Reader} {bytes : List UInt8} :
    rd.feed bytes ≠ .more .header := by
  intro fed
  cases rd with
  | header =>
    simp only [feed] at fed
    split at fed
    · cases fed
    · split at fed <;> cases fed
  | payload buf got =>
    simp only [feed] at fed
    split at fed
    · cases fed
    · split at fed <;> cases fed

/-- When the message at hand is complete, the read has consumed what was left of it. -/
theorem Reader.exhausted {rd : Reader} {buf msg : RelayData} {bytes : List UInt8}
    (fitsBuf : buf.dataSize ≤ readBufferSize) (fitsMsg : msg.dataSize ≤ readBufferSize)
    (consumed : buf.buffers = rd.text ++ bytes) (frame : buf.frame = msg.frame) :
    msg.buffers.length - rd.text.length - bytes.length = 0 := by
  have lengths := congrArg List.length consumed
  have size := congrArg (fun f => f.payload.length) frame
  simp only [RelayData.frame, RelayData.length_dataBuffer fitsBuf,
    RelayData.length_dataBuffer fitsMsg] at size
  rw [RelayData.length_buffers fitsBuf, List.length_append] at lengths
  rw [RelayData.length_buffers fitsMsg]
  omega

/-- **The whole stream.** When no header is cut and the stream is complete, the
loop hands on every message and stops only at the end of the stream. -/
theorem readLoop_complete {fuel : Nat} {msgs : List RelayData}
    (fits : ∀ msg ∈ msgs, msg.dataSize ≤ readBufferSize) {rd : Reader}
    {chunks : List (List UInt8)} (ok : rd.Ok) (enough : chunks.flatten.length < fuel)
    (aligned : rd.Aligned msgs chunks) :
    (readLoop fuel rd chunks).handed.map RelayData.frame = msgs.map RelayData.frame ∧
      (readLoop fuel rd chunks).ended = .eof := by
  induction fuel generalizing rd msgs chunks with
  | zero => exact absurd enough (Nat.not_lt_zero _)
  | succ fuel ih =>
    obtain ⟨stream, whole, later⟩ := aligned
    unfold readLoop
    cases read : readSome rd.want chunks with
    | none =>
      have flat := readSome_eq_none.mp read
      cases msgs with
      | nil => exact ⟨rfl, rfl⟩
      | cons msg rest =>
        -- the text consumed would be the whole message, but bytes are wanted
        have fitsMsg := fits msg List.mem_cons_self
        rw [List.flatMap_cons] at stream
        obtain ⟨want, _⟩ := Reader.want_le ok fitsMsg stream
        have positive := Reader.want_pos ok
        have lengths := congrArg List.length stream
        rw [flat, List.append_nil, List.length_append] at lengths
        omega
    | some result =>
      obtain ⟨bytes, rest⟩ := result
      obtain ⟨nonempty, asked, flat⟩ := readSome_spec (Reader.want_pos ok) read
      have positive : 0 < bytes.length := List.length_pos_of_ne_nil nonempty
      have shorter : rest.flatten.length < fuel := by
        have lengths := congrArg List.length flat
        rw [List.length_append] at lengths
        omega
      cases msgs with
      | nil =>
        rw [flat, List.flatMap_nil, List.append_eq_nil_iff, List.append_eq_nil_iff] at stream
        exact absurd stream.2.1 nonempty
      | cons msg msgs =>
        have fitsMsg := fits msg List.mem_cons_self
        rw [List.flatMap_cons] at stream
        obtain ⟨want, _⟩ := Reader.want_le ok fitsMsg stream
        have spec := Reader.feed_spec ok nonempty asked
        have moved := (later rfl).read read (Nat.le_trans asked want)
        have text : rd.text ++ bytes ++ rest.flatten =
            msg.buffers ++ msgs.flatMap RelayData.buffers := by
          rw [List.append_assoc, ← flat, stream]
        simp only
        cases fed : rd.feed bytes with
        | more rd' =>
          rw [fed] at spec
          obtain ⟨ok', text'⟩ := spec
          refine ih fits ok' shorter ⟨?_, ?_, ?_⟩
          · rw [text', text, List.flatMap_cons]
          · rintro rfl
            exact absurd fed Reader.feed_more_ne_header
          · rintro _ _ ⟨⟩
            rw [text', List.length_append, ← Nat.sub_sub]
            exact moved
        | message buf =>
          rw [fed] at spec
          obtain ⟨fitsBuf, consumed⟩ := spec
          rw [← consumed] at text
          obtain ⟨frame, stream'⟩ := RelayData.eq_of_text fitsBuf fitsMsg text
          have exhausted := Reader.exhausted fitsBuf fitsMsg consumed frame
          rw [exhausted] at moved
          obtain ⟨frames, ended⟩ := ih
            (fun m member => fits m (List.mem_cons_of_mem _ member)) Reader.ok_header shorter
            (Reader.aligned_header stream' moved)
          exact ⟨by rw [List.map_cons, List.map_cons, frame, frames], ended⟩
        | threw =>
          rw [fed] at spec
          obtain ⟨rfl, bad⟩ := spec
          have enough : headerSize ≤ chunks.flatten.length := by
            have lengths := congrArg List.length stream
            rw [List.length_append, List.length_append, RelayData.length_buffers fitsMsg]
              at lengths
            simp only [Reader.text, List.length_nil] at lengths
            omega
          have full := (whole rfl).length_read enough read
          have head : Header.ofBytes bytes = msg.head := by
            rw [Reader.text, List.nil_append, RelayData.buffers, List.append_assoc] at text
            have heads := (List.append_inj text (full.trans (Header.length_bytes _).symm)).1
            rw [heads, Header.ofBytes_bytes]
          rcases bad with short | large
          · exact absurd full short
          · rw [head] at large
            exact absurd fitsMsg (Nat.not_le_of_lt large)
        | overrun =>
          rw [fed] at spec
          exact spec.elim

/-- What the loop hands on fits, and no store left `_data`. -/
theorem implStartRead_fits (chunks : List (List UInt8)) :
    (∀ buf ∈ (implStartRead chunks).handed, buf.dataSize ≤ readBufferSize) ∧
      (implStartRead chunks).ended ≠ .overrun :=
  (readLoop_text Reader.ok_header).2

/-- What the loop hands on is, in content, a prefix of what was written. -/
theorem implStartRead_frames {msgs : List RelayData}
    (fits : ∀ msg ∈ msgs, msg.dataSize ≤ readBufferSize) {chunks : List (List UInt8)}
    (truncated : chunks.flatten <+: msgs.flatMap RelayData.buffers) :
    (implStartRead chunks).handed.map RelayData.frame <+: msgs.map RelayData.frame := by
  have text := @readLoop_text (chunks.flatten.length + 1) .header chunks Reader.ok_header
  have handedFits := (implStartRead_fits chunks).1
  have encoded : ∀ bufs : List RelayData, (∀ buf ∈ bufs, buf.dataSize ≤ readBufferSize) →
      frameCode.encodeAll (bufs.map RelayData.frame) = bufs.flatMap RelayData.buffers := by
    intro bufs bufsFit
    rw [PrefixCode.encodeAll, List.flatMap_map]
    exact List.flatMap_congr fun buf member => RelayData.encode_frame (bufsFit buf member)
  have allFit : ∀ bufs : List RelayData, (∀ buf ∈ bufs, buf.dataSize ≤ readBufferSize) →
      ∀ f ∈ bufs.map RelayData.frame, f ∈ frameCode.dom := by
    intro bufs bufsFit f member
    obtain ⟨buf, inBufs, rfl⟩ := List.mem_map.mp member
    exact RelayData.frame_fits (bufsFit buf inBufs)
  have decoded : (implStartRead chunks).handed.flatMap RelayData.buffers <+:
      msgs.flatMap RelayData.buffers := text.1.trans truncated
  rw [← encoded _ handedFits, ← encoded _ fits] at decoded
  exact PrefixCode.prefix_of_encodeAll (allFit _ handedFits) (allFit _ fits) decoded

/-- **The frame stream decodes to a prefix of what was encoded.** For every list
of messages that fit `_data`, every chunking and every truncation of their
concatenated text: the messages handed to `add_response` are a prefix of the list
in session, command and payload, no store leaves `_data`, and when no chunk
boundary cuts a header and the stream is complete they are the whole list. -/
theorem implStartRead_decodes (msgs : List RelayData)
    (fits : ∀ msg ∈ msgs, msg.dataSize ≤ readBufferSize) (chunks : List (List UInt8))
    (truncated : chunks.flatten <+: msgs.flatMap RelayData.buffers) :
    (implStartRead chunks).handed.map RelayData.frame <+: msgs.map RelayData.frame ∧
      (implStartRead chunks).ended ≠ .overrun ∧
      (HeadersWhole 0 msgs chunks → chunks.flatten = msgs.flatMap RelayData.buffers →
        (implStartRead chunks).handed.map RelayData.frame = msgs.map RelayData.frame) := by
  refine ⟨implStartRead_frames fits truncated, (implStartRead_fits chunks).2, ?_⟩
  intro whole complete
  have aligned := Reader.aligned_header complete whole
  exact (readLoop_complete fits Reader.ok_header (Nat.lt_succ_self _) aligned).1

/-- A `START_TCP` without payload, then a full buffer of which four bytes arrive. -/
theorem implStartRead_decodes_truncated :
    (implStartRead [(RelayData.ofCommand 7 .startTcp).buffers,
        (RelayData.ofSession 7).buffers.take 20]).handed.map RelayData.frame <+:
      [(RelayData.ofCommand 7 .startTcp).frame, (RelayData.ofSession 7).frame] :=
  (implStartRead_decodes [RelayData.ofCommand 7 .startTcp, RelayData.ofSession 7]
    (by
      intro msg member
      rcases List.mem_pair.mp member with rfl | rfl <;> decide)
    _
    (by
      simp only [List.flatten_cons, List.flatten_nil, List.append_nil, List.flatMap_cons,
        List.flatMap_nil]
      exact (List.prefix_append_right_inj _).mpr (List.take_prefix _ _))).1

/-! ## Streams that stop the relay -/

/-- The boundaries left after a read, seen from before it. -/
theorem chunkEnd_read {n : Nat} {chunks rest : List (List UInt8)} {bytes : List UInt8}
    (read : readSome n chunks = some (bytes, rest)) (j : Nat) :
    chunkEnd chunks j = 0 ∨ ∃ k, chunkEnd chunks j = bytes.length + chunkEnd rest k := by
  induction chunks generalizing j with
  | nil => cases read
  | cons chunk chunks ih =>
    cases j with
    | zero => exact Or.inl rfl
    | succ j =>
      cases chunk with
      | nil => exact ih read j
      | cons b bs =>
        cases read
        refine Or.inr ⟨j + 1, ?_⟩
        have cut := congrArg List.length (List.take_append_drop n (b :: bs))
        rw [List.length_append] at cut
        simp only [chunkEnd, List.take_succ_cons, List.flatten_cons, List.length_append]
        omega

/-- Headers that lie behind a read are whole before it when they are after it. -/
theorem HeadersWhole.unread {base n : Nat} {msgs : List RelayData}
    {chunks rest : List (List UInt8)} {bytes : List UInt8}
    (whole : HeadersWhole (base - bytes.length) msgs rest)
    (read : readSome n chunks = some (bytes, rest)) (before : bytes.length ≤ base) :
    HeadersWhole base msgs chunks := by
  intro i lt j inside
  rcases chunkEnd_read read j with zero | ⟨k, ends⟩
  · omega
  · have unread := whole i lt k
    omega

/-- A header that one read returned whole is not cut. -/
theorem HeadersWhole.cons {n : Nat} {msg : RelayData} {msgs : List RelayData}
    {chunks rest : List (List UInt8)} {bytes : List UInt8}
    (read : readSome n chunks = some (bytes, rest)) (full : bytes.length = headerSize)
    (later : HeadersWhole msg.buffers.length msgs chunks) :
    HeadersWhole 0 (msg :: msgs) chunks := by
  intro i lt j inside
  cases i with
  | zero =>
    have start : headerStart (msg :: msgs) 0 = 0 := rfl
    rcases chunkEnd_read read j with zero | ⟨k, ends⟩ <;> omega
  | succ i =>
    rw [headerStart_succ] at inside
    have unread := later i (Nat.lt_of_succ_lt_succ lt) j
    omega

/-- A short header throws. -/
theorem Reader.feed_header_short {bytes : List UInt8} (short : bytes.length ≠ headerSize) :
    Reader.header.feed bytes = .threw :=
  if_pos (Or.inl short)

/-- **A stream that does not stop the relay cuts no header.** -/
theorem readLoop_whole {fuel : Nat} {msgs : List RelayData}
    (fits : ∀ msg ∈ msgs, msg.dataSize ≤ readBufferSize) {rd : Reader}
    {chunks : List (List UInt8)} (ok : rd.Ok) (enough : chunks.flatten.length < fuel)
    (stream : rd.text ++ chunks.flatten = msgs.flatMap RelayData.buffers)
    (runs : (readLoop fuel rd chunks).ended ≠ .threw) : rd.Aligned msgs chunks := by
  induction fuel generalizing rd msgs chunks with
  | zero => exact absurd enough (Nat.not_lt_zero _)
  | succ fuel ih =>
    cases msgs with
    | nil =>
      refine ⟨stream, fun _ i lt => absurd lt (Nat.not_lt_zero i), ?_⟩
      intro _ _ other
      cases other
    | cons msg msgs =>
      have fitsMsg := fits msg List.mem_cons_self
      have stream' := stream
      rw [List.flatMap_cons] at stream'
      obtain ⟨want, _⟩ := Reader.want_le ok fitsMsg stream'
      have positive := Reader.want_pos ok
      unfold readLoop at runs
      cases read : readSome rd.want chunks with
      | none =>
        have flat := readSome_eq_none.mp read
        have lengths := congrArg List.length stream'
        rw [flat, List.append_nil, List.length_append] at lengths
        omega
      | some result =>
        obtain ⟨bytes, rest⟩ := result
        obtain ⟨nonempty, asked, flat⟩ := readSome_spec positive read
        have shorter : rest.flatten.length < fuel := by
          have some := List.length_pos_of_ne_nil nonempty
          have lengths := congrArg List.length flat
          rw [List.length_append] at lengths
          omega
        have spec := Reader.feed_spec ok nonempty asked
        have text : rd.text ++ bytes ++ rest.flatten =
            msg.buffers ++ msgs.flatMap RelayData.buffers := by
          rw [List.append_assoc, ← flat, stream']
        -- what the rest of the stream says about the headers behind this message
        have later : HeadersWhole (msg.buffers.length - rd.text.length - bytes.length)
            msgs rest := by
          simp only [read] at runs
          cases fed : rd.feed bytes with
          | more rd' =>
            rw [fed] at spec runs
            obtain ⟨ok', text'⟩ := spec
            have aligned := ih fits ok' shorter (by rw [text', text, List.flatMap_cons]) runs
            have behind := aligned.later rfl
            rwa [text', List.length_append, ← Nat.sub_sub] at behind
          | message buf =>
            rw [fed] at spec runs
            obtain ⟨fitsBuf, consumed⟩ := spec
            rw [← consumed] at text
            obtain ⟨frame, rested⟩ := RelayData.eq_of_text fitsBuf fitsMsg text
            have behind := ih (fun m member => fits m (List.mem_cons_of_mem _ member))
              Reader.ok_header shorter rested runs
            rw [Reader.exhausted fitsBuf fitsMsg consumed frame]
            exact behind.whole rfl
          | threw =>
            rw [fed] at runs
            exact absurd rfl runs
          | overrun =>
            rw [fed] at spec
            exact spec.elim
        have behind := later.unread read (Nat.le_trans asked want)
        refine ⟨stream, ?_, ?_⟩
        · rintro rfl
          have full : bytes.length = headerSize := by
            by_contra short
            simp only [read, Reader.feed_header_short short] at runs
            exact absurd rfl runs
          exact HeadersWhole.cons read full behind
        · rintro _ _ ⟨⟩
          exact behind

/-- **How the stream may be cut.** For every list of messages that fit `_data` and
every way of cutting their text into chunks: the loop hands on exactly the list and
runs to the end of the stream if and only if no cut falls inside a header. -/
theorem implStartRead_whole (msgs : List RelayData)
    (fits : ∀ msg ∈ msgs, msg.dataSize ≤ readBufferSize) (chunks : List (List UInt8))
    (complete : chunks.flatten = msgs.flatMap RelayData.buffers) :
    ((implStartRead chunks).handed.map RelayData.frame = msgs.map RelayData.frame ∧
      (implStartRead chunks).ended = .eof) ↔ HeadersWhole 0 msgs chunks := by
  constructor
  · rintro ⟨_, ended⟩
    have runs : (implStartRead chunks).ended ≠ .threw := by
      rw [ended]
      exact nofun
    exact (readLoop_whole fits Reader.ok_header (Nat.lt_succ_self _) complete runs).whole rfl
  · intro whole
    exact readLoop_complete fits Reader.ok_header (Nat.lt_succ_self _)
      (Reader.aligned_header complete whole)

/-- A `START_TCP` without payload, and eight bytes of data. -/
def startAndData : List RelayData :=
  [.ofCommand 7 .startTcp, (RelayData.ofSession 7).setHead ⟨7, .dataTcp, 8⟩]

/-- Their text, cut in the middle of the data. -/
def cutInData : List (List UInt8) :=
  [(startAndData.flatMap RelayData.buffers).take 36,
    (startAndData.flatMap RelayData.buffers).drop 36]

theorem implStartRead_whole_cutData :
    (implStartRead cutInData).handed.map RelayData.frame = startAndData.map RelayData.frame ∧
      (implStartRead cutInData).ended = .eof := by
  refine (implStartRead_whole startAndData (by decide) cutInData ?_).mpr ?_
  · simp only [cutInData, List.flatten_cons, List.flatten_nil, List.append_nil,
      List.take_append_drop]
  · intro i lt j
    have starts : headerStart startAndData i ∈ [0, 16] := by
      have small : i = 0 ∨ i = 1 := by
        change i < 2 at lt
        omega
      rcases small with rfl | rfl <;> decide +kernel
    have ends : chunkEnd cutInData j ∈ [0, 36, 40] := by
      rcases j with _ | _ | j
      · decide +kernel
      · decide +kernel
      · have all : cutInData.take (j + 2) = cutInData := List.take_of_length_le (Nat.le_add_left 2 j)
        unfold chunkEnd
        rw [all]
        decide +kernel
    simp only [List.mem_cons, List.not_mem_nil, or_false] at starts ends
    unfold headerSize
    omega

/-- A `STOP_TCP` cut after its first byte stops the relay, and nothing is handed on. -/
theorem implStartRead_cutHeader :
    (∀ chunk ∈ [(RelayData.ofCommand 7 .stopTcp).buffers.take 1,
        (RelayData.ofCommand 7 .stopTcp).buffers.drop 1], chunk ≠ []) ∧
      [(RelayData.ofCommand 7 .stopTcp).buffers.take 1,
        (RelayData.ofCommand 7 .stopTcp).buffers.drop 1].flatten =
          [RelayData.ofCommand 7 .stopTcp].flatMap RelayData.buffers ∧
      (implStartRead [(RelayData.ofCommand 7 .stopTcp).buffers.take 1,
        (RelayData.ofCommand 7 .stopTcp).buffers.drop 1]).handed.length = 0 ∧
      (implStartRead [(RelayData.ofCommand 7 .stopTcp).buffers.take 1,
        (RelayData.ofCommand 7 .stopTcp).buffers.drop 1]).ended = .threw := by
  decide +kernel

end SslSocks
