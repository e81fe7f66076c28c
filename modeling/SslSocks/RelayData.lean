import SslSocks.Basic
import SslSocks.Lib.LittleEndian
import SslSocks.Lib.PrefixCode

/-!
# `relay_data`: the message object and its bytes on the ssl connection

`RelayData` is the object of `relay_data.hpp`: a header and an array of
`readBufferSize` bytes of which the header's length selects the part in use.
`Frame` is what the rest of the program sees of it: session, command and the
bytes of `data_buffer()`. A connection carries, for each message, the header as
it lies in memory followed by `data_buffer()`; `frameCode` shows that this is a
prefix code on the frames that fit the array.
-/

namespace SslSocks

open Lib

/-- `relay_data::_header_t`. -/
structure Header where
  session : UInt32
  cmd : Command
  len : UInt64
  deriving DecidableEq, Repr

/-- `sizeof(_header_t)`: two 32-bit words and one `std::size_t`, no padding. -/
def headerSize : Nat := 16

/-- `header_buffer()`: the header as it lies in memory. -/
def Header.bytes (head : Header) : List UInt8 :=
  leBytes 4 head.session.toNat ++ leBytes 4 head.cmd.toUInt32.toNat ++
    leBytes 8 head.len.toNat

/-- The header whose memory holds the given bytes. -/
def Header.ofBytes (bytes : List UInt8) : Header where
  session := UInt32.ofNat (ofLeBytes (bytes.take 4))
  cmd := Command.ofUInt32 (UInt32.ofNat (ofLeBytes ((bytes.drop 4).take 4)))
  len := UInt64.ofNat (ofLeBytes (bytes.drop 8))

@[simp] theorem Header.length_bytes (head : Header) : head.bytes.length = headerSize := by
  simp only [bytes, List.length_append, length_leBytes]
  rfl

/-- A header read over the bytes of another is that other. -/
@[simp] theorem Header.ofBytes_bytes (head : Header) : Header.ofBytes head.bytes = head := by
  have session : head.bytes.take 4 = leBytes 4 head.session.toNat := by
    rw [bytes, List.append_assoc]
    exact List.take_left' (length_leBytes _ _)
  have rest : head.bytes.drop 4 =
      leBytes 4 head.cmd.toUInt32.toNat ++ leBytes 8 head.len.toNat := by
    rw [bytes, List.append_assoc]
    exact List.drop_left' (length_leBytes _ _)
  have cmd : (head.bytes.drop 4).take 4 = leBytes 4 head.cmd.toUInt32.toNat := by
    rw [rest]
    exact List.take_left' (length_leBytes _ _)
  have len : head.bytes.drop 8 = leBytes 8 head.len.toNat := by
    have twice : head.bytes.drop 8 = (head.bytes.drop 4).drop 4 := by rw [List.drop_drop]
    rw [twice, rest]
    exact List.drop_left' (length_leBytes _ _)
  have word32 (w : UInt32) : UInt32.ofNat (ofLeBytes (leBytes 4 w.toNat)) = w := by
    rw [ofLeBytes_leBytes w.toNat_lt, UInt32.ofNat_toNat]
  have word64 (w : UInt64) : UInt64.ofNat (ofLeBytes (leBytes 8 w.toNat)) = w := by
    rw [ofLeBytes_leBytes w.toNat_lt, UInt64.ofNat_toNat]
  rw [ofBytes, session, cmd, len, word32, word32, word64, Command.ofUInt32_toUInt32]

/-- Sixteen bytes are the memory of the header read over them. -/
theorem Header.bytes_ofBytes {bytes : List UInt8} (full : bytes.length = headerSize) :
    (Header.ofBytes bytes).bytes = bytes := by
  have size : bytes.length = 16 := full
  have word32 (part : List UInt8) (four : part.length = 4) :
      leBytes 4 (UInt32.ofNat (ofLeBytes part)).toNat = part := by
    have bound : ofLeBytes part < 2 ^ 32 := by
      have lt := ofLeBytes_lt part
      rwa [four] at lt
    rw [UInt32.toNat_ofNat_of_lt' bound, ← four, leBytes_ofLeBytes]
  have word64 (part : List UInt8) (eight : part.length = 8) :
      leBytes 8 (UInt64.ofNat (ofLeBytes part)).toNat = part := by
    have bound : ofLeBytes part < 2 ^ 64 := by
      have lt := ofLeBytes_lt part
      rwa [eight] at lt
    rw [UInt64.toNat_ofNat_of_lt' bound, ← eight, leBytes_ofLeBytes]
  have session := word32 (bytes.take 4) (by rw [List.length_take, size]; rfl)
  have cmd := word32 ((bytes.drop 4).take 4)
    (by rw [List.length_take, List.length_drop, size]; rfl)
  have len := word64 (bytes.drop 8) (by rw [List.length_drop, size])
  have tail : (bytes.drop 4).take 4 ++ bytes.drop 8 = bytes.drop 4 := by
    have twice : bytes.drop 8 = (bytes.drop 4).drop 4 := by rw [List.drop_drop]
    rw [twice, List.take_append_drop]
  rw [Header.bytes, ofBytes, Command.toUInt32_ofUInt32, session, cmd, len,
    List.append_assoc, tail, List.take_append_drop]

theorem Header.bytes_injective : Function.Injective Header.bytes :=
  Function.LeftInverse.injective Header.ofBytes_bytes

/-- What the relays and the manager see of a message: `session()`, `cmd()` and
the bytes of `data_buffer()`. -/
structure Frame where
  session : UInt32
  cmd : Command
  payload : List UInt8
  deriving DecidableEq, Repr

namespace Frame

/-- The header of a message with this content. -/
def head (f : Frame) : Header := ⟨f.session, f.cmd, UInt64.ofNat f.payload.length⟩

/-- `buffers()`: the bytes `ssl_relay::internal_send_data` writes. -/
def encode (f : Frame) : List UInt8 := f.head.bytes ++ f.payload

/-- The payload fits `relay_data::_data`. -/
def Fits (f : Frame) : Prop := f.payload.length ≤ readBufferSize

instance (f : Frame) : Decidable f.Fits := inferInstanceAs (Decidable (_ ≤ _))

@[simp] theorem length_encode (f : Frame) :
    f.encode.length = headerSize + f.payload.length := by
  rw [encode, List.length_append, Header.length_bytes]

theorem encode_ne_nil (f : Frame) : f.encode ≠ [] := by
  intro empty
  have length : f.encode.length = 0 := by rw [empty]; rfl
  rw [length_encode, headerSize] at length
  omega

theorem toNat_head_len {f : Frame} (fits : f.Fits) : f.head.len.toNat = f.payload.length := by
  have bound : f.payload.length < 2 ^ 64 := Nat.lt_of_le_of_lt fits (by decide)
  exact UInt64.toNat_ofNat_of_lt' bound

/-- The header of a frame says where its text ends, so a frame that begins the
text of another is that other. -/
theorem eq_of_encode_prefix {f g : Frame} (hf : f.Fits) (hg : g.Fits)
    (h : f.encode <+: g.encode) : f = g := by
  obtain ⟨rest, text⟩ := h
  rw [encode, encode, List.append_assoc] at text
  obtain ⟨heads, tails⟩ :=
    List.append_inj text ((Header.length_bytes _).trans (Header.length_bytes _).symm)
  have head : f.head = g.head := Header.bytes_injective heads
  have length : f.payload.length = g.payload.length := by
    rw [← toNat_head_len hf, ← toNat_head_len hg, head]
  have payload : f.payload = g.payload :=
    (List.append_inj (tails.trans (List.append_nil _).symm) length).1
  have session : f.session = g.session := congrArg Header.session head
  have cmd : f.cmd = g.cmd := congrArg Header.cmd head
  cases f
  cases g
  simp_all only

end Frame

/-- The frames that fit, written one after another, form a prefix code. -/
def frameCode : PrefixCode Frame UInt8 where
  encode := Frame.encode
  dom := { f | f.Fits }
  ne_nil := Frame.encode_ne_nil
  prefixFree := Frame.eq_of_encode_prefix

/-- A `relay_data` object: the header and the whole array `_data`. -/
structure RelayData where
  head : Header
  data : List UInt8
  size_data : data.length = readBufferSize

namespace RelayData

/-- `relay_data(session)`: a zeroed object of command `DATA_TCP`. -/
def ofSession (session : UInt32) : RelayData where
  head := ⟨session, .dataTcp, UInt64.ofNat readBufferSize⟩
  data := List.replicate readBufferSize 0
  size_data := List.length_replicate

/-- `relay_data(session, cmd)`: a message without payload. -/
def ofCommand (session : UInt32) (cmd : Command) : RelayData where
  head := ⟨session, cmd, 0⟩
  data := List.replicate readBufferSize 0
  size_data := List.length_replicate

/-- `data_size()`. -/
def dataSize (buf : RelayData) : Nat := buf.head.len.toNat

/-- `data_buffer()`. -/
def dataBuffer (buf : RelayData) : List UInt8 := buf.data.take buf.dataSize

/-- `buffers()`: the header, then `data_buffer()`. -/
def buffers (buf : RelayData) : List UInt8 := buf.head.bytes ++ buf.dataBuffer

/-- The content of the message. -/
def frame (buf : RelayData) : Frame := ⟨buf.head.session, buf.head.cmd, buf.dataBuffer⟩

/-- A read completion stores bytes over the header. -/
def setHead (buf : RelayData) (head : Header) : RelayData := { buf with head }

/-- A read completion stores bytes in `_data` from `off` on; `none` is a store
that runs past the end of the array. -/
def store (buf : RelayData) (off : Nat) (bytes : List UInt8) : Option RelayData :=
  if inside : off + bytes.length ≤ readBufferSize then
    some { buf with
      data := buf.data.take off ++ bytes ++ buf.data.drop (off + bytes.length)
      size_data := by
        have size := buf.size_data
        simp only [List.length_append, List.length_take, List.length_drop]
        omega }
  else none

theorem length_dataBuffer {buf : RelayData} (fits : buf.dataSize ≤ readBufferSize) :
    buf.dataBuffer.length = buf.dataSize := by
  rw [dataBuffer, List.length_take, buf.size_data]
  exact Nat.min_eq_left fits

/-- What is written for a message is the text of its content. -/
theorem encode_frame {buf : RelayData} (fits : buf.dataSize ≤ readBufferSize) :
    buf.frame.encode = buf.buffers := by
  have len : UInt64.ofNat buf.dataBuffer.length = buf.head.len := by
    rw [length_dataBuffer fits, dataSize, UInt64.ofNat_toNat]
  rw [Frame.encode, Frame.head, buffers, frame, len]

theorem frame_fits {buf : RelayData} (fits : buf.dataSize ≤ readBufferSize) :
    buf.frame.Fits := by
  rw [Frame.Fits, frame, length_dataBuffer fits]
  exact fits

/-- A store inside the array keeps what lies before it and puts the bytes after. -/
theorem take_store {buf buf' : RelayData} {off : Nat} {bytes : List UInt8}
    (stored : buf.store off bytes = some buf') :
    buf'.data.take (off + bytes.length) = buf.data.take off ++ bytes ∧
      buf'.head = buf.head := by
  unfold store at stored
  split at stored
  · rename_i inside
    cases stored
    refine ⟨?_, rfl⟩
    have size : (buf.data.take off ++ bytes).length = off + bytes.length := by
      rw [List.length_append, List.length_take, buf.size_data]
      omega
    exact List.take_left' size
  · cases stored

end RelayData

end SslSocks
