import SslSocks.Basic

/-!
# Addresses on the wire: `utils.cpp` and `get_data_addr`

A SOCKS5 address record is a type byte, an address and a two-byte port, most
significant byte first. `parseAddr` writes one from a socket address,
`parseAddress` reads one as host and service text, `getDataAddr` reads one back
as a socket address.
-/

namespace SslSocks

/-- The two address families of a socket address. -/
inductive IpAddress
  | v4 (bytes : Vector UInt8 4)
  | v6 (bytes : Vector UInt8 16)
  deriving DecidableEq, Repr

/-- The address is one of the family of `udp::v6()`. -/
def IpAddress.isV6 : IpAddress → Bool
  | .v4 _ => false
  | .v6 _ => true

/-- `udp::endpoint`, with zero scope and flow. -/
structure Endpoint where
  addr : IpAddress
  port : UInt16
  deriving DecidableEq, Repr

/-- `udp::endpoint()`. -/
instance : Inhabited Endpoint := ⟨⟨.v4 (Vector.replicate 4 0), 0⟩⟩

/-- The endpoint written `a.b.c.d:port`. -/
def Endpoint.ipv4 (a b c d : UInt8) (port : UInt16) : Endpoint := ⟨.v4 #v[a, b, c, d], port⟩

/-- The IPv4 address as a socket of `udp::v6()` has it. -/
def Endpoint.mapped (a b c d : UInt8) (port : UInt16) : Endpoint :=
  ⟨.v6 #v[0, 0, 0, 0, 0, 0, 0, 0, 0, 0, 255, 255, a, b, c, d], port⟩

/-- `sin_port` as it lies in memory. -/
def portBytes (port : UInt16) : List UInt8 :=
  [UInt8.ofNat (port.toNat / 256), UInt8.ofNat port.toNat]

/-- `parse_addr`: the bytes written at the start of the buffer. Their number, 7 or
19, is what the function returns. -/
def parseAddr (e : Endpoint) : List UInt8 :=
  match e.addr with
  | .v4 bytes => 1 :: bytes.toList ++ portBytes e.port
  | .v6 bytes => 4 :: bytes.toList ++ portBytes e.port

/-- The two bytes from `i` on, as a port. -/
def portAt (data : List UInt8) (i : Nat) : UInt16 :=
  UInt16.ofNat ((data.getD i 0).toNat * 256 + (data.getD (i + 1) 0).toNat)

/-- `get_data_addr`. A type byte other than 1 and 4 leaves the any-address. -/
def getDataAddr (data : List UInt8) : Endpoint :=
  if data.getD 0 0 = 1 then
    ⟨.v4 (Vector.ofFn fun i => data.getD (1 + i) 0), portAt data 5⟩
  else if data.getD 0 0 = 4 then
    ⟨.v6 (Vector.ofFn fun i => data.getD (1 + i) 0), portAt data 17⟩
  else ⟨.v6 (Vector.replicate 16 0), 0⟩

/-- The host of an address record: an address, of which the program takes the
text, or the bytes of a name. -/
inductive Host
  | v4 (bytes : Vector UInt8 4)
  | v6 (bytes : Vector UInt8 16)
  | name (bytes : List UInt8)
  deriving DecidableEq, Repr

/-- The text of the port at `i`: `boost::format("%1%") % (port[0]<<8 | port[1])`. -/
def portName (data : List UInt8) (i : Nat) : String :=
  toString ((data.getD i 0).toNat <<< 8 ||| (data.getD (i + 1) 0).toNat)

/-- `parse_address(data, len)`. The type byte and the name length are read without
asking `len`. -/
def parseAddress (data : List UInt8) (len : Nat) : Except String (Host × String) :=
  let cmd := data.getD 0 0
  if cmd = 1 then
    if len < 4 + 3 then .error s!" sock5 addr4 len error: {len}"
    else .ok (.v4 (Vector.ofFn fun i => data.getD (1 + i) 0), portName data 5)
  else if cmd = 4 then
    if len < 16 + 3 then .error s!" sock5 addr6 len error: {len}"
    else .ok (.v6 (Vector.ofFn fun i => data.getD (1 + i) 0), portName data 17)
  else if cmd = 3 then
    let hostLen := (data.getD 1 0).toNat
    if len < hostLen + 4 then .error s!" sock5 host name len error: {len}, hostlen{hostLen}"
    else .ok (.name ((data.drop 2).take hostLen), portName data (hostLen + 2))
  else .error s!"sock5 cmd {Char.ofNat cmd.toNat} not support"

theorem length_parseAddr (e : Endpoint) :
    (parseAddr e).length = 7 ∨ (parseAddr e).length = 19 := by
  unfold parseAddr
  split
  · left
    simp [portBytes]
  · right
    simp [portBytes]

/-- The record of an address can be read. -/
theorem isOk_parseAddress_parseAddr (e : Endpoint) :
    (parseAddress (parseAddr e) (parseAddr e).length).isOk := by
  obtain ⟨addr, port⟩ := e
  cases addr with
  | v4 bytes => simp [parseAddress, parseAddr, portBytes, Except.isOk, Except.toBool]
  | v6 bytes => simp [parseAddress, parseAddr, portBytes, Except.isOk, Except.toBool]

end SslSocks
