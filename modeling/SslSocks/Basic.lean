import Mathlib

/-!
# Constants and enumerations of `relay.hpp` and `relay_data.hpp`
-/

namespace SslSocks

/-- `TIMEOUT`: the ticks a relay or a UDP source lives without activity. -/
def timeoutTicks : Nat := 9

/-- `READ_BUFFER_SIZE`: the bytes of `relay_data::_data`. -/
def readBufferSize : Nat := 4096

/-- `server_type`. -/
inductive ServerType
  | localServer
  | remoteServer
  | localTransparent
  deriving DecidableEq, Repr

/-- `relay_state_t`. -/
inductive RelayState
  | uninit
  | init
  | start
  | stop
  deriving DecidableEq, Repr

/-- `relay_data::command`. The header carries it as four bytes, and a peer can
send any value there, so the values without a name are kept. -/
inductive Command
  | stopTcp
  | startTcp
  | dataUdp
  | dataTcp
  | stopUdp
  | other (value : UInt32) (unnamed : 5 ≤ value.toNat)
  deriving DecidableEq, Repr

/-- The value of the enumeration. -/
def Command.toUInt32 : Command → UInt32
  | .stopTcp => 0
  | .startTcp => 1
  | .dataUdp => 2
  | .dataTcp => 3
  | .stopUdp => 4
  | .other value _ => value

/-- The enumerator, or nameless value, that four bytes denote. -/
def Command.ofUInt32 (value : UInt32) : Command :=
  if unnamed : 5 ≤ value.toNat then .other value unnamed
  else if value = 0 then .stopTcp
  else if value = 1 then .startTcp
  else if value = 2 then .dataUdp
  else if value = 3 then .dataTcp
  else .stopUdp

@[simp] theorem Command.ofUInt32_toUInt32 (cmd : Command) :
    Command.ofUInt32 cmd.toUInt32 = cmd := by
  cases cmd with
  | other value unnamed => simp only [toUInt32, ofUInt32, unnamed, ↓reduceDIte]
  | _ => rfl

@[simp] theorem Command.toUInt32_ofUInt32 (value : UInt32) :
    (Command.ofUInt32 value).toUInt32 = value := by
  unfold ofUInt32
  split
  · rfl
  · rename_i named
    split
    · rename_i eq; exact eq.symm
    split
    · rename_i eq; exact eq.symm
    split
    · rename_i eq; exact eq.symm
    split
    · rename_i eq; exact eq.symm
    rename_i ne0 ne1 ne2 ne3
    apply UInt32.toNat_inj.mp
    have four : (4 : UInt32).toNat = 4 := rfl
    have value0 : value.toNat ≠ 0 := fun h => ne0 (UInt32.toNat_inj.mp h)
    have value1 : value.toNat ≠ 1 := fun h => ne1 (UInt32.toNat_inj.mp h)
    have value2 : value.toNat ≠ 2 := fun h => ne2 (UInt32.toNat_inj.mp h)
    have value3 : value.toNat ≠ 3 := fun h => ne3 (UInt32.toNat_inj.mp h)
    show (4 : UInt32).toNat = value.toNat
    omega

end SslSocks
