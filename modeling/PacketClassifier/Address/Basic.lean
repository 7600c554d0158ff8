/-
Internet addresses and networks.

An address is a word of 32 or 128 bits. A network is an address with the number of its
leading bits that count; `Network.masked` clears the others, and `Network.host` counts
them all.
-/
namespace PacketClassifier

/-- An address of either version. -/
inductive Address where
  | v4 (bits : BitVec 32)
  | v6 (bits : BitVec 128)
  deriving DecidableEq, Repr

namespace Address

/-- The number of bits. -/
def width : Address → Nat
  | v4 _ => 32
  | v6 _ => 128

/-- Clears all bits but the first `length`. -/
def mask (length : Nat) : Address → Address
  | v4 bits => v4 ((bits >>> (32 - length)) <<< (32 - length))
  | v6 bits => v6 ((bits >>> (128 - length)) <<< (128 - length))

/-- The address of the older version that has no bit set. -/
def unspecified : Address := v4 0

end Address

/-- An address and how many of its leading bits count. -/
structure Network where
  address : Address
  /-- The number of leading bits. -/
  length : UInt8
  deriving DecidableEq, Repr

namespace Network

/-- A single host. -/
def host (a : Address) : Network := ⟨a, a.width.toUInt8⟩

/-- The network with the bits behind its length cleared. -/
def masked (n : Network) : Network := ⟨n.address.mask n.length.toNat, n.length⟩

end Network

end PacketClassifier
