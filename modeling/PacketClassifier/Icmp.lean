/-
Names of ICMP messages.

A name stands for a type, and either for one of its codes or for all of them.
`Icmp.named?` resolves a name within a family, and `Icmp.code?` drops the number that
means "every code".
-/
namespace PacketClassifier

/-- A message type, with a code unless every code is meant. -/
structure IcmpType where
  type : UInt32
  /-- The code, if a single one is meant. -/
  code : Option UInt32
  deriving DecidableEq, Repr

namespace Icmp

/-- The two versions of ICMP. -/
inductive Family where
  | v4
  | v6
  deriving DecidableEq, Repr

/-- The code that means every code of a type. -/
def everyCode : UInt32 := 256

/-- The type that stands for a name nobody knows; no real message has it. -/
def unresolved : IcmpType := ⟨256, none⟩

/-- Names of the older version: type, and code if the name is about one. -/
def namesV4 : List (String × UInt32 × Option UInt32) :=
  [("echo-reply", 0, none), ("destination-unreachable", 3, none),
   ("network-unreachable", 3, some 0), ("host-unreachable", 3, some 1),
   ("protocol-unreachable", 3, some 2), ("port-unreachable", 3, some 3),
   ("fragmentation-needed", 3, some 4), ("source-route-failed", 3, some 5),
   ("network-unknown", 3, some 6), ("host-unknown", 3, some 7),
   ("network-prohibited", 3, some 9), ("host-prohibited", 3, some 10),
   ("TOS-network-unreachable", 3, some 11),
   ("TOS-host-unreachable", 3, some 12), ("communication-prohibited", 3, some 13),
   ("host-precedence-violation", 3, some 14), ("precedence-cutoff", 3, some 15),
   ("source-quench", 4, none), ("redirect", 5, none), ("network-redirect", 5, some 0),
   ("host-redirect", 5, some 1), ("TOS-network-redirect", 5, some 2),
   ("TOS-host-redirect", 5, some 3), ("echo-request", 8, none),
   ("router-advertisement", 9, none), ("router-solicitation", 10, none),
   ("time-exceeded", 11, none),
   ("ttl-zero-during-reassembly", 11, some 0), ("ttl-zero-during-transit", 11, some 1),
   ("parameter-problem", 12, none), ("ip-header-bad", 12, some 0),
   ("required-option-missing", 12, some 1), ("timestamp-request", 13, none),
   ("timestamp-reply", 14, none), ("address-mask-request", 17, none),
   ("address-mask-reply", 18, none)]

/-- Names of the newer version: type, and code if the name is about one. -/
def namesV6 : List (String × UInt32 × Option UInt32) :=
  [("destination-unreachable", 1, none), ("no-route", 1, some 0),
   ("communication-prohibited", 1, some 1), ("address-unreachable", 1, some 3),
   ("port-unreachable", 1, some 4), ("packet-too-big", 2, none), ("time-exceeded", 3, none),
   ("ttl-zero-during-transit", 3, some 0), ("ttl-zero-during-reassembly", 3, some 1),
   ("parameter-problem", 4, none), ("bad-header", 4, some 0),
   ("unknown-header-type", 4, some 1), ("unknown-option", 4, some 2),
   ("echo-request", 128, none), ("echo-reply", 129, none),
   ("multicast-listener-query", 130, none), ("multicast-listener-report", 131, none),
   ("multicast-listener-done", 132, none), ("router-solicitation", 133, none),
   ("router-advertisement", 134, none), ("neighbor-solicitation", 135, none),
   ("neighbor-advertisement", 136, none), ("redirect", 137, none),
   ("mobile-prefix-solicitation", 146, none), ("mobile-prefix-advertisement", 147, none)]

/-- The names of messages of a version. -/
def Family.names : Family → List (String × UInt32 × Option UInt32)
  | .v4 => namesV4
  | .v6 => namesV6

/-- Drops a code that means every code. -/
def code? (code : Option UInt32) : Option UInt32 := code.filter (· != everyCode)

/-- What a name stands for. -/
def named? (family : Family) (name : String) : Option IcmpType :=
  (family.names.lookup name).map fun (type, code) => ⟨type, code⟩

end Icmp

end PacketClassifier
