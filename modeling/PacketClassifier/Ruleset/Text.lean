/-
The text form of a ruleset, for people to read.

The traffic stands on the first line, each rule on a line of its own, and each entry on an
indented line below its rule. Protocol numbers are shown by the names of the given
registry.
-/
import PacketClassifier.Address.Text
import PacketClassifier.Protocol.Registry
import PacketClassifier.Ruleset.Basic

namespace PacketClassifier

open Protocol (Registry)

/-- A number of 32 bits in decimal. -/
def wordText (w : UInt32) : String := Numeral.text w.toNat

/-- The type, and the code if there is one. -/
def IcmpType.text (t : IcmpType) : String :=
  match t.code with
  | some code => "type " ++ wordText t.type ++ " code " ++ wordText code
  | none => "type " ++ wordText t.type

/-- One line for an entry. -/
def Entry.text (registry : Registry) : Entry → String
  | .sourceNetwork n => "src-ip " ++ n.text
  | .destinationNetwork n => "dest-ip " ++ n.text
  | .sourcePort p => "src-port " ++ wordText p
  | .destinationPort p => "dest-port " ++ wordText p
  | .baseProtocol n => "proto-base " ++ registry.nameOf n
  | .finalProtocol n => "proto-final " ++ registry.nameOf n
  | .dscp v => "dscp " ++ wordText v
  | .ttl v => "ttl " ++ wordText v
  | .fragment f => "fragment " ++ f.name
  | .icmpV4 t => "icmp " ++ t.text
  | .icmpV6 t => "icmpv6 " ++ t.text
  | .icmpV6Class c => "icmpv6 class " ++ c.name

/-- The rule's line and one indented line for each entry. -/
def Rule.text (registry : Registry) (r : Rule) : String :=
  "rule " ++ wordText r.number ++ " result " ++ r.result ++ "\n"
    ++ String.join (r.entries.map fun e => "    " ++ e.text registry ++ "\n")

/-- The line of the traffic and the lines of the rules. -/
def Ruleset.text (registry : Registry) (s : Ruleset) : String :=
  "traffic-type " ++ s.traffic.name ++ "\n" ++ String.join (s.rules.map (Rule.text registry))

end PacketClassifier
