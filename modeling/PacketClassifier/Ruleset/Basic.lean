/-
Compiled rulesets.

A ruleset is the traffic it is for and a list of rules; a rule has a number, a result and
the entries that a packet must all meet. `Entry` has one constructor for each thing that a
packet can be tested for.
-/
import PacketClassifier.Address.Basic
import PacketClassifier.Icmp

namespace PacketClassifier

/-- The traffic that a ruleset is for. -/
inductive Traffic where
  | ipv4
  | ipv6
  deriving DecidableEq, Repr

namespace Traffic

/-- The name of a kind of traffic in a document. -/
def name : Traffic → String
  | ipv4 => "ipv4"
  | ipv6 => "ipv6"

/-- The traffic of a name. -/
def ofName? (name : String) : Option Traffic :=
  if name = "ipv4" then some ipv4 else if name = "ipv6" then some ipv6 else none

/-- The traffic that a document asks for: the newer version unless it names the older one
exactly. -/
def ofSetting (setting : Option String) : Traffic :=
  if setting = some "ipv4" then ipv4 else ipv6

end Traffic

/-- Which fragments of a packet are meant. -/
inductive Fragment where
  | any
  | initial
  | subsequent
  deriving DecidableEq, Repr

namespace Fragment

/-- The name of fragments in a document. -/
def name : Fragment → String
  | any => "any"
  | initial => "initial-only"
  | subsequent => "subsequent"

/-- The fragments that a document asks for: subsequent ones unless it names others. -/
def ofSetting (setting : String) : Fragment :=
  if setting = "any" then any else if setting = "initial-only" then initial else subsequent

end Fragment

/-- The two classes of messages of the newer ICMP. -/
inductive IcmpClass where
  | info
  | error
  deriving DecidableEq, Repr

namespace IcmpClass

/-- The name of a class in a document. -/
def name : IcmpClass → String
  | info => "info"
  | error => "error"

/-- The class that a document asks for: errors unless it names the other one. -/
def ofSetting (setting : String) : IcmpClass := if setting = "info" then info else error

end IcmpClass

/-- One test of a packet. -/
inductive Entry where
  | sourceNetwork (network : Network)
  | destinationNetwork (network : Network)
  | sourcePort (port : UInt32)
  | destinationPort (port : UInt32)
  | baseProtocol (number : UInt32)
  | finalProtocol (number : UInt32)
  | dscp (value : UInt32)
  | ttl (value : UInt32)
  | fragment (fragment : Fragment)
  | icmpV4 (type : IcmpType)
  | icmpV6 (type : IcmpType)
  | icmpV6Class (class_ : IcmpClass)
  deriving DecidableEq, Repr

/-- A rule: what a packet must meet, and what comes of it. -/
structure Rule where
  number : UInt32
  /-- What a packet that meets every entry is given. -/
  result : String
  /-- The tests, all of which a packet must meet. -/
  entries : List Entry
  deriving DecidableEq, Repr

/-- The rules for one kind of traffic, in order. -/
structure Ruleset where
  /-- The traffic that the rules are for. -/
  traffic : Traffic
  rules : List Rule
  deriving DecidableEq, Repr

namespace Ruleset

/-- No rules yet. -/
def empty (traffic : Traffic) : Ruleset := ⟨traffic, []⟩

/-- Adds a rule behind the others. -/
def push (s : Ruleset) (r : Rule) : Ruleset := ⟨s.traffic, s.rules ++ [r]⟩

end Ruleset

end PacketClassifier
