/-
What a rule's match asks for, and the entries it compiles to.

A predicate belongs to one of eight kinds. `Predicate.entries` is the whole of compiling:
names are resolved by fixed tables, where a name nobody knows becomes a value that no
packet has, and networks lose the bits behind their length. A rule's predicates are kept
in the order of their kinds.
-/
import PacketClassifier.CodePoint
import PacketClassifier.Protocol.Registry
import PacketClassifier.Ruleset.Basic

namespace PacketClassifier

namespace Match

/-- The kinds of predicates. -/
inductive Kind where
  | destination
  | dscp
  | fragment
  | icmp
  | icmpv6
  | protocol
  | source
  | ttl
  deriving DecidableEq, Repr

namespace Kind

/-- The kinds in order. -/
def all : List Kind := [destination, dscp, fragment, icmp, icmpv6, protocol, source, ttl]

/-- The place of a kind in the order. -/
def rank : Kind → Nat
  | destination => 0
  | dscp => 1
  | fragment => 2
  | icmp => 3
  | icmpv6 => 4
  | protocol => 5
  | source => 6
  | ttl => 7

/-- The key of a kind in a document. -/
def name : Kind → String
  | destination => "destination"
  | dscp => "dscp"
  | fragment => "fragment"
  | icmp => "icmp"
  | icmpv6 => "icmpv6"
  | protocol => "protocol"
  | source => "source"
  | ttl => "ttl"

/-- The kind of a key. -/
def ofName? (key : String) : Option Kind := all.find? fun k => k.name == key

end Kind

/-- An address as a document gives it. -/
inductive Location where
  | host (address : Address)
  /-- A network, with the bits behind its length as written. -/
  | network (network : Network)
  deriving DecidableEq, Repr

/-- The network that is compiled: a host counts all its bits. -/
def Location.compiled : Location → Network
  | host a => .host a
  | network n => n.masked

/-- One item of a source or destination. -/
inductive EndpointItem where
  | location (location : Location)
  /-- A port; an empty list of ports is no port. -/
  | port (port : Option UInt16)
  deriving DecidableEq, Repr

/-- Where in a packet a protocol number stands. -/
inductive Layer where
  | base
  | final
  deriving DecidableEq, Repr

/-- A protocol as a document gives it. -/
inductive ProtocolValue where
  | name (name : String)
  | number (number : UInt32)
  | unspecified
  deriving DecidableEq, Repr

/-- The number of a protocol. Where none is known there is one that no packet has. -/
def ProtocolValue.resolve : ProtocolValue → UInt32
  | name s => (Protocol.assigned? s).getD Protocol.unresolved
  | number n => n
  | unspecified => Protocol.unresolved

/-- A code point as a document gives it. -/
inductive DscpValue where
  | name (name : String)
  | number (number : UInt32)
  deriving DecidableEq, Repr

/-- The value of a code point. -/
def DscpValue.resolve : DscpValue → UInt32
  | name s => (Dscp.named? s).getD Dscp.unresolved
  | number n => n

/-- One way to choose messages of ICMP. -/
inductive IcmpSelector where
  | class_ (class_ : IcmpClass)
  | name (name : String)
  | type (type : IcmpType)
  deriving DecidableEq, Repr

/-- The entry of a message type. -/
def icmpEntry : Icmp.Family → IcmpType → Entry
  | .v4, t => .icmpV4 t
  | .v6, t => .icmpV6 t

/-- The entries of a selector. The older version has no classes, so a class asks for
nothing there. -/
def IcmpSelector.entries (family : Icmp.Family) : IcmpSelector → List Entry
  | .class_ c => match family with
    | .v4 => []
    | .v6 => [.icmpV6Class c]
  | .name s => [icmpEntry family ((Icmp.named? family s).getD Icmp.unresolved)]
  | .type t => [icmpEntry family ⟨t.type, Icmp.code? t.code⟩]

/-- The two ends of a packet's way. -/
inductive End where
  | source
  | destination
  deriving DecidableEq, Repr

/-- The entries of an item at one end. -/
def EndpointItem.entries : End → EndpointItem → List Entry
  | .source, .location l => [.sourceNetwork l.compiled]
  | .destination, .location l => [.destinationNetwork l.compiled]
  | .source, .port (some p) => [.sourcePort p.toUInt32]
  | .destination, .port (some p) => [.destinationPort p.toUInt32]
  | _, .port none => []

/-- The entry of a protocol in a layer. -/
def protocolEntry : Layer × ProtocolValue → Entry
  | (.base, v) => .baseProtocol v.resolve
  | (.final, v) => .finalProtocol v.resolve

/-- What one key of a match asks for. -/
inductive Predicate where
  | destination (items : List EndpointItem)
  | dscp (value : DscpValue)
  | fragment (fragment : Fragment)
  | icmp (selectors : List IcmpSelector)
  | icmpv6 (selectors : List IcmpSelector)
  | protocol (values : List (Layer × ProtocolValue))
  | source (items : List EndpointItem)
  | ttl (value : UInt32)
  deriving DecidableEq, Repr

namespace Predicate

/-- The kind of a predicate. -/
def kind : Predicate → Kind
  | destination _ => .destination
  | dscp _ => .dscp
  | fragment _ => .fragment
  | icmp _ => .icmp
  | icmpv6 _ => .icmpv6
  | protocol _ => .protocol
  | source _ => .source
  | ttl _ => .ttl

/-- The entries that a predicate compiles to. -/
def entries : Predicate → List Entry
  | destination items => items.flatMap (EndpointItem.entries .destination)
  | dscp v => [.dscp v.resolve]
  | fragment f => [.fragment f]
  | icmp selectors => selectors.flatMap (IcmpSelector.entries .v4)
  | icmpv6 selectors => selectors.flatMap (IcmpSelector.entries .v6)
  | protocol values => values.map protocolEntry
  | source items => items.flatMap (EndpointItem.entries .source)
  | ttl v => [.ttl v]

/-- The predicates in the order of their kinds; those of one kind keep their order. -/
def sort (ps : List Predicate) : List Predicate :=
  ps.mergeSort fun p q => decide (p.kind.rank ≤ q.kind.rank)

end Predicate

end Match

end PacketClassifier
