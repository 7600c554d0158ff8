/-
Names of protocols.

`Protocol.assigned` lists the names that a match may use. They do not depend on the machine's
registry, so a document compiles alike everywhere.

Each line of the registry text declares a name, a number and further names.
`Registry.ofText` fills two tables in one pass, with three rules for what happens when
lines collide: a number keeps its first name, a name takes its last number, and an alias
never displaces anything. `Registry.numberOf` and `Registry.nameOf` then never fail: what
nobody declares is protocol zero, or the number in decimal.
-/
import PacketClassifier.Assoc
import PacketClassifier.Text.Blank
import PacketClassifier.Text.Numeral

namespace PacketClassifier

namespace Protocol

/-! ### Assigned names -/

/-- The protocol number that stands for a name nobody knows; no real protocol has it. -/
def unresolved : UInt32 := 256

/-- Names and numbers, in ascending order of the numbers. -/
def assigned : List (String × UInt32) :=
  [("hopopt", 0), ("icmp", 1), ("igmp", 2), ("ggp", 3), ("ipencap", 4), ("st", 5), ("tcp", 6),
   ("egp", 8), ("igp", 9), ("pup", 12), ("udp", 17), ("hmp", 20), ("xns-idp", 22),
   ("rdp", 27), ("iso-tp4", 29), ("dccp", 33), ("xtp", 36), ("ddp", 37), ("idpr-cmtp", 38),
   ("ipv6", 41), ("ipv6-route", 43), ("ipv6-frag", 44), ("idrp", 45), ("rsvp", 46),
   ("gre", 47), ("esp", 50), ("ah", 51), ("skip", 57), ("ipv6-icmp", 58), ("ipv6-nonxt", 59),
   ("ipv6-opts", 60), ("rspf", 73), ("vmtp", 81), ("eigrp", 88), ("ospf", 89), ("ax.25", 93),
   ("ipip", 94), ("etherip", 97), ("encap", 98), ("pim", 103), ("ipcomp", 108),
   ("vrrp", 112), ("l2tp", 115), ("isis", 124), ("sctp", 132), ("fc", 133),
   ("mobility-header", 135), ("udplite", 136), ("mpls-in-ip", 137), ("manet", 138),
   ("hip", 139), ("shim6", 140), ("wesp", 141), ("rohc", 142)]

/-- The number of an assigned name. -/
def assigned? (name : String) : Option UInt32 := assigned.lookup name

/-! ### The registry of a machine -/

/-- What one accepted line says. -/
structure Declaration where
  /-- The name in the first field. -/
  name : String
  /-- The number in the second field. -/
  number : UInt32
  /-- The names in the further fields. -/
  aliases : List String
  deriving DecidableEq, Repr

/-- What a line declares. A number sign starts a comment, and a line without a name and a
number of 32 bits declares nothing. -/
def Declaration.ofLine? (line : List Char) : Option Declaration :=
  match (Text.fields (line.takeWhile (· != '#'))).map String.ofList with
  | name :: number :: aliases => (Numeral.word? number).map fun n => ⟨name, n, aliases⟩
  | _ => none

/-- The two tables of a registry. -/
structure Registry where
  byNumber : List (UInt32 × String)
  /-- The number of each name and alias. -/
  byName : List (String × UInt32)
  deriving DecidableEq, Repr

namespace Registry

/-- The registry that declares nothing. -/
def empty : Registry := ⟨[], []⟩

/-- Adds one declaration. -/
def declare (r : Registry) (d : Declaration) : Registry where
  byNumber := Assoc.insertNew d.number d.name r.byNumber
  byName := d.aliases.foldl (fun names a => Assoc.insertNew a d.number names)
    (Assoc.insert d.name d.number r.byName)

/-- The declarations of a text, in order. -/
def declarations (text : List Char) : List Declaration :=
  (Text.lines text).filterMap Declaration.ofLine?

/-- The registry of a text, declared line by line. -/
def ofText (text : List Char) : Registry := (declarations text).foldl declare empty

/-- The name declared for a number. -/
def name? (r : Registry) (number : UInt32) : Option String := r.byNumber.lookup number

/-- The number declared for a name. -/
def number? (r : Registry) (name : String) : Option UInt32 := r.byName.lookup name

/-- How many numbers have a name. -/
def size (r : Registry) : Nat := r.byNumber.length

/-- Protocols so common that no registry is asked for them. -/
def common : List (String × UInt32) :=
  [("icmp", 1), ("tcp", 6), ("udp", 17), ("ipv6-icmp", 58)]

/-- The number that a name or a decimal number stands for. The names of the internet
protocol itself mean any protocol, which is zero, as does everything unknown or too large.
-/
def numberOf (r : Registry) (name : String) : UInt32 :=
  if name = "ip" ∨ name = "ipv6" then 0
  else if name ≠ "" ∧ name.toList.all Numeral.isDigit then (Numeral.word? name).getD 0
  else match common.lookup name with
    | some number => number
    | none => (r.number? name).getD 0

/-- The name of a number: a fixed one for the common protocols, the declared one, or the
number itself. -/
def nameOf (r : Registry) (number : UInt32) : String :=
  if number = 1 then "icmp"
  else if number = 6 then "tcp"
  else if number = 17 then "udp"
  else if number = 58 then "icmpv6"
  else (r.name? number).getD (Numeral.text number.toNat)

end Registry

end Protocol

end PacketClassifier
