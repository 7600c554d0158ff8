/-
The binary form of a ruleset.

Writing goes straight from the ruleset to bytes. Reading has two stages: first all fields
are taken in, into messages whose numbers may mean nothing yet, then the values are
settled in order. So a fault in the bytes anywhere wins over a value without a meaning
anywhere.
-/
import PacketClassifier.Ruleset.Basic
import PacketClassifier.Text.Numeral
import PacketClassifier.Wire.Field

namespace PacketClassifier

namespace Wire

/-- How many messages and groups may be open inside one another. -/
def maxNesting : Nat := 100

/-- The number that stands for a kind of traffic. -/
def trafficCode : Traffic → Nat
  | .ipv4 => 0
  | .ipv6 => 1

/-- The number that stands for fragments. -/
def fragmentCode : Fragment → Nat
  | .any => 0
  | .initial => 1
  | .subsequent => 2

/-- The number that stands for a class of messages. -/
def classCode : IcmpClass → Nat
  | .info => 0
  | .error => 1

/-- The sixteen bytes of a word of 128 bits, most significant first. -/
def bytes128 (bits : BitVec 128) : Bytes :=
  (List.range 16).map fun i => (bits.toNat / Nat.pow 2 (120 - 8 * i) % 256).toUInt8

/-- The word of 128 bits that bytes stand for, most significant first. -/
def word128 (bs : Bytes) : BitVec 128 :=
  BitVec.ofNat 128 (bs.foldl (fun acc b => acc * 256 + b.toNat) 0)

/-- Writes an address of the older version as a number, and one of the newer as bytes. -/
def encodeAddress : Address → Bytes
  | .v4 bits => numberField 1 bits.toNat
  | .v6 bits => bytesField 2 (bytes128 bits)

/-- Writes a network: the address as a message in it, then the length. -/
def encodeNetwork (n : Network) : Bytes :=
  bytesField 1 (encodeAddress n.address) ++ plainField 2 n.length.toNat

/-- Writes a message type, with its code if there is one. -/
def encodeIcmp (t : IcmpType) : Bytes :=
  plainField 1 t.type.toNat ++ (match t.code with
    | some code => numberField 2 code.toNat
    | none => [])

/-- Writes an entry: one field, whose number tells what is tested. -/
def encodeEntry : Entry → Bytes
  | .sourceNetwork n => bytesField 1 (encodeNetwork n)
  | .destinationNetwork n => bytesField 2 (encodeNetwork n)
  | .sourcePort p => numberField 3 p.toNat
  | .destinationPort p => numberField 4 p.toNat
  | .baseProtocol n => numberField 5 n.toNat
  | .finalProtocol n => numberField 6 n.toNat
  | .dscp v => numberField 7 v.toNat
  | .ttl v => numberField 8 v.toNat
  | .fragment f => numberField 9 (fragmentCode f)
  | .icmpV4 t => bytesField 10 (encodeIcmp t)
  | .icmpV6 t => bytesField 11 (encodeIcmp t)
  | .icmpV6Class c => numberField 12 (classCode c)

/-- Writes a rule; an empty result is left out. -/
def encodeRule (r : Rule) : Bytes :=
  plainField 1 r.number.toNat
    ++ (if r.result.isEmpty then [] else bytesField 2 (Utf8.ofString r.result))
    ++ r.entries.flatMap fun e => bytesField 3 (encodeEntry e)

/-- Writes a ruleset. -/
def encode (s : Ruleset) : Bytes :=
  plainField 1 (trafficCode s.traffic) ++ s.rules.flatMap fun r => bytesField 2 (encodeRule r)

/-- The lowest 32 bits of a number. -/
def low32 (n : Nat) : UInt32 := (n % 4294967296).toUInt32

/-- The lowest 32 bits of a number, as a signed number. -/
def signed32 (n : Nat) : Int :=
  if n % 4294967296 < 2147483648 then n % 4294967296 else (n % 4294967296 : Nat) - 4294967296

/-- An address as its fields stand: none, a number, or any bytes. -/
inductive AddressFields where
  | absent
  | number (bits : UInt32)
  | bytes (value : Bytes)
  deriving DecidableEq, Repr

/-- A network as its fields stand. -/
structure NetworkFields where
  /-- The address, absent unless a field gave one. -/
  address : AddressFields
  /-- The length, any number of 32 bits. -/
  length : UInt32
  deriving DecidableEq, Repr

/-- An entry as its field stands. -/
inductive EntryFields where
  | absent
  | sourceNetwork (n : NetworkFields)
  | destinationNetwork (n : NetworkFields)
  | sourcePort (p : UInt32)
  | destinationPort (p : UInt32)
  | baseProtocol (n : UInt32)
  | finalProtocol (n : UInt32)
  | dscp (v : UInt32)
  | ttl (v : UInt32)
  | fragment (code : Int)
  | icmpV4 (t : IcmpType)
  | icmpV6 (t : IcmpType)
  | icmpV6Class (code : Int)
  deriving DecidableEq, Repr

/-- A rule as its fields stand. -/
structure RuleFields where
  number : UInt32
  result : String
  entries : List EntryFields
  deriving DecidableEq, Repr

/-- A ruleset as its fields stand. -/
structure RulesetFields where
  traffic : Int
  rules : List RuleFields
  deriving DecidableEq, Repr

/-- A number of 32 bits from a field. -/
def readWord (k : Key) (bs : Bytes) : Except Malformed (UInt32 × Bytes) := do
  let (n, bs) ← readNumber k bs
  return (low32 n, bs)

/-- A signed number of 32 bits from a field. -/
def readSigned (k : Key) (bs : Bytes) : Except Malformed (Int × Bytes) := do
  let (n, bs) ← readNumber k bs
  return (signed32 n, bs)

/-- Applies a function to the value of a reading. -/
def mapValue {α β : Type} (f : α → β) :
    Except Malformed (α × Bytes) → Except Malformed (β × Bytes)
  | .ok (a, bs) => .ok (f a, bs)
  | .error m => .error m

/-- Takes in a field of an address; the last one counts. -/
def takeAddress (depth : Nat) (k : Key) (a : AddressFields) (bs : Bytes) :
    Except Malformed (AddressFields × Bytes) :=
  match k.number with
  | 1 => inField "IpAddress" "address" (mapValue .number (readWord k bs))
  | 2 => inField "IpAddress" "address" (mapValue .bytes (readBytes k bs))
  | _ => skipUnknown depth k a bs

/-- Takes in a field of a network; a second address adds its fields to the first one's. -/
def takeNetwork (depth : Nat) (k : Key) (n : NetworkFields) (bs : Bytes) :
    Except Malformed (NetworkFields × Bytes) :=
  match k.number with
  | 1 => inField "IpPrefix" "address"
      (mapValue (fun a => { n with address := a })
        (readMessage takeAddress depth k n.address bs))
  | 2 => inField "IpPrefix" "length"
      (mapValue (fun v => { n with length := v }) (readWord k bs))
  | _ => skipUnknown depth k n bs

/-- Takes in a field of a message type. -/
def takeIcmp (depth : Nat) (k : Key) (t : IcmpType) (bs : Bytes) :
    Except Malformed (IcmpType × Bytes) :=
  match k.number with
  | 1 => inField "IcmpTypeAndCode" "typenum"
      (mapValue (fun v => { t with type := v }) (readWord k bs))
  | 2 => inField "IcmpTypeAndCode" "code"
      (mapValue (fun v => { t with code := some v }) (readWord k bs))
  | _ => skipUnknown depth k t bs

/-- A network none of whose fields was read yet. -/
def NetworkFields.blank : NetworkFields := ⟨.absent, 0⟩

/-- A message type none of whose fields was read yet. -/
def blankIcmp : IcmpType := ⟨0, none⟩

/-- Takes in a field of an entry. The last one counts, and two of the same kind of message
are merged. -/
def takeEntry (depth : Nat) (k : Key) (e : EntryFields) (bs : Bytes) :
    Except Malformed (EntryFields × Bytes) :=
  let named := inField (α := EntryFields × Bytes) "RuleMatch" "entry"
  match k.number with
  | 1 =>
    let start := match e with
      | .sourceNetwork n => n
      | _ => .blank
    named (mapValue .sourceNetwork (readMessage takeNetwork depth k start bs))
  | 2 =>
    let start := match e with
      | .destinationNetwork n => n
      | _ => .blank
    named (mapValue .destinationNetwork (readMessage takeNetwork depth k start bs))
  | 3 => named (mapValue .sourcePort (readWord k bs))
  | 4 => named (mapValue .destinationPort (readWord k bs))
  | 5 => named (mapValue .baseProtocol (readWord k bs))
  | 6 => named (mapValue .finalProtocol (readWord k bs))
  | 7 => named (mapValue .dscp (readWord k bs))
  | 8 => named (mapValue .ttl (readWord k bs))
  | 9 => named (mapValue .fragment (readSigned k bs))
  | 10 =>
    let start := match e with
      | .icmpV4 t => t
      | _ => blankIcmp
    named (mapValue .icmpV4 (readMessage takeIcmp depth k start bs))
  | 11 =>
    let start := match e with
      | .icmpV6 t => t
      | _ => blankIcmp
    named (mapValue .icmpV6 (readMessage takeIcmp depth k start bs))
  | 12 => named (mapValue .icmpV6Class (readSigned k bs))
  | _ => skipUnknown depth k e bs

/-- Takes in a field of a rule. The last number and the last result count, and entries add
up. -/
def takeRule (depth : Nat) (k : Key) (r : RuleFields) (bs : Bytes) :
    Except Malformed (RuleFields × Bytes) :=
  match k.number with
  | 1 => inField "Rule" "number" (mapValue (fun v => { r with number := v }) (readWord k bs))
  | 2 => inField "Rule" "result"
      (mapValue (fun v => { r with result := v }) (readString k bs))
  | 3 => inField "Rule" "matches"
      (mapValue (fun e => { r with entries := r.entries ++ [e] })
        (readMessage takeEntry depth k .absent bs))
  | _ => skipUnknown depth k r bs

/-- A rule none of whose fields was read yet. -/
def RuleFields.blank : RuleFields := ⟨0, "", []⟩

/-- Takes in a field of a ruleset. The last kind of traffic counts, and rules add up. -/
def takeRuleset (depth : Nat) (k : Key) (s : RulesetFields) (bs : Bytes) :
    Except Malformed (RulesetFields × Bytes) :=
  match k.number with
  | 1 => inField "Rules" "traffic_type"
      (mapValue (fun v => { s with traffic := v }) (readSigned k bs))
  | 2 => inField "Rules" "rules"
      (mapValue (fun r => { s with rules := s.rules ++ [r] })
        (readMessage takeRule depth k .blank bs))
  | _ => skipUnknown depth k s bs

/-- A ruleset none of whose fields was read yet. -/
def RulesetFields.blank : RulesetFields := ⟨0, []⟩

/-- The fields of a ruleset, taken in from bytes. -/
def fields (bs : Bytes) : Except Malformed RulesetFields :=
  readAll (takeRuleset maxNesting) .blank bs

/-- What a value stands for that has no meaning. -/
inductive Subject where
  | traffic
  | fragment
  | icmpClass
  | addressLength
  | networkLength
  deriving DecidableEq, Repr

/-- The name of a subject in words for a problem. -/
def Subject.name : Subject → String
  | traffic => "traffic_type"
  | fragment => "fragment"
  | icmpClass => "icmpv6_class"
  | addressLength => "ipv6_addr length"
  | networkLength => "prefix length"

/-- Why bytes are no ruleset. -/
inductive Problem where
  | malformed (m : Malformed)
  | badValue (subject : Subject) (value : Int)
  | emptyEntry
  deriving DecidableEq, Repr

/-- The words for a problem. -/
def Problem.message : Problem → String
  | malformed m => "malformed message: " ++ m.message
  | badValue subject value =>
    "invalid " ++ subject.name ++ " value " ++ String.ofList (Numeral.integer value)
  | emptyEntry => "match entry carries no predicate"

/-- The kind of traffic that a number stands for. -/
def settleTraffic (code : Int) : Except Problem Traffic :=
  if code = 0 then .ok .ipv4 else if code = 1 then .ok .ipv6
  else .error (.badValue .traffic code)

/-- The fragments that a number stands for. -/
def settleFragment (code : Int) : Except Problem Fragment :=
  if code = 0 then .ok .any else if code = 1 then .ok .initial
  else if code = 2 then .ok .subsequent
  else .error (.badValue .fragment code)

/-- The class of messages that a number stands for. -/
def settleClass (code : Int) : Except Problem IcmpClass :=
  if code = 0 then .ok .info else if code = 1 then .ok .error
  else .error (.badValue .icmpClass code)

/-- The address of a network's fields. An absent one has no bit set. -/
def settleAddress : AddressFields → Except Problem Address
  | .absent => .ok .unspecified
  | .number bits => .ok (.v4 (BitVec.ofNat 32 bits.toNat))
  | .bytes value =>
    if value.length = 16 then .ok (.v6 (word128 value))
    else .error (.badValue .addressLength (min value.length 4294967295))

/-- The network of its fields. A length of more than eight bits is a problem. -/
def settleNetwork (n : NetworkFields) : Except Problem Network := do
  let address ← settleAddress n.address
  if n.length.toNat ≤ 255 then return ⟨address, n.length.toUInt8⟩
  else .error (.badValue .networkLength n.length.toNat)

/-- The entry of its fields. There has to be one. -/
def settleEntry : EntryFields → Except Problem Entry
  | .absent => .error .emptyEntry
  | .sourceNetwork n => do return .sourceNetwork (← settleNetwork n)
  | .destinationNetwork n => do return .destinationNetwork (← settleNetwork n)
  | .sourcePort p => .ok (.sourcePort p)
  | .destinationPort p => .ok (.destinationPort p)
  | .baseProtocol n => .ok (.baseProtocol n)
  | .finalProtocol n => .ok (.finalProtocol n)
  | .dscp v => .ok (.dscp v)
  | .ttl v => .ok (.ttl v)
  | .fragment code => do return .fragment (← settleFragment code)
  | .icmpV4 t => .ok (.icmpV4 t)
  | .icmpV6 t => .ok (.icmpV6 t)
  | .icmpV6Class code => do return .icmpV6Class (← settleClass code)

/-- The rule of its fields, its entries settled in order. -/
def settleRule (r : RuleFields) : Except Problem Rule := do
  return ⟨r.number, r.result, ← r.entries.mapM settleEntry⟩

/-- The ruleset of its fields, its traffic settled first and then its rules in order. -/
def settle (s : RulesetFields) : Except Problem Ruleset := do
  let traffic ← settleTraffic s.traffic
  return ⟨traffic, ← s.rules.mapM settleRule⟩

/-- The ruleset that bytes stand for. -/
def decode (bs : Bytes) : Except Problem Ruleset :=
  match fields bs with
  | .ok s => settle s
  | .error m => .error (.malformed m)

end Wire

end PacketClassifier
