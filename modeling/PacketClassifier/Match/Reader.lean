/-
Reading a rule's match.

A match is an object with a key for each kind of predicate; other keys are passed over.
Objects inside it are walked in ascending order of their keys, so the order in which a
document writes them does not matter. Only the match itself is walked as written, which
decides between two faults; `Match.predicates` then sorts.
-/
import PacketClassifier.Address.Text
import PacketClassifier.Error
import PacketClassifier.Match.Predicate

namespace PacketClassifier

namespace Match

open Json (Members)

/-- The members of an object, or the fault that there is none. -/
def members (j : Json) : Except Fault Members :=
  match j with
  | .obj ms => .ok ms
  | _ => .error .notObject

/-- The text of a string, or the fault that there is none. -/
def string (j : Json) : Except Fault String :=
  match j with
  | .str s => .ok s
  | _ => .error .notString

/-- The number of 32 bits in an integer or a numeric string. -/
def word? : Json → Option UInt32
  | .int n => if 0 ≤ n ∧ n ≤ Numeral.max32 then some n.toNat.toUInt32 else none
  | .str s => Numeral.word? s
  | _ => none

/-- A number of 32 bits, or the fault that shows the value. -/
def word (j : Json) : Except Fault UInt32 :=
  match word? j with
  | some n => .ok n
  | none => .error (.notUnsigned j)

/-- The first item of a list, which is absent in an empty one; any other value stands for
itself. -/
def first? : Json → Option Json
  | .arr xs => xs.head?
  | j => some j

/-- A number that fits a port. -/
def port (j : Json) : Except Fault UInt16 := do
  let n ← word j
  if n.toNat ≤ 65535 then return n.toUInt16 else .error (.portRange n)

/-- Reads a value if there is one. -/
def optional {α : Type} (read : Json → Except Fault α) : Option Json → Except Fault (Option α)
  | some j => do return some (← read j)
  | none => .ok none

/-- A host for the key `host`, and a network for any other key. -/
def location (key : String) (j : Json) : Except Fault Location := do
  let text ← string j
  if key = "host" then
    match Address.ofText? text with
    | some a => return .host a
    | none => .error (.badHost text)
  else
    match Network.ofText? text with
    | some n => return .network n
    | none => .error (.badNetwork text)

/-- The items of one field of an endpoint: addresses under the names of the two versions,
ports elsewhere. -/
def endpointField (field : String × Json) : Except Fault (List EndpointItem) := do
  let ms ← members field.2
  if field.1 = "ipv4" ∨ field.1 = "ipv6" then
    ms.sorted.mapM fun (key, j) => do return .location (← location key j)
  else
    ms.sorted.mapM fun (_, j) => do return .port (← optional port (first? j))

/-- The items of a source or destination. -/
def endpoint (j : Json) : Except Fault (List EndpointItem) := do
  let fields ← (← members j).sorted.mapM endpointField
  return fields.flatten

/-- A protocol: its name if there is one, else its number if there is one. -/
def protocolValue (ms : Members) : Except Fault ProtocolValue :=
  match ms.get? "name" with
  | some j => do return .name (← string j)
  | none =>
    match ms.get? "number" with
    | some j => do return .number (← word j)
    | none => .ok .unspecified

/-- The protocol of one layer; every key but one means the final protocol. -/
def layer (field : String × Json) : Except Fault (Layer × ProtocolValue) := do
  let ms ← members field.2
  return (if field.1 = "base" then .base else .final, ← protocolValue ms)

/-- The protocols of all layers, in ascending order of their keys. -/
def protocol (j : Json) : Except Fault (List (Layer × ProtocolValue)) := do
  (← members j).sorted.mapM layer

/-- A code point: its name if there is one, else the value of the first key. -/
def dscp (j : Json) : Except Fault (Option DscpValue) := do
  let ms ← members j
  match ms.get? "name" with
  | some j => return some (.name (← string j))
  | none =>
    match ms.sorted.head? with
    | some (_, j) => return some (.number (← word j))
    | none => return none

/-- A message type: its number, zero if there is none, and its code. -/
def icmpType (j : Json) : Except Fault IcmpType := do
  let ms ← members j
  let type ← optional word (ms.get? "type-number")
  let code ← optional word (ms.get? "code")
  return ⟨type.getD 0, code⟩

/-- The selector of one key; other keys select nothing, and neither does an empty list of
types. -/
def icmpSelector (field : String × Json) : Except Fault (Option IcmpSelector) :=
  if field.1 = "class" then do return some (.class_ (.ofSetting (← string field.2)))
  else if field.1 = "name" then do return some (.name (← string field.2))
  else if field.1 = "type" then do return (← optional icmpType (first? field.2)).map .type
  else .ok none

/-- The selectors of messages, in ascending order of their keys. -/
def icmp (j : Json) : Except Fault (List IcmpSelector) := do
  let selectors ← (← members j).sorted.mapM icmpSelector
  return selectors.filterMap id

/-- The number under the key `equals`, if there is one. -/
def ttl (j : Json) : Except Fault (Option UInt32) := do
  optional word ((← members j).get? "equals")

/-- The predicate of a kind; some values ask for nothing. -/
def predicateOf (kind : Kind) (j : Json) : Except Fault (Option Predicate) :=
  match kind with
  | .destination => do return some (.destination (← endpoint j))
  | .source => do return some (.source (← endpoint j))
  | .protocol => do return some (.protocol (← protocol j))
  | .dscp => do return (← dscp j).map .dscp
  | .fragment => do return some (.fragment (.ofSetting (← string j)))
  | .icmp => do return some (.icmp (← icmp j))
  | .icmpv6 => do return some (.icmpv6 (← icmp j))
  | .ttl => do return (← ttl j).map .ttl

/-- The predicate of a member; keys that are no kind ask for nothing. -/
def predicate? (member : String × Json) : Except Fault (Option Predicate) :=
  match Kind.ofName? member.1 with
  | some kind => predicateOf kind member.2
  | none => .ok none

/-- The predicates of the members, in their order. -/
def read : Members → Except Fault (List Predicate)
  | [] => .ok []
  | m :: ms => do
    let p ← predicate? m
    let ps ← read ms
    return p.toList ++ ps

/-- The predicates of a match, in the order of their kinds. -/
def predicates (ms : Members) : Except Fault (List Predicate) := do
  return Predicate.sort (← read ms)

/-- The entries that a match compiles to. -/
def entries (ms : Members) : Except Fault (List Entry) := do
  return (← predicates ms).flatMap Predicate.entries

end Match

end PacketClassifier
