/-
Fields: the layer below every message.

Numbers are written in groups of seven bits, least significant group first.
`Varint.encode` writes the fewest bytes. `Varint.decode?` reads a number of 64 bits and
gives back the bytes that follow; it refuses input that ends too early, more than ten
bytes, and a tenth byte above one.

A message is a sequence of fields, each with a number and one of six wire types. This
module writes fields, reads the key in front of one, skips a field that nobody knows, and
reads the fields of a message with a given way to take one field in.

Lengths are measured against everything that is left of the input, not against the message
around them, so a reader is given all the rest and gives back all the rest. What it leaves
tells its caller whether the end of the message was kept. `depth` counts how many more
messages and groups may open.
-/
import PacketClassifier.Text.Numeral
import PacketClassifier.Text.Utf8

namespace PacketClassifier

namespace Varint

/-- The shortest way to write a number. -/
def encode (n : Nat) : Bytes :=
  if n < 128 then [n.toUInt8] else (n % 128 + 128).toUInt8 :: encode (n / 128)
termination_by n
decreasing_by omega

/-- Reads at most `left` further bytes and adds their value, in units of `scale`, to `acc`. -/
def decodeFrom (left scale acc : Nat) : Bytes → Option (Nat × Bytes)
  | [] => none
  | b :: bs =>
    match left with
    | 0 => none
    | left + 1 =>
      let acc := acc + scale * (b.toNat % 128)
      if b.toNat < 128 then (if left = 0 ∧ 1 < b.toNat then none else some (acc, bs))
      else decodeFrom left (scale * 128) acc bs

/-- The number at the start of the bytes, and the bytes after it. -/
def decode? (bs : Bytes) : Option (Nat × Bytes) := decodeFrom 10 1 0 bs

end Varint

namespace Wire

/-- How the value of a field is laid out. -/
inductive WireType where
  | varint
  | fixed64
  | delimited
  | groupStart
  | groupEnd
  | fixed32
  deriving DecidableEq, Repr

namespace WireType

/-- The number of a wire type in a key. -/
def code : WireType → Nat
  | varint => 0
  | fixed64 => 1
  | delimited => 2
  | groupStart => 3
  | groupEnd => 4
  | fixed32 => 5

/-- The wire type of a number. -/
def ofCode? : Nat → Option WireType
  | 0 => some varint
  | 1 => some fixed64
  | 2 => some delimited
  | 3 => some groupStart
  | 4 => some groupEnd
  | 5 => some fixed32
  | _ => none

/-- The name of a wire type in words for a fault. -/
def name : WireType → String
  | varint => "Varint"
  | fixed64 => "SixtyFourBit"
  | delimited => "LengthDelimited"
  | groupStart => "StartGroup"
  | groupEnd => "EndGroup"
  | fixed32 => "ThirtyTwoBit"

end WireType

/-- Why bytes are no message. -/
inductive Fault where
  /-- A number is cut off or does not fit 64 bits. -/
  | badVarint
  /-- A key does not fit 32 bits. -/
  | badKey (key : Nat)
  /-- A key has a wire type that does not exist. -/
  | badWireType (code : Nat)
  /-- A key has the field number zero. -/
  | zeroField
  /-- A known field has another wire type than it should have. -/
  | mismatch (actual expected : WireType)
  | underflow
  | overrun
  /-- A group ends that was not open. -/
  | groupEnd
  /-- Messages and groups are nested too deep. -/
  | tooDeep
  | badString
  deriving DecidableEq, Repr

/-- The words for it. -/
def Fault.message : Fault → String
  | badVarint => "invalid varint"
  | badKey key => "invalid key value: " ++ Numeral.text key
  | badWireType code => "invalid wire type value: " ++ Numeral.text code
  | zeroField => "invalid tag value: 0"
  | mismatch actual expected =>
    "invalid wire type: " ++ actual.name ++ " (expected " ++ expected.name ++ ")"
  | underflow => "buffer underflow"
  | overrun => "delimited length exceeded"
  | groupEnd => "unexpected end group tag"
  | tooDeep => "recursion limit reached"
  | badString => "invalid string value: data is not UTF-8 encoded"

/-- A fault, with the fields inside which it was found, innermost first. -/
structure Malformed where
  fault : Fault
  /-- Message and field names on the way to it. -/
  path : List (String × String)
  deriving DecidableEq, Repr

/-- The path and the words for the fault. -/
def Malformed.message (m : Malformed) : String :=
  "failed to decode Protobuf message: "
    ++ String.join (m.path.map fun (message, field) => message ++ "." ++ field ++ ": ")
      ++ m.fault.message

/-- Stops with a fault, outside every field so far. -/
def fail {α : Type} (fault : Fault) : Except Malformed α := .error ⟨fault, []⟩

/-- Notes the field inside which a reading went on. -/
def inField {α : Type} (message field : String) : Except Malformed α → Except Malformed α
  | .ok a => .ok a
  | .error m => .error ⟨m.fault, m.path ++ [(message, field)]⟩

/-- Reads a number. -/
def varint (bs : Bytes) : Except Malformed (Nat × Bytes) :=
  match Varint.decode? bs with
  | some r => .ok r
  | none => fail .badVarint

/-- A field's number and wire type. -/
structure Key where
  number : Nat
  wire : WireType
  deriving DecidableEq, Repr

/-- Writes a key as one number. -/
def Key.encode (k : Key) : Bytes := Varint.encode (k.number * 8 + k.wire.code)

/-- Reads a key. The wire type is looked at before the field number. -/
def key (bs : Bytes) : Except Malformed (Key × Bytes) := do
  let (n, bs) ← varint bs
  if 4294967295 < n then fail (.badKey n)
  match WireType.ofCode? (n % 8) with
  | none => fail (.badWireType (n % 8))
  | some wire => if n / 8 = 0 then fail .zeroField else return (⟨n / 8, wire⟩, bs)

/-- A field that holds a number. -/
def numberField (number value : Nat) : Bytes :=
  Key.encode ⟨number, .varint⟩ ++ Varint.encode value

/-- A field that holds bytes, behind their length. -/
def bytesField (number : Nat) (value : Bytes) : Bytes :=
  Key.encode ⟨number, .delimited⟩ ++ Varint.encode value.length ++ value

/-- A field that is left out when its number is zero. -/
def plainField (number value : Nat) : Bytes :=
  if value = 0 then [] else numberField number value

/-- Refuses a field whose wire type is not the expected one. -/
def expect (expected : WireType) (k : Key) : Except Malformed Unit :=
  if k.wire = expected then .ok () else fail (.mismatch k.wire expected)

/-- The value of a field that holds a number. -/
def readNumber (k : Key) (bs : Bytes) : Except Malformed (Nat × Bytes) := do
  expect .varint k
  varint bs

/-- Takes so many bytes, if they are there. -/
def takeBytes (n : Nat) (bs : Bytes) : Except Malformed (Bytes × Bytes) :=
  if bs.length < n then fail .underflow else .ok (bs.take n, bs.drop n)

/-- The value of a field that holds bytes. -/
def readBytes (k : Key) (bs : Bytes) : Except Malformed (Bytes × Bytes) := do
  expect .delimited k
  let (n, bs) ← varint bs
  takeBytes n bs

/-- The value of a field that holds text. -/
def readString (k : Key) (bs : Bytes) : Except Malformed (String × Bytes) := do
  let (value, bs) ← readBytes k bs
  match Utf8.string? value with
  | some s => return (s, bs)
  | none => fail .badString

/-- Takes one field into a message, behind its key. -/
abbrev FieldReader (σ : Type) := Key → σ → Bytes → Except Malformed (σ × Bytes)

/-- Takes in fields by `take` until no more than `limit` bytes are left. The first
argument bounds the number of fields. -/
def fieldsUntil {σ : Type} (take : FieldReader σ) (limit : Nat) :
    Nat → σ → Bytes → Except Malformed (σ × Bytes)
  | 0, s, bs => .ok (s, bs)
  | n + 1, s, bs =>
    if bs.length ≤ limit then .ok (s, bs)
    else do
      let (k, bs) ← key bs
      let (s, bs) ← take k s bs
      fieldsUntil take limit n s bs

/-- Takes in all fields of the input. -/
def readAll {σ : Type} (take : FieldReader σ) (s : σ) (bs : Bytes) : Except Malformed σ := do
  let (s, _) ← fieldsUntil take 0 bs.length s bs
  return s

/-- Takes in the fields of a message that stands in a field. The message may use one level
less. -/
def readMessage {σ : Type} (take : (depth : Nat) → FieldReader σ) (depth : Nat) (k : Key)
    (s : σ) (bs : Bytes) :
    Except Malformed (σ × Bytes) := do
  expect .delimited k
  match depth with
  | 0 => fail .tooDeep
  | depth + 1 =>
    let (n, bs) ← varint bs
    if bs.length < n then fail .underflow
    let limit := bs.length - n
    let (s, bs) ← fieldsUntil (take depth) limit n s bs
    if bs.length = limit then return (s, bs) else fail .overrun

/-- Skips fields by `skip` up to the end of the group of the given number. The first
argument bounds the number of fields. -/
def skipGroup (skip : Key → Bytes → Except Malformed Bytes) (number : Nat) :
    Nat → Bytes → Except Malformed Bytes
  | 0, _ => fail .badVarint
  | n + 1, bs => do
    let (k, bs) ← key bs
    if k.wire = .groupEnd then
      if k.number = number then return bs else fail .groupEnd
    else do
      let bs ← skip k bs
      skipGroup skip number n bs

/-- Skips the value of a field. -/
def skipField : (depth : Nat) → Key → Bytes → Except Malformed Bytes
  | 0, _, _ => fail .tooDeep
  | depth + 1, k, bs =>
    match k.wire with
    | .varint => do return (← varint bs).2
    | .fixed64 => do return (← takeBytes 8 bs).2
    | .fixed32 => do return (← takeBytes 4 bs).2
    | .delimited => do
      let (n, bs) ← varint bs
      return (← takeBytes n bs).2
    | .groupStart => skipGroup (skipField depth) k.number (bs.length + 1) bs
    | .groupEnd => fail .groupEnd

/-- Skips a field that the message at hand does not know. -/
def skipUnknown {σ : Type} (depth : Nat) (k : Key) (s : σ) (bs : Bytes) :
    Except Malformed (σ × Bytes) := do
  return (s, ← skipField depth k bs)

end Wire

end PacketClassifier
