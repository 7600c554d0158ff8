/-
UTF-8: characters to bytes and back.

One step, `Utf8.step`, reads the first character of a byte sequence or finds that the
sequence starts with an invalid part and how long that part is. `decode?` accepts valid
input only, and `decodeLossy` replaces every maximal invalid part by U+FFFD; on valid
input the two agree.
-/
namespace PacketClassifier

/-- A sequence of bytes. -/
abbrev Bytes := List UInt8

namespace Utf8

/-- The bytes of a character, one to four. -/
def encodeChar (c : Char) : Bytes :=
  let n := c.toNat
  if n < 0x80 then [n.toUInt8]
  else if n < 0x800 then [(0xC0 + n / 64).toUInt8, (0x80 + n % 64).toUInt8]
  else if n < 0x10000 then
    [(0xE0 + n / 4096).toUInt8, (0x80 + n / 64 % 64).toUInt8, (0x80 + n % 64).toUInt8]
  else
    [(0xF0 + n / 262144).toUInt8, (0x80 + n / 4096 % 64).toUInt8,
      (0x80 + n / 64 % 64).toUInt8,
      (0x80 + n % 64).toUInt8]

/-- The bytes of a text. -/
def encode (cs : List Char) : Bytes := cs.flatMap encodeChar

/-- The bytes of a string. -/
def ofString (s : String) : Bytes := encode s.toList

/-- What the start of a non-empty byte sequence is. -/
inductive Step where
  /-- A whole character, of so many bytes. -/
  | char (c : Char) (length : Nat)
  /-- A maximal invalid part, of so many bytes. -/
  | invalid (length : Nat)
  deriving DecidableEq, Repr

/-- How many bytes follow a first byte, and the range of the first of them. -/
def lead? (b : Nat) : Option (Nat × Nat × Nat) :=
  if b < 0x80 then some (0, 0, 0)
  else if 0xC2 ≤ b ∧ b ≤ 0xDF then some (1, 0x80, 0xBF)
  else if b = 0xE0 then some (2, 0xA0, 0xBF)
  else if b = 0xED then some (2, 0x80, 0x9F)
  else if 0xE1 ≤ b ∧ b ≤ 0xEF then some (2, 0x80, 0xBF)
  else if b = 0xF0 then some (3, 0x90, 0xBF)
  else if 0xF1 ≤ b ∧ b ≤ 0xF3 then some (3, 0x80, 0xBF)
  else if b = 0xF4 then some (3, 0x80, 0x8F)
  else none

/-- The bits that a first byte contributes. -/
def leadBits (b following : Nat) : Nat :=
  match following with
  | 0 => b
  | 1 => b - 0xC0
  | 2 => b - 0xE0
  | _ => b - 0xF0

/-- Reads up to `following` continuation bytes; `low` and `high` bound the first of them.
The length counts the bytes used so far. -/
def continuation (acc length : Nat) : (following low high : Nat) → Bytes → Step
  | 0, _, _, _ => .char (Char.ofNat acc) length
  | _ + 1, _, _, [] => .invalid length
  | n + 1, low, high, b :: bs =>
    if low ≤ b.toNat ∧ b.toNat ≤ high then
      continuation (acc * 64 + (b.toNat - 0x80)) (length + 1) n 0x80 0xBF bs
    else .invalid length

/-- The step taken at a first byte followed by others. -/
def step (b : UInt8) (bs : Bytes) : Step :=
  match lead? b.toNat with
  | none => .invalid 1
  | some (following, low, high) =>
      continuation (leadBits b.toNat following) 1 following low high bs

/-- The text of a valid sequence; the first argument bounds the number of steps. -/
def decodeWithin : Nat → Bytes → Option (List Char)
  | _, [] => some []
  | 0, _ :: _ => none
  | n + 1, b :: bs =>
    match step b bs with
    | .char c length => (decodeWithin n (bs.drop (length - 1))).map (c :: ·)
    | .invalid _ => none

/-- The text of a byte sequence, if it is valid. -/
def decode? (bs : Bytes) : Option (List Char) := decodeWithin bs.length bs

/-- The string of a byte sequence, if it is valid. -/
def string? (bs : Bytes) : Option String := (decode? bs).map String.ofList

/-- The text of any sequence, each invalid part replaced; the first argument bounds the
number of steps. -/
def decodeLossyWithin : Nat → Bytes → List Char
  | _, [] => []
  | 0, _ :: _ => []
  | n + 1, b :: bs =>
    match step b bs with
    | .char c length => c :: decodeLossyWithin n (bs.drop (length - 1))
    | .invalid length => Char.ofNat 0xFFFD :: decodeLossyWithin n (bs.drop (length - 1))

/-- The text of a byte sequence, with U+FFFD for every maximal invalid part. -/
def decodeLossy (bs : Bytes) : List Char := decodeLossyWithin bs.length bs

end Utf8

end PacketClassifier
