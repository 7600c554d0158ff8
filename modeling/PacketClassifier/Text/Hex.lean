/-
Bytes as text: two lower-case hexadecimal digits for each byte.
-/
import PacketClassifier.Text.Numeral
import PacketClassifier.Text.Utf8

namespace PacketClassifier

namespace Hex

/-- The two digits of a byte. -/
def ofByte (b : UInt8) : List Char :=
  [Numeral.digitChar (b.toNat / 16), Numeral.digitChar (b.toNat % 16)]

/-- The digits of a byte sequence. -/
def encode (bs : Bytes) : List Char := bs.flatMap ofByte

/-- The digits of a byte sequence, as a string. -/
def text (bs : Bytes) : String := String.ofList (encode bs)

/-- The bytes that an even number of digits stands for. -/
def decode? : List Char → Option Bytes
  | [] => some []
  | [_] => none
  | h :: l :: rest => do
    let high ← Numeral.hexDigit? h
    let low ← Numeral.hexDigit? l
    let bytes ← decode? rest
    return (16 * high + low).toUInt8 :: bytes

end Hex

end PacketClassifier
