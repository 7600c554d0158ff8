/-
Named code points of the differentiated services field.

`CodePoint.all` lists them in their customary order, `CodePoint.ofName?` reads a name, and
`Dscp.value?` reads what a list of values may hold: a name or a number of 32 bits.
-/
import PacketClassifier.Text.Numeral

namespace PacketClassifier

/-- A named code point. -/
inductive CodePoint where
  | default
  | cs0 | cs1 | cs2 | cs3 | cs4 | cs5 | cs6 | cs7
  | af11 | af12 | af13
  | af21 | af22 | af23
  | af31 | af32 | af33
  | af41 | af42 | af43
  | ef
  | va
  deriving DecidableEq, Repr

namespace CodePoint

/-- The code points in order. -/
def all : List CodePoint :=
  [default, cs0, cs1, cs2, cs3, cs4, cs5, cs6, cs7, af11, af12, af13, af21, af22, af23,
   af31, af32, af33, af41, af42, af43, ef, va]

/-- The name in a document. -/
def name : CodePoint → String
  | default => "default"
  | cs0 => "cs0" | cs1 => "cs1" | cs2 => "cs2" | cs3 => "cs3"
  | cs4 => "cs4" | cs5 => "cs5" | cs6 => "cs6" | cs7 => "cs7"
  | af11 => "af11" | af12 => "af12" | af13 => "af13"
  | af21 => "af21" | af22 => "af22" | af23 => "af23"
  | af31 => "af31" | af32 => "af32" | af33 => "af33"
  | af41 => "af41" | af42 => "af42" | af43 => "af43"
  | ef => "ef"
  | va => "va"

/-- The six-bit value. A class selector `n` is `8 n`, and class `x` of drop precedence `y`
is `8 x + 2 y`. -/
def value : CodePoint → UInt32
  | default => 0
  | cs0 => 0 | cs1 => 8 | cs2 => 16 | cs3 => 24
  | cs4 => 32 | cs5 => 40 | cs6 => 48 | cs7 => 56
  | af11 => 10 | af12 => 12 | af13 => 14
  | af21 => 18 | af22 => 20 | af23 => 22
  | af31 => 26 | af32 => 28 | af33 => 30
  | af41 => 34 | af42 => 36 | af43 => 38
  | ef => 46
  | va => 44

/-- The code point of a name. -/
def ofName? (name : String) : Option CodePoint := all.find? fun p => p.name == name

end CodePoint

namespace Dscp

/-- The value that stands for a name nobody knows; the field has six bits only. -/
def unresolved : UInt32 := 64

/-- The value of a named code point. -/
def named? (name : String) : Option UInt32 := (CodePoint.ofName? name).map CodePoint.value

/-- The value that an entry of a list stands for: a name, or a number taken as it is. -/
def value? (entry : String) : Option UInt32 := (named? entry).or (Numeral.word? entry)

end Dscp

end PacketClassifier
