/-
Why a document does not have the form that a record asks for.
-/
import PacketClassifier.Instant.Text
import PacketClassifier.Json.Basic
import PacketClassifier.Text.Hidden
import PacketClassifier.Binary64.Decimal

namespace PacketClassifier

namespace Schema

/-- What a place in a record asks for. -/
inductive Expected where
  | word
  | string
  | boolean
  | map
  | sequence
  | unit
  | path
  | instant
  | stringOrMap
  | record (name : String)
  deriving DecidableEq, Repr

/-- The words for what a place asks for. -/
def Expected.words : Expected → String
  | word => "u32"
  | string => "a string"
  | boolean => "a boolean"
  | map => "a map"
  | sequence => "a sequence"
  | unit => "unit"
  | path => "path string"
  | instant => "an RFC 3339 formatted date and time string"
  | stringOrMap => "string or map"
  | record name => "struct " ++ name

/-- Why a document has another form. -/
inductive Mismatch where
  | wrongType (found : Json) (expected : Expected)
  | outOfRange (number : Int) (expected : Expected)
  | missing (field : String)
  /-- A list of fields ends before a required one. -/
  | tooShort (length : Nat) (record : String) (fields : Nat)
  /-- A list of fields is longer than the record. -/
  | tooLong (length : Nat)
  /-- A word is none of those allowed. -/
  | unknownWord (word : String) (allowed : List String)
  /-- An object that stands for a word does not have exactly one key. -/
  | notSingleKey
  /-- A text is no point in time. -/
  | badInstant (fault : Instant.Fault)
  deriving Repr

/-- The words for what stands there instead. -/
def foundWords : Json → String
  | .null => "null"
  | .bool true => "boolean `true`"
  | .bool false => "boolean `false`"
  | .int n => "integer `" ++ String.ofList (Numeral.integer n) ++ "`"
  | .real x => "floating point `" ++ String.ofList x.decimal ++ "`"
  | .str s => "string " ++ Text.quoted s
  | .arr _ => "sequence"
  | .obj _ => "map"

/-- The words for a choice. -/
def alternatives : List String → String
  | [] => ""
  | [w] => "`" ++ w ++ "`"
  | [v, w] => "`" ++ v ++ "` or `" ++ w ++ "`"
  | ws => "one of " ++ String.intercalate ", " (ws.map fun w => "`" ++ w ++ "`")

/-- The words for a mismatch. -/
def Mismatch.message : Mismatch → String
  | wrongType found expected =>
      "invalid type: " ++ foundWords found ++ ", expected " ++ expected.words
  | outOfRange n expected =>
    "invalid value: integer `" ++ String.ofList (Numeral.integer n) ++ "`, expected "
      ++ expected.words
  | missing field => "missing field `" ++ field ++ "`"
  | tooShort length record fields =>
    "invalid length " ++ Numeral.text length ++ ", expected struct " ++ record ++ " with "
      ++ Numeral.text fields ++ " elements"
  | tooLong length => "invalid length " ++ Numeral.text length
      ++ ", expected fewer elements in array"
  | unknownWord word allowed =>
      "unknown variant `" ++ word ++ "`, expected " ++ alternatives allowed
  | notSingleKey => "invalid value: map, expected map with a single key"
  | badInstant fault => fault.message

end Schema

end PacketClassifier
