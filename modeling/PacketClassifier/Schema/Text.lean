/-
Records read from text.

A record that is read from text never becomes a whole document first. Only the fields of
the record are read; the values of other members are passed over. A field that is given
twice makes the text unreadable, where a document would keep the last value.
-/
import PacketClassifier.Json.Skip
import PacketClassifier.Schema.Shape

namespace PacketClassifier

namespace Schema

/-- The containers that may nest inside a record. -/
def innerDepth : Nat := Json.maxDepth - 1

/-- Reads the value of a field, and passes over any other. -/
def memberValue (fields : List String) (key : String) (cs : List Char) :
    Option (Json × List Char) :=
  if fields.contains key then Json.Read.value innerDepth cs else Json.Skip.value cs

/-- Whether a document gives each of some fields at most once. -/
def givesOnce (fields : List String) (j : Json) : Bool :=
  let keys := ((j.members?.getD []).map (·.1)).filter fields.contains
  fields.all fun f => keys.count f ≤ 1

/-- The record in front of a text, as an object of its fields or an array. -/
def document? (fields : List String) (cs : List Char) : Option (Json × List Char) :=
  match Json.Read.skipBlank cs with
  | '[' :: rest => Json.Read.array (Json.Read.value innerDepth) rest
  | '{' :: rest => Json.Read.object (Json.Read.key? Json.Read.unquote)
      (memberValue fields) rest
  | _ => none

/-- Reads a record of the given name from a whole text. -/
def ofText? {α : Type} (name : String) (shape : Shape α) (cs : List Char) : Option α := do
  let j ← Json.Read.whole? (document? shape.names cs)
  if givesOnce shape.names j then (record name shape j).toOption else none

end Schema

end PacketClassifier
