/-
Records read from documents.

A `Shape` lists the fields of a record in their declared order and says how each is read.
Shapes combine like functions of several arguments, so a record is declared once and can
then be read from both of its forms:

* an object, where fields come in any order and unknown ones are passed over. The faults
  of the fields that are there come first, in the order of the document, and then the
  missing fields in declared order;
* an array of the fields in declared order, which may end early where the rest can be left
  out.

Absence has three rules: a required field may never be left out, a default one always, and
an optional one only where a field is known by its name.
-/
import PacketClassifier.Schema.Mismatch

namespace PacketClassifier

namespace Schema

open Json (Members)

/-- Reads a value from a document, or tells why there is none. -/
abbrev Reader (α : Type) := Json → Except Mismatch α

/-- Where the fields of a record come from. -/
structure Source where
  /-- The value of a field, if it is there. -/
  get? : String → Option Json
  /-- What a missing required field means. -/
  absent : String → Mismatch
  /-- Whether fields are known by name, so that an optional one may be left out. -/
  named : Bool

/-- The fields of a record, and how they make it up. -/
structure Shape (α : Type) where
  /-- Each field's name, and the mismatch of a value for it. -/
  fields : List (String × (Json → Option Mismatch))
  /-- The record of a source. -/
  build : Source → Except Mismatch α

/-- The mismatch that a reader finds, if any. -/
def mismatch? {α : Type} (read : Reader α) (j : Json) : Option Mismatch :=
  match read j with
  | .ok _ => none
  | .error m => some m

/-- Reads a value if there is one. -/
def present? {α : Type} (read : Reader α) : Option Json → Except Mismatch (Option α)
  | some j => do return some (← read j)
  | none => .ok none

namespace Shape

/-- A record without fields. -/
protected def pure {α : Type} (a : α) : Shape α := ⟨[], fun _ => .ok a⟩

/-- The fields of both sides, those of the left side first. -/
protected def seq {α β : Type} (f : Shape (α → β)) (a : Unit → Shape α) : Shape β where
  fields := f.fields ++ (a ()).fields
  build s := do
    let g ← f.build s
    let x ← (a ()).build s
    return g x

instance : Applicative Shape where
  pure := Shape.pure
  seq := Shape.seq

/-- A field that must be there. -/
def required {α : Type} (name : String) (read : Reader α) : Shape α where
  fields := [(name, mismatch? read)]
  build s := do
    match ← present? read (s.get? name) with
    | some a => return a
    | none => .error (s.absent name)

/-- A field that may be left out for a default value. -/
def default {α : Type} (name : String) (read : Reader α) (value : α) : Shape α where
  fields := [(name, mismatch? read)]
  build s := do return (← present? read (s.get? name)).getD value

/-- A field that may be left out where fields are known by name. -/
def optional {α : Type} (name : String) (read : Reader (Option α)) : Shape (Option α) where
  fields := [(name, mismatch? read)]
  build s := do
    match ← present? read (s.get? name) with
    | some a => return a
    | none => if s.named then return none else .error (s.absent name)

/-- The names of the fields, in order. -/
def names {α : Type} (shape : Shape α) : List String := shape.fields.map (·.1)

end Shape

/-- The first mismatch among the members that are fields, in the order of the members. -/
def firstMismatch (fields : List (String × (Json → Option Mismatch))) (ms : Members) :
    Option Mismatch :=
  ms.findSome? fun (k, v) => (fields.lookup k).bind fun check => check v

/-- Members as a source of fields. -/
def namedSource (ms : Members) : Source := ⟨fun name => ms.get? name, .missing, true⟩

/-- Items as a source of the fields of the given names. -/
def positionalSource (record : String) (names : List String) (items : List Json) :
    Source where
  get? name := items[names.idxOf name]?
  absent name := .tooShort (names.idxOf name) record names.length
  named := false

/-- Reads a record from the members of an object. -/
def ofMembers {α : Type} (shape : Shape α) (ms : Members) : Except Mismatch α :=
  match firstMismatch shape.fields ms with
  | some m => .error m
  | none => shape.build (namedSource ms)

/-- Reads a record from its fields in order. -/
def ofItems {α : Type} (record : String) (shape : Shape α) (items : List Json) :
    Except Mismatch α := do
  let a ← shape.build (positionalSource record shape.names items)
  if shape.names.length < items.length then .error (.tooLong items.length) else return a

/-- Reads a record from an object or from a list of its fields. -/
def record {α : Type} (name : String) (shape : Shape α) : Reader α
  | .obj ms => ofMembers shape ms
  | .arr xs => ofItems name shape xs
  | j => .error (.wrongType j (.record name))

/-- A number of 32 bits, which has to be an integer. -/
def word : Reader UInt32
  | .int n => if 0 ≤ n ∧ n ≤ Numeral.max32 then .ok n.toNat.toUInt32
      else .error (.outOfRange n .word)
  | j => .error (.wrongType j .word)

/-- A string. -/
def string : Reader String
  | .str s => .ok s
  | j => .error (.wrongType j .string)

/-- A truth value. -/
def boolean : Reader Bool
  | .bool b => .ok b
  | j => .error (.wrongType j .boolean)

/-- An object, as its members. -/
def map : Reader Members
  | .obj ms => .ok ms
  | j => .error (.wrongType j .map)

/-- The text of a path. -/
def path : Reader String
  | .str s => .ok s
  | j => .error (.wrongType j .path)

/-- A point in time, written as a string. -/
def instant : Reader Instant
  | .str s => match Instant.ofText s with
    | .ok t => .ok t
    | .error f => .error (.badInstant f)
  | j => .error (.wrongType j .instant)

/-- Any document as it is. -/
def anything : Reader Json := .ok

/-- The items of an array, each read alike. -/
def sequence {α : Type} (read : Reader α) : Reader (List α)
  | .arr xs => xs.mapM read
  | j => .error (.wrongType j .sequence)

/-- A value, or null for none. -/
def nullable {α : Type} (read : Reader α) : Reader (Option α)
  | .null => .ok none
  | j => do return some (← read j)

/-- One of some words, written as a string or as the only key of an object whose value is
null. -/
def choice {α : Type} (words : List (String × α)) : Reader α :=
  let find (w : String) : Except Mismatch α :=
    match words.lookup w with
    | some a => .ok a
    | none => .error (.unknownWord w (words.map (·.1)))
  fun
    | .str w => find w
    | .obj [(w, v)] => do
      let a ← find w
      match v with
      | .null => return a
      | v => .error (.wrongType v .unit)
    | .obj _ => .error .notSingleKey
    | j => .error (.wrongType j .stringOrMap)

end Schema

end PacketClassifier
