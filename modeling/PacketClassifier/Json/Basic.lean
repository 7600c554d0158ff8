/-
JSON documents.

An object keeps its members in the order of the text, and an integer is never the same
value as a floating-point number, not even of equal size. `Json.get?` reads the first
member of a name. `Json.same` is equality of documents: the order of an object's keys does
not count, the order of an array does. `Json.normal` settles repeated keys: the first
position stays, and the last value wins.
-/
import PacketClassifier.Binary64.Basic

namespace PacketClassifier

/-- A document. -/
inductive Json where
  | null
  | bool (b : Bool)
  | int (n : Int)
  | real (x : Binary64)
  | str (s : String)
  | arr (items : List Json)
  | obj (members : List (String × Json))
  deriving Repr, Inhabited

namespace Json

/-- The members of an object, each a key with its value. -/
abbrev Members := List (String × Json)

/-- The empty object. -/
def empty : Json := .obj []

/-- The value of the first member of a name. -/
def Members.get? (ms : Members) (key : String) : Option Json := ms.lookup key

/-- The members in ascending order of their keys, by code point. -/
def Members.sorted (ms : Members) : Members := ms.mergeSort fun a b => decide (a.1 ≤ b.1)

/-- Sets the value of a key: a new key goes to the end, a known one keeps its place. -/
def Members.insert (key : String) (value : Json) : Members → Members
  | [] => [(key, value)]
  | m :: ms => if m.1 = key then (key, value) :: ms else m :: Members.insert key value ms

/-- The members of an object; any other document has none to give. -/
def members? : Json → Option Members
  | .obj ms => some ms
  | _ => none

/-- The items of an array. -/
def items? : Json → Option (List Json)
  | .arr xs => some xs
  | _ => none

/-- The text of a string; any other document has none. -/
def string? : Json → Option String
  | .str s => some s
  | _ => none

/-- A member of an object, by name; documents other than objects have no members. -/
def get? (j : Json) (key : String) : Option Json := j.members?.bind (·.get? key)

/-- Whether the document is an object. -/
def isObject (j : Json) : Bool := j.members?.isSome

/-- Whether the document carries no members: an empty object, or no object at all. -/
def isEmptyDocument : Json → Bool
  | .obj (_ :: _) => false
  | _ => true

mutual

/-- Equality of documents, up to the order of object keys. -/
def same : Json → Json → Bool
  | .null, .null => true
  | .bool a, .bool b => a == b
  | .int a, .int b => a == b
  | .real a, .real b => a.same b
  | .str a, .str b => a == b
  | .arr as, .arr bs => sameItems as bs
  | .obj as, .obj bs => as.length == bs.length && sameMembers as bs
  | _, _ => false
  termination_by structural j => j

/-- Equality of arrays, place by place. -/
def sameItems : List Json → List Json → Bool
  | [], [] => true
  | a :: as, b :: bs => same a b && sameItems as bs
  | _, _ => false
  termination_by structural as => as

/-- Whether every member on the left has an equal one of its name on the right. -/
def sameMembers : Members → Members → Bool
  | [], _ => true
  | (k, a) :: as, bs =>
    (match Members.get? bs k with
      | some b => same a b
      | none => false) && sameMembers as bs
  termination_by structural as => as

end

mutual

/-- Settles repeated keys at every depth. -/
def normal : Json → Json
  | .arr xs => .arr (normalItems xs)
  | .obj ms => .obj (normalMembers [] ms)
  | j => j
  termination_by structural j => j

/-- Settles repeated keys in every item. -/
def normalItems : List Json → List Json
  | [] => []
  | x :: xs => normal x :: normalItems xs
  termination_by structural xs => xs

/-- Adds the members one after another to those already settled. -/
def normalMembers (done : Members) : Members → Members
  | [] => done
  | (k, v) :: ms => normalMembers (done.insert k (normal v)) ms
  termination_by structural ms => ms

end

end Json

end PacketClassifier
