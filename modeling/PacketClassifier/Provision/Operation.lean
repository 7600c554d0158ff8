/-
Operations on the control plane's store.

An operation sets or deletes a command at a path. It travels as one line of JSON, and
`Operation.reader` reads what `Operation.toJson` writes.
-/
import PacketClassifier.DscpGroup
import PacketClassifier.Schema.Shape

namespace PacketClassifier

/-- What an operation does at its path. -/
inductive Verb where
  | set
  | delete
  deriving DecidableEq, Repr

/-- The word for a verb in a line. -/
def Verb.name : Verb → String
  | set => "SET"
  | delete => "DELETE"

/-- One change of the store. -/
structure Operation where
  path : String
  command : String
  scope : String
  verb : Verb
  deriving DecidableEq, Repr

namespace Operation

/-- The scope of every operation that is planned. -/
def everything : String := "ALL"

/-- Sets a command at a path. -/
def set (path command : String) : Operation := ⟨path, command, everything, .set⟩

/-- Deletes a command at a path. -/
def delete (path command : String) : Operation := ⟨path, command, everything, .delete⟩

/-- The path of a group. -/
def groupPath (name : String) : String := "resources group dscp-group " ++ name

/-- Creates a group with its values. -/
def create (g : DscpGroup) : Operation :=
  set (groupPath g.name ++ " dscp")
    ("npf-cfg add dscp-group:" ++ g.name ++ " 0 " ++ g.valueList)

/-- Removes a group, whatever its values are. -/
def remove (g : DscpGroup) : Operation :=
  delete (groupPath g.name) ("npf-cfg delete dscp-group:" ++ g.name)

/-- Puts everything that was created and removed into effect. -/
def commit : Operation := set "qos commit" "qos commit"

/-- The fields of an operation. -/
def shape : Schema.Shape Operation :=
  Operation.mk <$> .required "path" Schema.string <*> .required "command" Schema.string
    <*> .required "scope" Schema.string
    <*> .required "verb" (Schema.choice ([Verb.set, Verb.delete].map fun v => (v.name, v)))

/-- Reads an operation from a document. -/
def reader : Schema.Reader Operation := Schema.record "Operation" shape

/-- The document of an operation. -/
def toJson (o : Operation) : Json :=
  .obj [("path", .str o.path), ("command", .str o.command), ("scope", .str o.scope),
    ("verb", .str o.verb.name)]

/-- The operation for a reader. -/
def text (o : Operation) : String :=
  o.verb.name ++ " [" ++ o.scope ++ "] " ++ o.path ++ " => " ++ o.command

end Operation

end PacketClassifier
