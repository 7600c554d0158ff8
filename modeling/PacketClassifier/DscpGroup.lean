/-
Named groups of code points.

A group is configured by an object with a name and a list of values; `DscpGroup.ofJson`
reads one. Values that mean nothing are left out, and the rest of the group stays. Two
groups are the same exactly when their objects are. `DscpGroup.inDocument` collects the
groups of a document, and passes over what is no group.
-/
import PacketClassifier.Assoc
import PacketClassifier.CodePoint
import PacketClassifier.Error
import PacketClassifier.Model

namespace PacketClassifier

/-- A named group of code points. -/
structure DscpGroup where
  name : String
  source : Json
  /-- The values in configured order. -/
  values : List UInt32
  deriving Repr

namespace DscpGroup

/-- The key of the groups of every kind among the resources. -/
def kindsKey : String := "vyatta-resources-group-misc-v1:group"

/-- The key of the list of groups among the kinds. -/
def listKey : String := "vyatta-resources-dscp-group-v1:dscp-group"

/-- The text of an entry in a list of values: a string as it is, anything else as JSON. -/
def entryText : Json → String
  | .str s => s
  | j => j.compact

/-- The value of an entry, if it has one. -/
def entryValue? (entry : Json) : Option UInt32 := Dscp.value? (entryText entry)

/-- The entries of a group of the given name; a group without a list has none. -/
def entries (name : String) (source : Json) : Except Error (List Json) :=
  match source.get? "dscp" with
  | none => .ok []
  | some (.arr items) => .ok items
  | some _ => .error (.config ("dscp-group " ++ name) .notList)

/-- Reads a group from the object that configures it. -/
def ofJson (source : Json) : Except Error DscpGroup :=
  match (source.get? "group-name").bind Json.string? with
  | none => .error (.config "dscp-group" .noGroupName)
  | some name => do return ⟨name, source, (← entries name source).filterMap entryValue?⟩

/-- Whether two groups are configured by the same object. -/
def same (a b : DscpGroup) : Bool := a.source.same b.source

/-- The values in ascending order. -/
def ascending (g : DscpGroup) : List UInt32 := g.values.mergeSort fun a b => decide (a ≤ b)

/-- The values in ascending order, with semicolons between them. -/
def valueList (g : DscpGroup) : String :=
  String.ofList (Text.join [';'] (g.ascending.map fun v => Numeral.decimal v.toNat))

/-- Groups by name, in order of first occurrence. -/
abbrev Table := List (String × DscpGroup)

/-- Adds a group, in place of an earlier one of its name. -/
def Table.add (table : Table) (g : DscpGroup) : Table := Assoc.insert g.name g table

/-- The groups that the items of a list configure. An item that is no group is passed over. -/
def ofItems (items : List Json) : Table :=
  (items.filterMap fun item => (ofJson item).toOption).foldl Table.add []

/-- The list of groups in a document; a document without the list has none. -/
def items (doc : Json) : List Json :=
  ((((doc.get? resourcesKey).bind (·.get? kindsKey)).bind (·.get? listKey)).bind
    Json.items?).getD []

/-- The groups of a document, by name. -/
def inDocument (doc : Json) : Table := ofItems (items doc)

end DscpGroup

end PacketClassifier
