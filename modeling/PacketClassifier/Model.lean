/-
The compiled model of a packet-classifier document.

A document holds a list of groups and a list of classifiers, both optional. `Model.build`
reads and compiles the one list and then the other; an entry of a name that came before
replaces it in its place. The model also notes which of its names stood in an earlier
document.
-/
import PacketClassifier.Assoc
import PacketClassifier.Config.Classifier

namespace PacketClassifier

/-- The key under which all resources stand. -/
def resourcesKey : String := "vyatta-resources-v1:resources"

/-- The key of the packet classifiers among the resources. -/
def classifiersKey : String := "vyatta-resources-packet-classifier-v1:packet-classifier"

/-- The compiled groups and classifiers of a document, by name. -/
structure Model where
  /-- The groups, in order of first occurrence. -/
  groups : List (String × Classifier)
  /-- The classifiers, in order of first occurrence. -/
  classifiers : List (String × Classifier)
  /-- The names that an earlier document had too. -/
  modified : List String
  deriving DecidableEq, Repr

namespace Model

/-- The part of a document that holds packet classifiers. -/
def container? (doc : Json) : Option Json :=
  (doc.get? resourcesKey).bind (·.get? classifiersKey)

/-- The list of groups or of classifiers in a document. -/
def list? (kind : ClassifierKind) (doc : Json) : Option Json :=
  (container? doc).bind (·.get? kind.name)

/-- The names of a kind that a document gives as strings, whatever else is wrong with it. -/
def namesOf (kind : ClassifierKind) (doc : Json) : List String :=
  match list? kind doc with
  | some (.arr items) => items.filterMap fun item =>
      (item.get? kind.nameField).bind Json.string?
  | _ => []

/-- The names in a document, those of groups first. -/
def namesIn (doc : Option Json) : List String :=
  match doc with
  | some doc => namesOf .group doc ++ namesOf .classifier doc
  | none => []

/-- The configured entries of a kind; a document without the list has none. -/
def entries (kind : ClassifierKind) (doc : Json) : Except Error (List ClassifierConfig) :=
  match list? kind doc with
  | some list => Schema.read (Schema.sequence (ClassifierConfig.reader kind)) list
  | none => .ok []

/-- Compiles entries one after another into a table by name. -/
def compileInto (kind : ClassifierKind) (table : List (String × Classifier)) :
    List ClassifierConfig → Except Error (List (String × Classifier))
  | [] => .ok table
  | c :: cs => do
    let compiled ← Classifier.compile kind c
    compileInto kind (Assoc.insert compiled.name compiled table) cs

/-- The compiled entries of a kind. -/
def table (kind : ClassifierKind) (doc : Json) :
    Except Error (List (String × Classifier)) := do
  compileInto kind [] (← entries kind doc)

/-- Compiles a document. The earlier one only tells which names are modified. -/
def build (new : Json) (old : Option Json) : Except Error Model := do
  let groups ← table .group new
  let classifiers ← table .classifier new
  let previous := namesIn old
  return ⟨groups, classifiers,
    (Assoc.keys groups ++ Assoc.keys classifiers).filter fun name => previous.contains name⟩

/-- A group of the name, else a classifier of the name. -/
def get? (m : Model) (name : String) : Option Classifier :=
  (m.groups.lookup name).or (m.classifiers.lookup name)

/-- All groups, then all classifiers. -/
def toList (m : Model) : List Classifier := (m.groups ++ m.classifiers).map (·.2)

/-- How many groups and classifiers there are. -/
def size (m : Model) : Nat := m.groups.length + m.classifiers.length

end Model

end PacketClassifier
