/-
Configured groups and classifiers, and what they compile to.

The two differ only in the names of their fields. Each has a name, the traffic it is for
and a list of rules, and compiles to one ruleset with the enabled rules in their
configured order.
-/
import PacketClassifier.Config.Rule
import PacketClassifier.Ruleset.Text

namespace PacketClassifier

/-- The two lists that rules are configured in. -/
inductive ClassifierKind where
  | group
  | classifier
  deriving DecidableEq, Repr

namespace ClassifierKind

/-- The key of the list in a document, which is also the word for the kind. -/
def name : ClassifierKind → String
  | group => "group"
  | classifier => "classifier"

/-- The field that holds the name. -/
def nameField : ClassifierKind → String
  | group => "group-name"
  | classifier => "classifier-name"

/-- The field that holds the traffic. -/
def trafficField : ClassifierKind → String
  | group => "ip-version"
  | classifier => "type"

/-- The name of the record in mismatches. -/
def recordName : ClassifierKind → String
  | group => "GroupConfig"
  | classifier => "ClassifierConfig"

end ClassifierKind

/-- A group or classifier as a document gives it. -/
structure ClassifierConfig where
  name : String
  traffic : Option String
  /-- The results that rules may have, kept as they stand. -/
  results : Option Json
  rules : List RuleConfig
  deriving Repr

namespace ClassifierConfig

/-- The fields of a group or classifier. -/
def shape (kind : ClassifierKind) : Schema.Shape ClassifierConfig :=
  ClassifierConfig.mk <$> .required kind.nameField Schema.string
    <*> .default kind.trafficField (Schema.nullable Schema.string) none
    <*> .default "results" (Schema.nullable Schema.anything) none
    <*> .default "rule" (Schema.sequence RuleConfig.reader) []

/-- Reads a group or classifier from a document. -/
def reader (kind : ClassifierKind) : Schema.Reader ClassifierConfig :=
  Schema.record kind.recordName (shape kind)

/-- The document of a group or classifier. -/
def toJson (kind : ClassifierKind) (c : ClassifierConfig) : Json :=
  .obj ([(kind.nameField, .str c.name)]
    ++ (match c.traffic with
      | some t => [(kind.trafficField, .str t)]
      | none => [])
    ++ (match c.results with
      | some r => [("results", r)]
      | none => [])
    ++ [("rule", .arr (c.rules.map RuleConfig.toJson))])

end ClassifierConfig

/-- A compiled group or classifier. -/
structure Classifier where
  kind : ClassifierKind
  name : String
  ruleset : Ruleset
  deriving DecidableEq, Repr

namespace Classifier

/-- Adds the enabled rules to a ruleset in order. The first fault ends it. -/
def addRules (s : Ruleset) : List RuleConfig → Except Error Ruleset
  | [] => .ok s
  | r :: rs => if r.disabled then addRules s rs else do addRules (← r.compileInto s) rs

/-- Compiles a group or classifier, all of its enabled rules or nothing. -/
def compile (kind : ClassifierKind) (c : ClassifierConfig) : Except Error Classifier := do
  return ⟨kind, c.name, ← addRules (.empty (.ofSetting c.traffic)) c.rules⟩

/-- The binary form of the ruleset. -/
def encode (c : Classifier) : Bytes := Wire.encode c.ruleset

end Classifier

end PacketClassifier
