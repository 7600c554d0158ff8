/-
Configured rules.

A rule may carry a mark that disables it; only the mark's presence counts, not its value.
`RuleConfig.shape` and `RuleConfig.toJson` are the two directions between rules and
documents, and `RuleConfig.compileInto` adds the compiled rule to a ruleset, or nothing at
all when the match has a fault.
-/
import PacketClassifier.Error
import PacketClassifier.Match.Reader
import PacketClassifier.Schema.Shape

namespace PacketClassifier

/-- A rule as a document gives it. -/
structure RuleConfig where
  number : UInt32
  /-- What a packet that matches is given. -/
  result : String
  /-- Whether the rule is left out. -/
  disabled : Bool
  /-- What a packet must match, if there is anything. -/
  spec : Option Json.Members
  deriving Repr

/-- A number of 32 bits as a document. -/
def Json.ofWord (w : UInt32) : Json := .int w.toNat

namespace RuleConfig

/-- The fields of a rule. -/
def shape : Schema.Shape RuleConfig :=
  RuleConfig.mk <$> .required "number" Schema.word <*> .default "result" Schema.string ""
    <*> .default "disable" (fun _ => .ok true) false
    <*> .default "match" (Schema.nullable Schema.map) none

/-- Reads a rule from a document. -/
def reader : Schema.Reader RuleConfig := Schema.record "RuleConfig" shape

/-- The document of a rule. -/
def toJson (r : RuleConfig) : Json :=
  .obj ([("number", .ofWord r.number), ("result", .str r.result)]
    ++ (if r.disabled then [("disable", .bool true)] else [])
    ++ (match r.spec with
      | some ms => [("match", .obj ms)]
      | none => []))

/-- The compiled rule. Faults are told by the rule's number. -/
def compile (r : RuleConfig) : Except Error Rule :=
  match Match.entries (r.spec.getD []) with
  | .ok entries => .ok ⟨r.number, r.result, entries⟩
  | .error fault => .error (.config ("rule " ++ Numeral.text r.number.toNat) fault)

/-- Adds the compiled rule to a ruleset, whether or not it is disabled. -/
def compileInto (r : RuleConfig) (s : Ruleset) : Except Error Ruleset := do
  return s.push (← r.compile)

end RuleConfig

end PacketClassifier
