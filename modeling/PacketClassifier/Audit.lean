/-
The log of changes.

Every change is one line of JSON at the end of the log. `Audit.recent` reads the last
lines, newest first, and passes over those that are no events. A log that cannot be
written is no failure of the change.
-/
import PacketClassifier.Files
import PacketClassifier.Schema.Text

namespace PacketClassifier

namespace Audit

/-- What kind of change an event is about. -/
inductive Change where
  | commit
  | classifiers
  deriving DecidableEq, Repr

/-- The name of a kind of change in the log. -/
def Change.name : Change → String
  | commit => "commit"
  | classifiers => "gpc_set"

/-- The name of the number that a change comes with. -/
def Change.countName : Change → String
  | commit => "operation_count"
  | classifiers => "group_count"

/-- One event in the log. -/
structure Event where
  time : Instant
  change : Change
  success : Bool
  details : Json
  error : Option String
  deriving Repr

namespace Event

/-- The event of a change that came with a number. -/
def counting (time : Instant) (change : Change) (count : Nat) (error : Option String)
    (success : Bool) : Event :=
  ⟨time, change, success, .obj [(change.countName, .int count)], error⟩

/-- The fields of an event. -/
def shape : Schema.Shape Event :=
  Event.mk <$> .required "timestamp" Schema.instant
    <*> .required "event_type"
      (Schema.choice ([Change.commit, Change.classifiers].map fun c => (c.name, c)))
    <*> .required "success" Schema.boolean <*> .required "details" (fun j => .ok j.normal)
    <*> .optional "error" (Schema.nullable Schema.string)

/-- The name of the record in mismatches. -/
def recordName : String := "AuditEvent"

/-- Reads an event from a document. -/
def reader : Schema.Reader Event := Schema.record recordName shape

/-- Everything about an event but its time. -/
def timeless (e : Event) : Json.Members :=
  [("event_type", .str e.change.name), ("success", .bool e.success), ("details", e.details),
    ("error", match e.error with
      | some words => .str words
      | none => .null)]

/-- The document of an event. -/
def toJson (e : Event) : Json := .obj (("timestamp", .str e.time.text) :: e.timeless)

/-- The event that a line of the log stands for. -/
def ofLine? (line : List Char) : Option Event := Schema.ofText? recordName shape line

/-- The line of an event, with the end of it. -/
def line (e : Event) : Bytes := Utf8.ofString (e.toJson.compact ++ "\n")

end Event

/-- Writes an event at the end of a log, as far as that is possible. -/
def append (files : Files) (path : Path) (e : Event) : Files :=
  match files.makeDirectories path.parent with
  | (.error _, files) => files
  | (.ok (), files) => (files.append path e.line).toOption.getD files

/-- The events in the last lines of a text, newest first. -/
def recentIn (text : List Char) (count : Nat) : List Event :=
  ((Text.lines text).reverse.take count).filterMap Event.ofLine?

/-- The events in the last lines of a log, newest first. -/
def recent (files : Files) (path : Path) (count : Nat) : Except IoFault (List Event) :=
  (files.readText path).map fun text => recentIn text count

end Audit

end PacketClassifier
