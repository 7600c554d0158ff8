/-
The service that holds the packet classifiers.

It remembers the current document and the model compiled from it. A document that does not
compile becomes the current one all the same, while the model before it stays in use and
nothing is written. When somebody else has written the file, a look-up compiles it first;
the stamp of the file tells.
-/
import PacketClassifier.Baseline
import PacketClassifier.Model

namespace PacketClassifier

/-- A service that holds packet classifiers. -/
structure ModelService where
  path : Path
  current : Option Json
  /-- The model in use, if anything was compiled. -/
  compiled : Option Model
  loaded : Option Nat
  deriving Repr

namespace ModelService

/-- A service that has read nothing yet. -/
def ofPath (path : Path) : ModelService := ⟨path, none, none, none⟩

/-- The document that the service shows, unless there is nothing in it. -/
def current? (s : ModelService) : Option Json :=
  s.current.filter fun doc => !doc.isEmptyDocument

/-- The document that the service shows, or else the one that the file keeps. -/
def document (s : ModelService) (files : Files) : Json :=
  s.current?.getD (Baseline.load files s.path)

/-- Reads and compiles the file. A file that does not compile leaves the model as it is. -/
def reload (s : ModelService) (files : Files) (previous : Option Json) : ModelService :=
  let doc := Baseline.load files s.path
  { s with
    current := some doc
    compiled := (Model.build doc previous).toOption.or s.compiled
    loaded := files.stamp? s.path }

/-- A service that has read and compiled its file. -/
def start (files : Files) (path : Path) : ModelService := (ofPath path).reload files none

/-- Whether somebody else has written the file. -/
def isStale (s : ModelService) (files : Files) : Bool :=
  let stamp := files.stamp? s.path
  stamp.isSome && stamp != s.loaded

/-- Reads the file again if somebody else has written it. -/
def refresh (s : ModelService) (files : Files) : ModelService :=
  if s.isStale files then s.reload files s.current else s

/-- Compiles a document and keeps it. -/
def buildAndSave (s : ModelService) (files : Files) (new : Json) :
    Except Error Model × Files :=
  match Model.build new (some (s.document files)) with
  | .error e => (.error e, files)
  | .ok model =>
    let (result, files) := Baseline.save files s.path new
    (result.map fun _ => model, files)

/-- Takes over a new document. -/
def set (s : ModelService) (files : Files) (new : Json) :
    Except Error Unit × ModelService × Files :=
  match s.buildAndSave files new with
  | (.ok model, files) =>
    (.ok (), { s with
      current := some new, compiled := some model, loaded := files.stamp? s.path }, files)
  | (.error e, files) => (.error e, { s with current := some new }, files)

/-- Shows the document, and goes on showing it. -/
def get (s : ModelService) (files : Files) : Json × ModelService :=
  (s.document files, { s with current := some (s.document files) })

/-- Whether a document may be taken over; every document may be proposed. -/
def accepts (_ : ModelService) (_ : Json) : Bool := true

/-- The binary ruleset of a group or classifier. -/
def lookup (s : ModelService) (files : Files) (name : String) : Option Bytes × ModelService :=
  let s := s.refresh files
  ((s.compiled.bind (·.get? name)).map Classifier.encode, s)

end ModelService

end PacketClassifier
