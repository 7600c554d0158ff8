/-
The service that puts group documents into effect.

`GroupService.commit` plans the way from the last document to a new one, delivers the
operations, and only then keeps the new document. The last document is read once and
remembered.
-/
import PacketClassifier.Baseline
import PacketClassifier.Provision.Delivery

namespace PacketClassifier

/-- A service that puts group documents into effect. -/
structure GroupService where
  path : Path
  /-- The last document, once it has been read or put into effect. -/
  applied : Option Json
  deriving Repr

namespace GroupService

/-- A service that has read nothing yet. -/
def ofPath (path : Path) : GroupService := ⟨path, none⟩

/-- The document that counts as the last one: what is remembered, or else what the file
keeps. -/
def previous (s : GroupService) (files : Files) : Json :=
  s.applied.getD (Baseline.load files s.path)

/-- Remembers the document that counts as the last one. -/
def remember (s : GroupService) (files : Files) : GroupService :=
  { s with applied := some (s.previous files) }

/-- The way to a new document. -/
def plan (s : GroupService) (files : Files) (new : Json) : Plan :=
  Plan.ofDocuments (s.previous files) new

/-- Keeps a document that has been delivered. -/
def keep (s : GroupService) (files : Files) (new : Json) :
    Except Error Unit × GroupService × Files :=
  match Baseline.save files s.path new with
  | (.ok (), files) => (.ok (), { s with applied := some new }, files)
  | (.error e, files) => (.error e, s, files)

/-- Puts a document into effect, and gives the number of operations it took. -/
def commit {m : Type → Type} [Monad m] (store : Store m) (s : GroupService) (files : Files)
    (new : Json) :
    m (Except Error Nat × GroupService × Files) := do
  let s := s.remember files
  match ← (s.plan files new).deliver store with
  | .error fault => pure (.error (.store fault), s, files)
  | .ok count =>
    let (result, s, files) := s.keep files new
    pure (result.map fun _ => count, s, files)

/-- The document that the file keeps. -/
def document (s : GroupService) (files : Files) : Json := Baseline.load files s.path

/-- The state of operation; groups have none. -/
def state (_ : GroupService) : Json := .empty

/-- Whether a document may be put into effect; every document may. -/
def accepts (_ : GroupService) (_ : Json) : Bool := true

end GroupService

end PacketClassifier
