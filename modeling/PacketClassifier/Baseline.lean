/-
The document that was put into effect last, kept in a file.

`Baseline.save` writes the indented text of an object and, beside it, its checksum.
`Baseline.load` reads it back and never fails: what cannot be read counts as the empty
object.
-/
import PacketClassifier.Files
import PacketClassifier.Json.Reader
import PacketClassifier.Sha256

namespace PacketClassifier

namespace Baseline

/-- Where the checksum of a document stands. -/
def checksumPath (path : Path) : Path := path.extended ".sha256"

/-- The object that a text stands for; a text of anything else counts as the empty object. -/
def ofText (text : List Char) : Json := ((Json.ofText? text).filter Json.isObject).getD .empty

/-- The document at a path. The checksum is not asked for. -/
def load (files : Files) (path : Path) : Json :=
  match files.readText path with
  | .ok text => ofText text
  | .error _ => .empty

/-- The content of a document's file. -/
def content (doc : Json) : Bytes := Utf8.ofString doc.pretty

/-- Writes a document into its directory, and then its checksum. -/
def write (files : Files) (path : Path) (doc : Json) : Except IoFault Unit × Files :=
  match files.replace path (content doc) with
  | .error fault => (.error fault, files)
  | .ok files =>
    match files.write (checksumPath path) (Utf8.ofString (Sha256.hex (content doc))) with
    | .error fault => (.error fault, files)
    | .ok files => (.ok (), files)

/-- Replaces the document at a path. Only an object can be kept. -/
def save (files : Files) (path : Path) (doc : Json) : Except Error Unit × Files :=
  if doc.isObject then
    match files.makeDirectories path.parent with
    | (.error fault, files) => (.error (.io fault), files)
    | (.ok (), files) =>
      let (result, files) := write files path doc
      (result.mapError Error.io, files)
  else (.error .notAnObject, files)

end Baseline

end PacketClassifier
