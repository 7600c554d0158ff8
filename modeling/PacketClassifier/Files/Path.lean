/-
Paths as they are written.

A path keeps every piece between its slashes, also empty ones and dots: where it leads is
up to the file system. `Path.names` is what counts when two paths are compared, and
`Path.parent` goes by it as well.
-/
import PacketClassifier.Text.Blank

namespace PacketClassifier

/-- A path. An empty piece and a dot stay in place, and two dots lead up. -/
structure Path where
  rooted : Bool
  pieces : List String
  deriving DecidableEq, Repr, Inhabited

namespace Path

/-- The path that a text stands for. -/
def ofText (text : String) : Path :=
  match (Text.splitOn '/' text.toList).map String.ofList with
  | "" :: piece :: pieces => ⟨true, piece :: pieces⟩
  | pieces => ⟨false, pieces⟩

/-- The text of a path. -/
def text (path : Path) : String :=
  (if path.rooted then "/" else "") ++ String.intercalate "/" path.pieces

/-- Whether a piece of a path leads nowhere else. -/
def staysInPlace (piece : String) : Bool := piece == "" || piece == "."

/-- The pieces that do not stay in place. A dot at the beginning of a path that does not
start at the root counts as a name. -/
def names (path : Path) : List String :=
  (if !path.rooted && path.pieces.head? == some "." then ["."] else [])
    ++ path.pieces.filter fun piece => !staysInPlace piece

/-- Whether two paths are the same but for slashes and dots that change nothing. -/
def sameAs (path other : Path) : Bool :=
  path.rooted == other.rooted && path.names == other.names

/-- The path without its last name. -/
def parent (path : Path) : Path := ⟨path.rooted, path.names.dropLast⟩

/-- The path with something written behind it. -/
def extended (path : Path) (suffix : String) : Path :=
  { path with pieces := path.pieces.dropLast ++ [path.pieces.getLast?.getD "" ++ suffix] }

/-- The path without the slashes at its end. -/
def trimmed (path : Path) : Path :=
  { path with pieces := (path.pieces.reverse.dropWhile (· == "")).reverse }

/-- Whether a path ends with a slash. -/
def endsInSlash (path : Path) : Bool := path.pieces.getLast? == some ""

/-- Whether a path, without the slashes at its end, does not end in a name. -/
def endsInDots (path : Path) : Bool :=
  match path.trimmed.pieces.getLast? with
  | some piece => piece == "." || piece == ".."
  | none => true

/-- A path that does not end with a slash has none to take away. -/
theorem trimmed_of_not_endsInSlash {path : Path} (h : path.endsInSlash = false) :
    path.trimmed = path := by
  obtain ⟨rooted, pieces⟩ := path
  obtain ⟨backwards, rfl⟩ : ∃ backwards, pieces = backwards.reverse :=
    ⟨pieces.reverse, by simp⟩
  cases backwards with
  | nil => rfl
  | cons piece rest =>
    have hne : (piece == "") = false := by simpa [endsInSlash] using h
    simp [trimmed, hne]

end Path

end PacketClassifier
