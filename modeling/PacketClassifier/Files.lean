/-
A file system.

Every write gives the file a stamp that was never given before; equal stamps of a path
mean that nobody wrote in between. An operation that fails changes nothing, but
`Files.makeDirectories` leaves the directories that it could make. `Files.read_replace`
says that what was put in place of a file is read.
-/
import PacketClassifier.Files.Node
import PacketClassifier.Text.Utf8

namespace PacketClassifier

/-- A file system: what stands in it, where the program works, and the stamps that are
left. -/
structure Files where
  root : Node
  /-- Where the paths start that do not start at the root. -/
  working : Location
  /-- A stamp that was not given yet. -/
  clock : Nat
  deriving Repr, Inhabited

namespace Files

/-- A root directory with nothing in it. -/
def empty : Files := ⟨.directory 0 [], [], 1⟩

/-- A path has to be shorter than this number of bytes. -/
def pathLimit : Nat := 4096

/-- The path of a socket has to be shorter than this number of bytes. -/
def addressLimit : Nat := 108

/-- Why a path is refused before anybody looks where it leads. -/
def refusal? (path : Path) : Option IoFault :=
  if path.text.contains '\x00' then some .zeroInPath
  else if path.text = "" then some .notFound
  else if path.text.utf8ByteSize < pathLimit then none
  else some .nameTooLong

/-- The location that pieces lead to from where the path starts. -/
def locateFrom (files : Files) (path : Path) (pieces : List String) :
    Except IoFault Location :=
  match refusal? path with
  | some fault => .error fault
  | none => files.root.walk (if path.rooted then [] else files.working) pieces

/-- The location that a path leads to. -/
def locate (files : Files) (path : Path) : Except IoFault Location :=
  files.locateFrom path path.pieces

/-- The location of the entry that a path stands for; slashes at the end are passed over. -/
def locateEntry (files : Files) (path : Path) : Except IoFault Location :=
  files.locateFrom path path.trimmed.pieces

/-- What stands at a path. -/
def node (files : Files) (path : Path) : Except IoFault Node :=
  match files.locate path with
  | .ok location => files.root.find location
  | .error fault => .error fault

/-- The stamp of what stands at a path, if anything does. -/
def stamp? (files : Files) (path : Path) : Option Nat :=
  (files.node path).toOption.map Node.stamp

/-- Whether a directory stands at a path. -/
def isDirectory (files : Files) (path : Path) : Bool :=
  (files.node path).toOption.any Node.isDirectory

/-- The content of a file. Neither a directory nor a socket has one. -/
def read (files : Files) (path : Path) : Except IoFault Bytes :=
  match files.node path with
  | .ok (.file content _) => .ok content
  | .ok (.socket _) => .error .noDevice
  | .ok (.directory _ _) => .error .isDirectory
  | .error fault => .error fault

/-- The content of a file, as a text. -/
def readText (files : Files) (path : Path) : Except IoFault (List Char) :=
  match files.read path with
  | .ok content =>
    match Utf8.decode? content with
    | some text => .ok text
    | none => .error .notText
  | .error fault => .error fault

/-- A file of the given content in place of what is there. -/
def fileOver (content : Bytes) (stamp : Nat) : Option Node → Except IoFault Node
  | some (.directory _ _) => .error .isDirectory
  | _ => .ok (.file content stamp)

/-- A file of the given content in place of a file or of nothing. -/
def fileInto (content : Bytes) (stamp : Nat) : Option Node → Except IoFault Node
  | some (.directory _ _) => .error .isDirectory
  | some (.socket _) => .error .noDevice
  | _ => .ok (.file content stamp)

/-- Writes a file with the given stamp. -/
def writeStamped (files : Files) (path : Path) (content : Bytes) (stamp : Nat) :
    Except IoFault Files :=
  match files.locateEntry path with
  | .error fault => .error fault
  | .ok location =>
    if path.endsInSlash then .error .isDirectory
    else (files.root.edit (fileInto content stamp) location).map fun root =>
      { files with root, clock := max files.clock (stamp + 1) }

/-- Writes a file whose directory exists. -/
def write (files : Files) (path : Path) (content : Bytes) : Except IoFault Files :=
  files.writeStamped path content files.clock

/-- Puts a new file in place of the one at a path, as a whole. A zero byte in the path
counts as an invalid argument here. -/
def replace (files : Files) (path : Path) (content : Bytes) : Except IoFault Files :=
  match files.locateEntry path with
  | .error fault => .error (if fault = .zeroInPath then .invalidArgument else fault)
  | .ok location =>
    if path.endsInDots then .error .busy
    else if path.endsInSlash then .error .notDirectory
    else (files.root.edit (fileOver content files.clock) location).map fun root =>
      { files with root, clock := files.clock + 1 }

/-- What an edit at the entry of a path made is read. -/
theorem read_edit {files : Files} {path : Path} {location : Location} {root : Node}
    {content : Bytes} {clock : Nat} {change : Option Node → Except IoFault Node} (stamp : Nat)
    (hl : files.locateEntry path = .ok location) (hs : path.endsInSlash = false)
    (he : files.root.edit change location = .ok root)
    (hn : ∀ old m, change old = .ok m → m = .file content stamp)
    (hd : ∀ n m, change (some n) = .ok m → n.isDirectory = false) :
    ({ files with root, clock } : Files).read path = .ok content := by
  rw [locateEntry, Path.trimmed_of_not_endsInSlash hs, locateFrom] at hl
  cases hr : refusal? path with
  | some fault => simp [hr] at hl
  | none =>
    simp only [hr] at hl
    simp [read, node, locate, locateFrom, hr, Node.walk_edit he hd hl, Node.find_edit he hn]

/-- What was put in place of a file is read. -/
theorem read_replace {files written : Files} {path : Path} {content : Bytes}
    (h : files.replace path content = .ok written) : written.read path = .ok content := by
  simp only [replace] at h
  split at h
  · simp at h
  · rename_i location hl
    split at h
    · simp at h
    · split at h
      · simp at h
      · rename_i hs
        cases he : files.root.edit (fileOver content files.clock) location with
        | error e => simp [he, Except.map] at h
        | ok root =>
          simp only [he, Except.map, Except.ok.injEq] at h
          subst h
          refine read_edit files.clock hl (by simpa using hs) he (fun old m hm => ?_)
            (fun n m hm => ?_)
          · unfold fileOver at hm
            split at hm <;> simp_all
          · cases n <;> simp_all [fileOver, Node.isDirectory]

/-- Writes behind the content of a file whose directory exists; a file that is not there
is empty. -/
def append (files : Files) (path : Path) (content : Bytes) : Except IoFault Files :=
  files.write path ((files.read path).toOption.getD [] ++ content)

/-- A new node where there is nothing. -/
def newOnly (new : Node) : Option Node → Except IoFault Node
  | some _ => .error .alreadyExists
  | none => .ok new

/-- Puts a new node where there is nothing. -/
def make (files : Files) (path : Path) (new : Node) : Except IoFault Files :=
  match files.locateEntry path with
  | .error fault => .error fault
  | .ok location => (files.root.edit (newOnly new) location).map fun root =>
      { files with root, clock := files.clock + 1 }

/-- Makes a directory unless there is one. -/
def makeDirectory (files : Files) (path : Path) : Except IoFault Unit × Files :=
  match files.make path (.directory files.clock []) with
  | .ok files => (.ok (), files)
  | .error fault =>
    (if fault = .alreadyExists ∧ files.isDirectory path then .ok () else .error fault, files)

/-- Makes a directory, given its names from the last one to the first, and those that it
stands in where they are missing. -/
def makeDirectoriesOf (rooted : Bool) : List String → Files → Except IoFault Unit × Files
  | [], files => (.ok (), files)
  | name :: outer, files =>
    let path : Path := ⟨rooted, (name :: outer).reverse⟩
    match files.makeDirectory path with
    | (.error .notFound, files) =>
      match makeDirectoriesOf rooted outer files with
      | (.ok (), files) => files.makeDirectory path
      | (.error fault, files) => (.error fault, files)
    | (result, files) => (result, files)

/-- Makes a directory and those that it stands in where they are missing. -/
def makeDirectories (files : Files) (path : Path) : Except IoFault Unit × Files :=
  makeDirectoriesOf path.rooted path.names.reverse files

/-- Removes a file or a socket. -/
def remove (files : Files) (path : Path) : Except IoFault Files :=
  match files.locate path with
  | .error fault => .error fault
  | .ok location => (files.root.erase location).map fun root => { files with root }

/-- What becomes of a connection to the socket at a path. -/
def connect (files : Files) (path : Path) : Except IoFault Unit :=
  if path.text.contains '\x00' then .error .zeroInAddress
  else if addressLimit ≤ path.text.utf8ByteSize then .error .addressTooLong
  else if path.text = "" then .error .invalidArgument
  else match files.node path with
    | .ok (.socket _) => .ok ()
    | .ok _ => .error .refused
    | .error fault => .error fault

end Files

end PacketClassifier
