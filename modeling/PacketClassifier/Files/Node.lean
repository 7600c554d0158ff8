/-
The tree of files and directories.

A node is a file, a socket or a directory of named nodes, so whatever exists stands in a
directory. A `Location` says where a node is, and `Node.walk` finds the location that the
pieces of a path lead to: all that they go through has to be there and to be a directory.

* `Node.find_edit`: what an edit made stands where it was made;
* `Node.walk_edit`: an edit that replaces no directory leaves every path leading where it led.
-/
import PacketClassifier.Assoc
import PacketClassifier.Error
import PacketClassifier.Files.Path

namespace PacketClassifier

/-- The names of the nodes from the root to a node. -/
abbrev Location := List String

/-- The location that a piece of a path leads to. -/
def Location.step (here : Location) (piece : String) : Location :=
  if Path.staysInPlace piece then here else if piece = ".." then here.dropLast
  else here ++ [piece]

/-- What a file system consists of. -/
inductive Node where
  /-- A file, with the stamp of its last write. -/
  | file (content : Bytes) (stamp : Nat)
  /-- A socket that somebody listens at, with the stamp of its creation. -/
  | socket (stamp : Nat)
  /-- A directory, with the stamp of its creation. -/
  | directory (stamp : Nat) (entries : List (String × Node))
  deriving Repr, Inhabited

namespace Node

/-- The stamp of the last write or of the creation. -/
def stamp : Node → Nat
  | file _ stamp => stamp
  | socket stamp => stamp
  | directory stamp _ => stamp

/-- Whether it is a directory. -/
def isDirectory : Node → Bool
  | directory _ _ => true
  | _ => false

/-- What stands at a location. -/
def find : Location → Node → Except IoFault Node
  | [], n => .ok n
  | name :: location, directory _ es =>
    match es.lookup name with
    | some n => find location n
    | none => .error .notFound
  | _ :: _, _ => .error .notDirectory

/-- Gives the entry at a location another content, given the present one. -/
def edit (change : Option Node → Except IoFault Node) : Location → Node → Except IoFault Node
  | [], n => change (some n)
  | name :: location, directory stamp es =>
    let placed (child : Node) : Node := directory stamp (Assoc.insert name child es)
    match es.lookup name with
    | some n => (edit change location n).map placed
    | none => if location.isEmpty then (change none).map placed else .error .notFound
  | _ :: _, _ => .error .notDirectory

/-- Takes the entry at a location away. -/
def erase : Location → Node → Except IoFault Node
  | [], _ => .error .isDirectory
  | name :: location, directory stamp es =>
    match es.lookup name with
    | none => .error .notFound
    | some n =>
      match location, n with
      | [], directory _ _ => .error .isDirectory
      | [], _ => .ok (directory stamp (es.filter fun e => e.1 != name))
      | next :: location, n => (erase (next :: location) n).map fun child =>
          directory stamp (Assoc.insert name child es)
  | _ :: _, _ => .error .notDirectory

/-- The number of bytes that a name has at most. -/
def longestName : Nat := 255

/-- The location that the pieces of a path lead to from a location. What stands there is
not looked at, but all that they go through has to be a directory. -/
def walk (root : Node) : Location → List String → Except IoFault Location
  | here, [] => .ok here
  | here, piece :: pieces =>
    match root.find here with
    | .ok (directory _ _) =>
      if piece.utf8ByteSize ≤ longestName then walk root (here.step piece) pieces
      else .error .nameTooLong
    | .ok _ => .error .notDirectory
    | .error fault => .error fault

/-- After an edit that can only make one thing, that thing stands at the location. -/
theorem find_edit {change : Option Node → Except IoFault Node} {location : Location}
    {root edited n : Node} (h : root.edit change location = .ok edited)
    (hn : ∀ old m, change old = .ok m → m = n) :
    edited.find location = .ok n := by
  induction location generalizing root edited with
  | nil =>
    simp only [edit] at h
    simp [find, hn _ _ h]
  | cons name location ih =>
    match root with
    | file _ _ | socket _ => simp [edit] at h
    | directory stamp es =>
      simp only [edit] at h
      split at h
      · rename_i child hc
        cases he : child.edit change location with
        | error e => simp [he, Except.map] at h
        | ok c =>
          simp only [he, Except.map, Except.ok.injEq] at h
          subst h
          simp [find, ih he]
      · split at h
        · rename_i hp
          obtain rfl : location = [] := by simpa using hp
          cases he : change none with
          | error e => simp [he, Except.map] at h
          | ok c =>
            simp only [he, Except.map, Except.ok.injEq] at h
            subst h
            simp [find, hn _ _ he]
        · simp at h

/-- An edit that replaces no directory leaves every directory a directory. -/
theorem find_directory_edit {change : Option Node → Except IoFault Node}
    {location place : Location} {root edited : Node}
    (h : root.edit change location = .ok edited)
    (hd : ∀ n m, change (some n) = .ok m → n.isDirectory = false)
    (hf : ∃ stamp es, root.find place = .ok (directory stamp es)) :
    ∃ stamp es, edited.find place = .ok (directory stamp es) := by
  obtain ⟨ds, des, hf⟩ := hf
  induction location generalizing root edited place with
  | nil =>
    have hroot := hd _ _ h
    match root, place with
    | file _ _, [] | socket _, [] => simp [find] at hf
    | file _ _, _ :: _ | socket _, _ :: _ => simp [find] at hf
    | directory _ _, _ => simp [isDirectory] at hroot
  | cons name location ih =>
    match root with
    | file _ _ | socket _ => simp [edit] at h
    | directory stamp es =>
      have step : ∀ child, edited = directory stamp (Assoc.insert name child es) →
          (∀ n rest, es.lookup name = some n → n.find rest = .ok (directory ds des) →
            ∃ stamp es, child.find rest = .ok (directory stamp es)) →
          ∃ stamp es, edited.find place = .ok (directory stamp es) := by
        intro child he hchild
        subst he
        match place with
        | [] => exact ⟨_, _, rfl⟩
        | next :: place =>
          by_cases hn : next = name
          · subst hn
            cases hl : es.lookup next with
            | none => simp [find, hl] at hf
            | some n => simpa [find] using hchild n place hl (by simpa [find, hl] using hf)
          · refine ⟨ds, des, ?_⟩
            simpa [find, Assoc.lookup_insert_of_ne hn] using hf
      simp only [edit] at h
      split at h
      · rename_i child hc
        cases he : child.edit change location with
        | error e => simp [he, Except.map] at h
        | ok c =>
          simp only [he, Except.map, Except.ok.injEq] at h
          exact step c h.symm fun n rest hl hr => by
            obtain rfl : child = n := by simpa [hc] using hl
            exact ih he hr
      · rename_i hc
        split at h
        · cases he : change none with
          | error e => simp [he, Except.map] at h
          | ok c =>
            simp only [he, Except.map, Except.ok.injEq] at h
            exact step c h.symm fun n rest hl _ => by simp [hc] at hl
        · simp at h

/-- Where directories stay directories, a path leads where it led. -/
theorem walk_eq_of_directories {root edited : Node} {here there : Location}
    {pieces : List String}
    (hd : ∀ place, (∃ stamp es, root.find place = .ok (directory stamp es)) →
      ∃ stamp es, edited.find place = .ok (directory stamp es))
    (h : root.walk here pieces = .ok there) : edited.walk here pieces = .ok there := by
  induction pieces generalizing here with
  | nil => simpa [walk] using h
  | cons piece pieces ih =>
    simp only [walk] at h
    split at h
    · rename_i stamp es hf
      obtain ⟨stamp', es', hf'⟩ := hd here ⟨stamp, es, hf⟩
      simp only [walk, hf']
      split at h
      · simp_all
      · simp at h
    · simp at h
    · simp at h

/-- An edit that replaces no directory leaves every path leading where it led. -/
theorem walk_edit {change : Option Node → Except IoFault Node}
    {location here there : Location} {root edited : Node} {pieces : List String}
    (h : root.edit change location = .ok edited)
    (hd : ∀ n m, change (some n) = .ok m → n.isDirectory = false)
    (hp : root.walk here pieces = .ok there) :
    edited.walk here pieces = .ok there :=
  walk_eq_of_directories (fun _ hf => find_directory_edit h hd hf) hp

end Node

end PacketClassifier
