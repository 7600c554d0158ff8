/-
File systems in which something was edited.

* `Files.stays_edit`: an edit that replaces no directory leaves every path leading where
  it led and every directory a directory;
* `Files.replace_entry`, `Files.write_entry`: when a file can be put into a directory, and
  what the directory is then;
* `Files.makeDirectories_of_isDirectory`: a directory that could be made is there, and
  making it again changes nothing;
* `Files.ahead_of_node`: a stamp that was given lies behind the clock.
-/
import PacketClassifier.Files
import PacketClassifier.Proofs.Files.Node

namespace PacketClassifier

namespace Path

theorem exists_name {path : Path} (hs : path.endsInSlash = false)
    (hd : path.endsInDots = false) :
    ∃ front name, path.pieces = front ++ [name] ∧ staysInPlace name = false
      ∧ name ≠ ".." := by
  rw [endsInDots, trimmed_of_not_endsInSlash hs] at hd
  cases hl : path.pieces.getLast? with
  | none => simp [hl] at hd
  | some name =>
    obtain ⟨front, hf⟩ := List.getLast?_eq_some_iff.mp hl
    simp only [hl, Bool.or_eq_false_iff, beq_eq_false_iff_ne] at hd
    have hne : name ≠ "" := by
      rintro rfl
      simp [endsInSlash, hl] at hs
    refine ⟨front, name, hf, ?_, hd.2⟩
    simp [staysInPlace, hne, hd.1]

theorem endsInSlash_of_name {path : Path} {front : List String} {name : String}
    (hp : path.pieces = front ++ [name]) (hn : staysInPlace name = false) :
    path.endsInSlash = false := by
  have hne : name ≠ "" := by
    rintro rfl
    exact absurd hn (by decide)
  simp [endsInSlash, hp, hne]

theorem ne_empty_of_mem_names {path : Path} {name : String} (h : name ∈ path.names) :
    name ≠ "" := by
  rw [names, List.mem_append] at h
  rcases h with h | h
  · split at h
    · rw [List.mem_singleton] at h
      rw [h]
      decide
    · cases h
  · rintro rfl
    have hstays := (List.mem_filter.mp h).2
    exact absurd hstays (by decide)

end Path

namespace Files

/-- Where a path that is walked starts. -/
def origin (files : Files) (path : Path) : Location :=
  if path.rooted then [] else files.working

/-- A path that ends in a name leads to an entry of a directory. -/
theorem locateEntry_iff {files : Files} {path : Path} {front : List String} {name : String}
    {location : Location} (hp : path.pieces = front ++ [name])
    (hn : Path.staysInPlace name = false) (hup : name ≠ "..") :
    files.locateEntry path = .ok location ↔
      refusal? path = none ∧ name.utf8ByteSize ≤ Node.longestName ∧
        ∃ place, files.root.walk (files.origin path) front = .ok place
          ∧ (∃ stamp es, files.root.find place = .ok (.directory stamp es))
          ∧ location = place ++ [name] := by
  rw [locateEntry, Path.trimmed_of_not_endsInSlash (Path.endsInSlash_of_name hp hn),
    locateFrom, hp]
  cases hr : refusal? path with
  | some fault => simp
  | none =>
    show files.root.walk (files.origin path) (front ++ [name]) = .ok location ↔ _
    rw [Node.walk_append]
    cases hw : files.root.walk (files.origin path) front with
    | error e => simp [Except.bind]
    | ok place =>
      show files.root.walk place [name] = .ok location ↔ _
      rw [Node.walk_singleton hn hup]
      constructor
      · rintro ⟨hdir, hlen, rfl⟩
        exact ⟨rfl, hlen, place, rfl, hdir, rfl⟩
      · rintro ⟨_, hlen, place', hplace, hdir, hl⟩
        obtain rfl := Except.ok.inj hplace
        exact ⟨hdir, hlen, hl⟩

/-- Of two entries of one directory, one is located where the other one is. -/
theorem locateEntry_beside {files : Files} {path other : Path} {front : List String}
    {name name' : String} {place location : Location} (hrooted : other.rooted = path.rooted)
    (hp : path.pieces = front ++ [name]) (hn : Path.staysInPlace name = false)
    (hup : name ≠ "..") (hp' : other.pieces = front ++ [name'])
    (hn' : Path.staysInPlace name' = false) (hup' : name' ≠ "..")
    (h : files.locateEntry path = .ok (place ++ [name])) :
    files.locateEntry other = .ok location ↔
      refusal? other = none ∧ name'.utf8ByteSize ≤ Node.longestName
        ∧ location = place ++ [name'] := by
  -- Both walk along the same pieces up to the last one.
  obtain ⟨_, _, place', hwalk, hdir, he⟩ := (locateEntry_iff hp hn hup).mp h
  obtain rfl : place = place' := (List.append_inj' he rfl).1
  have horigin : files.origin other = files.origin path := by
    rw [origin, origin, hrooted]
  rw [locateEntry_iff hp' hn' hup', horigin]
  constructor
  · rintro ⟨hrefusal, hsize, place', hwalk', _, rfl⟩
    obtain rfl := Except.ok.inj (hwalk.symm.trans hwalk')
    exact ⟨hrefusal, hsize, rfl⟩
  · rintro ⟨hrefusal, hsize, rfl⟩
    exact ⟨hrefusal, hsize, place, hwalk, hdir, rfl⟩

/-! ### Edits that replace no directory -/

/-- Whether every path leads where it led and every directory is one still. -/
structure Stays (before after : Files) : Prop where
  /-- Every path leads where it led. -/
  locateFrom : ∀ {path pieces there}, before.locateFrom path pieces = .ok there →
    after.locateFrom path pieces = .ok there
  /-- Every directory is one still. -/
  isDirectory : ∀ {path}, before.isDirectory path = true → after.isDirectory path = true

theorem Stays.trans {files between after : Files} (h : files.Stays between)
    (h' : between.Stays after) :
    files.Stays after :=
  ⟨fun hl => h'.locateFrom (h.locateFrom hl), fun hd => h'.isDirectory (h.isDirectory hd)⟩

theorem isDirectory_iff {files : Files} {path : Path} :
    files.isDirectory path = true ↔
      ∃ location stamp es, files.locate path = .ok location
        ∧ files.root.find location = .ok (.directory stamp es) := by
  rw [isDirectory, node]
  cases files.locate path with
  | error fault => simp [Except.toOption]
  | ok location =>
    cases hf : files.root.find location with
    | error fault => simp [hf, Except.toOption]
    | ok n => cases n <;> simp [hf, Except.toOption, Node.isDirectory]

/-- An edit that replaces no directory leaves paths and directories as they were. -/
theorem stays_edit {files : Files} {root : Node} {location : Location}
    {change : Option Node → Except IoFault Node}
    (he : files.root.edit change location = .ok root)
    (hd : ∀ n m, change (some n) = .ok m → n.isDirectory = false) (clock : Nat) :
    files.Stays { files with root, clock } := by
  have hlocate : ∀ {path pieces there}, files.locateFrom path pieces = .ok there →
      ({ files with root, clock } : Files).locateFrom path pieces = .ok there := by
    intro path pieces there h
    rw [locateFrom] at h ⊢
    cases hr : refusal? path with
    | some fault => simp [hr] at h
    | none =>
      simp only [hr] at h
      exact Node.walk_edit he hd h
  -- What a path leads to is a directory after the edit, with other entries perhaps.
  refine ⟨hlocate, fun h => ?_⟩
  obtain ⟨there, stamp, es, hl, hf⟩ := isDirectory_iff.mp h
  obtain ⟨stamp', es', hf'⟩ := Node.find_directory_edit he hd ⟨stamp, es, hf⟩
  exact isDirectory_iff.mpr ⟨there, stamp', es', hlocate hl, hf'⟩

/-! ### Files in a directory -/

theorem fileOver_iff {content : Bytes} {stamp : Nat} {old : Option Node} :
    (∃ m, fileOver content stamp old = .ok m)
      ↔ ∀ n, old = some n → n.isDirectory = false := by
  cases old with
  | none => simp [fileOver]
  | some n => cases n <;> simp [fileOver, Node.isDirectory]

theorem fileOver_eq_ok {content : Bytes} {stamp : Nat} {old : Option Node} {m : Node}
    (h : fileOver content stamp old = .ok m) : m = .file content stamp := by
  cases old with
  | none => exact (Except.ok.inj h).symm
  | some n =>
    cases n with
    | directory _ _ => cases h
    | file _ _ | socket _ => exact (Except.ok.inj h).symm

theorem fileInto_iff {content : Bytes} {stamp : Nat} {old : Option Node} :
    (∃ m, fileInto content stamp old = .ok m)
      ↔ ∀ n, old = some n → ∃ content stamp, n = .file content stamp := by
  cases old with
  | none => simp [fileInto]
  | some n => cases n <;> simp [fileInto]

theorem fileInto_eq_ok {content : Bytes} {stamp : Nat} {old : Option Node} {m : Node}
    (h : fileInto content stamp old = .ok m) : m = .file content stamp := by
  cases old with
  | none => exact (Except.ok.inj h).symm
  | some n =>
    cases n with
    | directory _ _ | socket _ => cases h
    | file _ _ => exact (Except.ok.inj h).symm

theorem fileOver_replaces_no_directory {content : Bytes} {stamp : Nat} (n m : Node)
    (h : fileOver content stamp (some n) = .ok m) : n.isDirectory = false :=
  fileOver_iff.mp ⟨m, h⟩ n rfl

theorem fileInto_replaces_no_directory {content : Bytes} {stamp : Nat} (n m : Node)
    (h : fileInto content stamp (some n) = .ok m) : n.isDirectory = false := by
  obtain ⟨_, _, rfl⟩ := fileInto_iff.mp ⟨m, h⟩ n rfl
  rfl

section Entry

variable {files : Files} {path : Path} {place : Location} {name : String} {stamp : Nat}
  {es : List (String × Node)}

/-- A file takes the place of what is no directory. -/
theorem replace_entry (hdots : path.endsInDots = false) (hslash : path.endsInSlash = false)
    (hl : files.locateEntry path = .ok (place ++ [name]))
    (hdir : files.root.find place = .ok (.directory stamp es))
    (hfree : ∀ n, es.lookup name = some n → n.isDirectory = false) (content : Bytes) :
    ∃ after, files.replace path content = .ok after ∧ files.Stays after
      ∧ files.clock < after.clock
      ∧ after.root.find place = .ok
          (.directory stamp (Assoc.insert name (.file content files.clock) es)) := by
  obtain ⟨m, hm⟩ : ∃ m, fileOver content files.clock (es.lookup name) = .ok m :=
    fileOver_iff.mpr hfree
  obtain rfl := fileOver_eq_ok hm
  obtain ⟨root, he, hf⟩ := Node.edit_append hdir hm
  refine ⟨{ files with root, clock := files.clock + 1 }, ?_,
    stays_edit he fileOver_replaces_no_directory _,
    Nat.lt_succ_self _, hf⟩
  rw [replace, hl]
  simp only [hdots, hslash, he, Except.map, Bool.false_eq_true, if_false]

/-- A file is written where there is a file or nothing. -/
theorem write_entry (hslash : path.endsInSlash = false)
    (hl : files.locateEntry path = .ok (place ++ [name]))
    (hdir : files.root.find place = .ok (.directory stamp es))
    (hfree : ∀ n, es.lookup name = some n → ∃ content stamp, n = .file content stamp)
    (content : Bytes) :
    ∃ after, files.write path content = .ok after ∧ files.Stays after
      ∧ files.clock < after.clock
      ∧ after.root.find place = .ok
          (.directory stamp (Assoc.insert name (.file content files.clock) es)) := by
  obtain ⟨m, hm⟩ : ∃ m, fileInto content files.clock (es.lookup name) = .ok m :=
    fileInto_iff.mpr hfree
  obtain rfl := fileInto_eq_ok hm
  obtain ⟨root, he, hf⟩ := Node.edit_append hdir hm
  refine ⟨{ files with root, clock := max files.clock (files.clock + 1) }, ?_,
    stays_edit he fileInto_replaces_no_directory _,
    Nat.lt_of_lt_of_le (Nat.lt_succ_self _) (Nat.le_max_right _ _), hf⟩
  rw [write, writeStamped, hl]
  simp only [hslash, he, Except.map, Bool.false_eq_true, if_false]

theorem entry_of_replace {after : Files} {content : Bytes}
    (h : files.replace path content = .ok after) :
    path.endsInDots = false ∧ path.endsInSlash = false
      ∧ ∃ location, files.locateEntry path = .ok location
      ∧ ∀ place name, location = place ++ [name] → ∃ stamp es,
          files.root.find place = .ok (.directory stamp es)
        ∧ ∀ n, es.lookup name = some n → n.isDirectory = false := by
  rw [replace] at h
  cases hl : files.locateEntry path with
  | error fault => simp [hl] at h
  | ok location =>
    cases hdots : path.endsInDots with
    | true => simp [hl, hdots] at h
    | false =>
      cases hslash : path.endsInSlash with
      | true => simp [hl, hdots, hslash] at h
      | false =>
        refine ⟨rfl, rfl, location, rfl, ?_⟩
        rintro place name rfl
        cases he : files.root.edit (fileOver content files.clock) (place ++ [name]) with
        | error fault => simp [hl, hdots, hslash, he, Except.map] at h
        | ok root =>
          obtain ⟨stamp, es, m, hdir, hc⟩ := Node.edit_append_inv he
          exact ⟨stamp, es, hdir, fileOver_iff.mp ⟨m, hc⟩⟩

theorem entry_of_write {after : Files} {content : Bytes}
    (h : files.write path content = .ok after) :
    path.endsInSlash = false ∧ ∃ location, files.locateEntry path = .ok location
      ∧ ∀ place name, location = place ++ [name] → ∃ stamp es,
          files.root.find place = .ok (.directory stamp es)
        ∧ ∀ n, es.lookup name = some n → ∃ content stamp, n = .file content stamp := by
  rw [write, writeStamped] at h
  cases hl : files.locateEntry path with
  | error fault => simp [hl] at h
  | ok location =>
    cases hslash : path.endsInSlash with
    | true => simp [hl, hslash] at h
    | false =>
      refine ⟨rfl, location, rfl, ?_⟩
      rintro place name rfl
      cases he : files.root.edit (fileInto content files.clock) (place ++ [name]) with
      | error fault => simp [hl, hslash, he, Except.map] at h
      | ok root =>
        obtain ⟨stamp, es, m, hdir, hc⟩ := Node.edit_append_inv he
        exact ⟨stamp, es, hdir, fileInto_iff.mp ⟨m, hc⟩⟩

theorem node_entry (hslash : path.endsInSlash = false)
    (hl : files.locateEntry path = .ok (place ++ [name]))
    (hdir : files.root.find place = .ok (.directory stamp es)) {n : Node}
    (hn : es.lookup name = some n) :
    files.node path = .ok n := by
  rw [locateEntry, Path.trimmed_of_not_endsInSlash hslash] at hl
  rw [node, locate, hl]
  exact Node.find_append hdir hn

theorem read_of_node {content : Bytes} {stamp : Nat}
    (h : files.node path = .ok (.file content stamp)) :
    files.read path = .ok content := by
  rw [read, h]

end Entry

/-! ### Directories -/

theorem newOnly_replaces_nothing {new : Node} (n m : Node)
    (h : newOnly new (some n) = .ok m) :
    n.isDirectory = false :=
  nomatch h

theorem isDirectory_of_makeDirectory {files made : Files} {path : Path}
    (hs : path.endsInSlash = false) (h : files.makeDirectory path = (.ok (), made)) :
    made.isDirectory path = true := by
  rw [makeDirectory] at h
  cases hm : files.make path (.directory files.clock []) with
  | error fault =>
    -- Nothing could be made, which is no failure only where there is a directory already.
    simp only [hm] at h
    split at h
    · rename_i he
      obtain rfl := (Prod.mk.inj h).2
      exact he.2
    · cases h
  | ok after =>
    simp only [hm] at h
    obtain rfl := (Prod.mk.inj h).2
    rw [make, locateEntry, Path.trimmed_of_not_endsInSlash hs, ← locate] at hm
    cases hl : files.locate path with
    | error fault => simp [hl] at hm
    | ok location =>
      cases he : files.root.edit (newOnly (.directory files.clock [])) location with
      | error fault => simp [hl, he, Except.map] at hm
      | ok root =>
        simp only [hl, he, Except.map, Except.ok.injEq] at hm
        subst hm
        -- What stands at the location is the new directory, and the path still leads there.
        have hfound : root.find location = .ok (.directory files.clock []) := by
          refine Node.find_edit he fun old m hm => ?_
          cases old with
          | none => exact (Except.ok.inj hm).symm
          | some n => cases hm
        have hstays := stays_edit he newOnly_replaces_nothing (files.clock + 1)
        exact isDirectory_iff.mpr ⟨location, files.clock, [], hstays.locateFrom hl, hfound⟩

/-- Making a directory that is there changes nothing. -/
theorem makeDirectory_of_isDirectory {files : Files} {path : Path}
    (hs : path.endsInSlash = false) (h : files.isDirectory path = true) :
    files.makeDirectory path = (.ok (), files) := by
  obtain ⟨location, stamp, es, hl, hf⟩ := isDirectory_iff.mp h
  have hedit : files.root.edit (newOnly (.directory files.clock [])) location
      = .error .alreadyExists :=
    Node.edit_of_find hf rfl
  have hmake : files.make path (.directory files.clock []) = .error .alreadyExists := by
    rw [make, locateEntry, Path.trimmed_of_not_endsInSlash hs, ← locate, hl]
    simp only [hedit, Except.map]
  rw [makeDirectory, hmake]
  simp only [h, and_self, if_true]

theorem isDirectory_of_makeDirectoriesOf {rooted : Bool} {name : String} (hn : name ≠ "")
    {outer : List String} {files made : Files}
    (h : makeDirectoriesOf rooted (name :: outer) files = (.ok (), made)) :
    made.isDirectory ⟨rooted, (name :: outer).reverse⟩ = true := by
  have hs : Path.endsInSlash ⟨rooted, (name :: outer).reverse⟩ = false := by
    simp [Path.endsInSlash, hn]
  rw [makeDirectoriesOf] at h
  split at h
  · split at h
    · exact isDirectory_of_makeDirectory hs h
    · cases h
  · rename_i hm
    rw [h] at hm
    exact isDirectory_of_makeDirectory hs hm

/-- A directory that could be made with all that it stands in is there, unless there was
nothing to make. -/
theorem isDirectory_of_makeDirectories {files made : Files} {path : Path}
    (h : files.makeDirectories path = (.ok (), made)) :
    path.names = [] ∨ made.isDirectory ⟨path.rooted, path.names⟩ = true := by
  rw [makeDirectories] at h
  cases hr : path.names.reverse with
  | nil => exact .inl (List.reverse_eq_nil_iff.mp hr)
  | cons name outer =>
    rw [hr] at h
    have hne : name ≠ "" :=
      Path.ne_empty_of_mem_names (List.mem_reverse.mp (hr ▸ List.mem_cons_self))
    have hdir := isDirectory_of_makeDirectoriesOf hne h
    rw [← hr, List.reverse_reverse] at hdir
    exact .inr hdir

theorem makeDirectories_of_isDirectory {files : Files} {path : Path}
    (h : path.names = [] ∨ files.isDirectory ⟨path.rooted, path.names⟩ = true) :
    files.makeDirectories path = (.ok (), files) := by
  rw [makeDirectories]
  cases hr : path.names.reverse with
  | nil => rfl
  | cons name outer =>
    have hne : name ≠ "" :=
      Path.ne_empty_of_mem_names (List.mem_reverse.mp (hr ▸ List.mem_cons_self))
    have hnames : (name :: outer).reverse = path.names := by
      rw [← hr, List.reverse_reverse]
    have hs : Path.endsInSlash ⟨path.rooted, path.names⟩ = false := by
      rw [← hnames]
      simp [Path.endsInSlash, hne]
    have hdir : files.isDirectory ⟨path.rooted, path.names⟩ = true := by
      rcases h with h | h
      · rw [h] at hnames
        simp at hnames
      · exact h
    rw [makeDirectoriesOf, hnames, makeDirectory_of_isDirectory hs hdir]

theorem clock_makeDirectory (files : Files) (path : Path) :
    files.clock ≤ (files.makeDirectory path).2.clock := by
  rw [makeDirectory]
  cases hm : files.make path (.directory files.clock []) with
  | error fault => exact Nat.le_refl _
  | ok made =>
    rw [make] at hm
    cases hl : files.locateEntry path with
    | error fault => simp [hl] at hm
    | ok location =>
      cases he : files.root.edit (newOnly (.directory files.clock [])) location with
      | error fault => simp [hl, he, Except.map] at hm
      | ok root =>
        simp only [hl, he, Except.map, Except.ok.injEq] at hm
        subst hm
        exact Nat.le_succ _

theorem clock_makeDirectoriesOf (rooted : Bool) (names : List String) :
    ∀ files : Files, files.clock ≤ (makeDirectoriesOf rooted names files).2.clock := by
  induction names with
  | nil => exact fun _ => Nat.le_refl _
  | cons name outer ih =>
    intro files
    have hfirst := clock_makeDirectory files ⟨rooted, (name :: outer).reverse⟩
    rw [makeDirectoriesOf]
    split
    · rename_i between hm
      rw [hm] at hfirst
      have houter := Nat.le_trans hfirst (ih between)
      split
      · rename_i inner hi
        rw [hi] at houter
        exact Nat.le_trans houter (clock_makeDirectory inner _)
      · rename_i inner hi
        rwa [hi] at houter
    · rename_i hm
      rwa [← hm]

end Files

end PacketClassifier
