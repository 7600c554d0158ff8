/-
What is kept is loaded.

A document and its checksum are two entries of one directory. Whether they can be written
depends on the directory and on what these entries are, not on the document
(`Baseline.Room`), and writing leaves room for the next document. So a file system that
keeps one document keeps all (`Baseline.save_of_keeps`), each with a stamp that was never
given before (`Baseline.save_stamped`).
-/
import PacketClassifier.Baseline
import PacketClassifier.Proofs.Files
import PacketClassifier.Proofs.Json.RoundTrip
import PacketClassifier.Proofs.Text.Utf8

namespace PacketClassifier

namespace Baseline

/-- Whether the directory of a path has room for a document and its checksum: what stands
at the path, under the given name in the given place, is no directory, and what stands
beside it is a file if anything. -/
structure Room (files : Files) (path : Path) (place : Location) (name : String) : Prop where
  ends_in_name : path.endsInDots = false ∧ path.endsInSlash = false
    ∧ (checksumPath path).endsInSlash = false
  located : files.locateEntry path = .ok (place ++ [name])
  beside : files.locateEntry (checksumPath path) = .ok (place ++ [name ++ ".sha256"])
  entries : ∃ stamp es, files.root.find place = .ok (.directory stamp es)
    ∧ (∀ n, es.lookup name = some n → n.isDirectory = false)
    ∧ ∀ n, es.lookup (name ++ ".sha256") = some n → ∃ content stamp, n = .file content stamp

theorem checksum_name_ne (name : String) : name ++ ".sha256" ≠ name := by
  intro h
  have hlen := congrArg String.length h
  rw [String.length_append] at hlen
  have hpos : ".sha256".length = 7 := by decide
  omega

theorem checksum_name_stays (name : String) :
    Path.staysInPlace (name ++ ".sha256") = false ∧ name ++ ".sha256" ≠ ".." := by
  have hlen : (name ++ ".sha256").length = name.length + 7 := String.length_append _ _
  have hne : ∀ s : String, s.length < 7 → name ++ ".sha256" ≠ s := by
    rintro s hs rfl
    omega
  refine ⟨?_, hne ".." (by decide)⟩
  rw [Path.staysInPlace, Bool.or_eq_false_iff]
  exact ⟨beq_false_of_ne (hne "" (by decide)), beq_false_of_ne (hne "." (by decide))⟩

/-- Where there is room a document is written, and there is room again. -/
theorem write_of_room {files : Files} {path : Path} {place : Location} {name : String}
    (h : Room files path place name) (doc : Json) :
    ∃ written, write files path doc = (.ok (), written) ∧ Room written path place name
      ∧ written.node path = .ok (.file (content doc) files.clock)
      ∧ files.clock < written.clock
      ∧ files.Stays written := by
  obtain ⟨⟨hdots, hslash, hslash'⟩, hl, hl', stamp, es, hdir, hfree, hfree'⟩ := h
  obtain ⟨files₁, hreplace, hstays₁, hclock₁, hdir₁⟩ :=
    Files.replace_entry hdots hslash hl hdir hfree (content doc)
  -- The entry of the checksum is another one.
  have hfree₁ := hfree'
  rw [← Assoc.lookup_insert_of_ne (checksum_name_ne name)
    (.file (content doc) files.clock)] at hfree₁
  obtain ⟨files₂, hwrite, hstays₂, hclock₂, hdir₂⟩ :=
    Files.write_entry hslash' (hstays₁.locateFrom hl') hdir₁ hfree₁
      (Utf8.ofString (Sha256.hex (content doc)))
  have hstays := hstays₁.trans hstays₂
  have hname : (Assoc.insert (name ++ ".sha256")
        (.file (Utf8.ofString (Sha256.hex (content doc))) files₁.clock)
        (Assoc.insert name (.file (content doc) files.clock) es)).lookup name
      = some (.file (content doc) files.clock) := by
    rw [Assoc.lookup_insert_of_ne (checksum_name_ne name).symm, Assoc.lookup_insert_self]
  -- Now both entries are files, so the next document finds room as well.
  refine ⟨files₂, ?_,
    ⟨⟨hdots, hslash, hslash'⟩, hstays.locateFrom hl, hstays.locateFrom hl', stamp, _, hdir₂,
      fun n hn => ?_, fun n hn => ?_⟩,
    Files.node_entry hslash (hstays.locateFrom hl) hdir₂ hname,
    Nat.lt_trans hclock₁ hclock₂, hstays⟩
  · rw [write, hreplace]
    simp only [hwrite]
  · rw [hname] at hn
    rw [← Option.some.inj hn]
    rfl
  · rw [Assoc.lookup_insert_self] at hn
    exact ⟨_, _, (Option.some.inj hn).symm⟩

theorem room_of_write {files written : Files} {path : Path} {doc : Json}
    (h : write files path doc = (.ok (), written)) :
    ∃ place name, Room files path place name := by
  rw [write] at h
  cases hreplace : files.replace path (content doc) with
  | error fault => simp [hreplace] at h
  | ok files₁ =>
    cases hwrite : files₁.write (checksumPath path)
        (Utf8.ofString (Sha256.hex (content doc))) with
    | error fault => simp [hreplace, hwrite] at h
    | ok files₂ =>
      -- The document was put at a path that ends in a name, and so into the directory
      -- that the rest leads to.
      obtain ⟨hdots, hslash, location, hl, hentry⟩ := Files.entry_of_replace hreplace
      obtain ⟨front, name, hp, hn, hup⟩ := Path.exists_name hslash hdots
      obtain ⟨_, _, place, _, _, rfl⟩ := (Files.locateEntry_iff hp hn hup).mp hl
      obtain ⟨stamp, es, hdir, hfree⟩ := hentry place name rfl
      obtain ⟨files₁', hreplace', hstays, _, hdir₁⟩ :=
        Files.replace_entry hdots hslash hl hdir hfree (content doc)
      obtain rfl := Except.ok.inj (hreplace.symm.trans hreplace')
      -- The checksum was written into another entry of the same directory.
      obtain ⟨hslash', location', hl', hentry'⟩ := Files.entry_of_write hwrite
      have hp' : (checksumPath path).pieces = front ++ [name ++ ".sha256"] := by
        simp [checksumPath, Path.extended, hp]
      obtain ⟨hn', hup'⟩ := checksum_name_stays name
      -- Where the checksum stands is decided by where the document stands, before the
      -- writes and after them.
      have hbeside : ∀ {files : Files} {location : Location},
          files.locateEntry path = .ok (place ++ [name]) →
            (files.locateEntry (checksumPath path) = .ok location
              ↔ Files.refusal? (checksumPath path) = none
              ∧ (name ++ ".sha256").utf8ByteSize ≤ Node.longestName
              ∧ location = place ++ [name ++ ".sha256"]) :=
        fun hl => Files.locateEntry_beside
          (show (checksumPath path).rooted = path.rooted from rfl) hp hn hup hp' hn' hup' hl
      have hl₁ : files₁.locateEntry path = .ok (place ++ [name]) := hstays.locateFrom hl
      obtain ⟨hrefusal, hsize, rfl⟩ := (hbeside hl₁).mp hl'
      obtain ⟨stamp', es', hdir₁', hfree'⟩ := hentry' place _ rfl
      obtain ⟨rfl, rfl⟩ := Node.directory.inj (Except.ok.inj (hdir₁.symm.trans hdir₁'))
      rw [Assoc.lookup_insert_of_ne (checksum_name_ne name)] at hfree'
      exact ⟨place, name, ⟨hdots, hslash, hslash'⟩, hl,
        (hbeside hl).mpr ⟨hrefusal, hsize, rfl⟩, stamp, es, hdir, hfree, hfree'⟩

/-- Whether a file system keeps documents at a path: it keeps the empty one. -/
def Keeps (files : Files) (path : Path) : Prop := (save files path .empty).1 = .ok ()

/-- Where the directory of a path can be made and has room then, documents are kept. -/
theorem save_of_room {files made : Files} {path : Path} {place : Location} {name : String}
    (hm : files.makeDirectories path.parent = (.ok (), made)) (h : Room made path place name)
    {doc : Json} (hd : doc.isObject = true) :
    ∃ saved, save files path doc = (.ok (), saved) ∧ Room saved path place name
      ∧ saved.node path = .ok (.file (content doc) made.clock) ∧ made.clock < saved.clock
      ∧ made.Stays saved := by
  obtain ⟨saved, hwrite, hrest⟩ := write_of_room h doc
  refine ⟨saved, ?_, hrest⟩
  rw [save, if_pos hd, hm]
  simp only [hwrite]
  rfl

theorem keeps_of_room {files made : Files} {path : Path} {place : Location} {name : String}
    (hm : files.makeDirectories path.parent = (.ok (), made))
    (h : Room made path place name) : Keeps files path := by
  obtain ⟨saved, hsave, _⟩ := save_of_room hm h (show Json.empty.isObject = true from rfl)
  rw [Keeps, hsave]

theorem room_of_keeps {files : Files} {path : Path} (h : Keeps files path) :
    ∃ made place name, files.makeDirectories path.parent = (.ok (), made)
      ∧ Room made path place name := by
  rw [Keeps, save, if_pos (show Json.empty.isObject = true from rfl)] at h
  cases hm : files.makeDirectories path.parent with
  | mk result made =>
    cases result with
    | error fault => simp [hm] at h
    | ok _ =>
      simp only [hm] at h
      cases hw : write made path .empty with
      | mk result written =>
        cases result with
        | error fault => simp [hw, Except.mapError] at h
        | ok _ =>
          obtain ⟨place, name, hroom⟩ := room_of_write hw
          exact ⟨made, place, name, rfl, hroom⟩

/-- Where the empty document can be kept, any object can, and the next document can be
kept as well. The file has a stamp then that was never given before. -/
theorem save_stamped {files : Files} {path : Path} (h : Keeps files path) {doc : Json}
    (hd : doc.isObject = true) :
    ∃ saved stamp, save files path doc = (.ok (), saved) ∧ Keeps saved path
      ∧ saved.node path = .ok (.file (content doc) stamp) ∧ files.clock ≤ stamp
      ∧ stamp < saved.clock := by
  obtain ⟨made, place, name, hm, hroom⟩ := room_of_keeps h
  obtain ⟨saved, hsave, hroom', hnode, hclock, hstays⟩ := save_of_room hm hroom hd
  have hmade : files.clock ≤ made.clock := by
    have := Files.clock_makeDirectoriesOf path.parent.rooted path.parent.names.reverse files
    rwa [← Files.makeDirectories, hm] at this
  -- The next document finds the directory made.
  have hparent := (Files.isDirectory_of_makeDirectories hm).imp id hstays.isDirectory
  exact ⟨saved, made.clock, hsave,
    keeps_of_room (Files.makeDirectories_of_isDirectory hparent) hroom', hnode, hmade,
    hclock⟩

/-- **What keeps one document keeps all.** Where the empty document can be kept, any
object can, and its text is read afterwards, and the next document can be kept as well. -/
theorem save_of_keeps {files : Files} {path : Path} (h : Keeps files path) {doc : Json}
    (hd : doc.isObject = true) :
    ∃ saved, save files path doc = (.ok (), saved) ∧ Keeps saved path
      ∧ saved.read path = .ok (content doc) := by
  obtain ⟨saved, stamp, hsave, hkeeps, hnode, _⟩ := save_stamped h hd
  exact ⟨saved, hsave, hkeeps, Files.read_of_node hnode⟩

theorem load_of_read {files : Files} {path : Path} {doc : Json}
    (hr : files.read path = .ok (content doc)) (ho : doc.isObject = true)
    (hs : doc.Storable) : load files path = doc := by
  rw [load, Files.readText, hr]
  simp only [content, Utf8.ofString, Utf8.decode?_encode]
  rw [ofText, Json.ofText?_pretty hs, Option.filter_some, ho]
  rfl

theorem load_of_read_error {files : Files} {path : Path}
    (h : ∀ bs, files.read path ≠ .ok bs) :
    load files path = .empty := by
  rw [load, Files.readText]
  cases hr : files.read path with
  | ok bs => exact absurd hr (h bs)
  | error fault => rfl

/-- What is loaded was read as an object, or nothing was read. -/
theorem load_eq_empty_or (files : Files) (path : Path) :
    load files path = .empty ∨ ∃ text, Json.ofText? text = some (load files path) := by
  rw [load]
  cases files.readText path with
  | error fault => exact .inl rfl
  | ok text =>
    simp only [ofText]
    cases ht : Json.ofText? text with
    | none => exact .inl rfl
    | some doc =>
      rw [Option.filter_some]
      cases doc.isObject with
      | false => exact .inl rfl
      | true => exact .inr ⟨text, ht⟩

theorem keyed_load (files : Files) (path : Path) : (load files path).Keyed := by
  rcases load_eq_empty_or files path with hempty | ⟨text, ht⟩
  · rw [hempty]
    exact Json.keyed_obj.mpr ⟨List.nodup_nil, fun _ h => absurd h List.not_mem_nil⟩
  · exact Json.keyed_ofText? ht

end Baseline

end PacketClassifier
