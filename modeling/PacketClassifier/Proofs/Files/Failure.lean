/-
Paths behind which something stands, and operations that fail.

A path that leads somewhere leads through its parent directory, so making that directory
changes nothing (`Files.isDirectory_parent`). On the other hand, where the directory could
not be made, or a file could not be put in place of what is there, the path leads to no
file afterwards (`Files.locate_of_makeDirectories_error`, `Files.replace_of_read`).
-/
import PacketClassifier.Proofs.Files

namespace PacketClassifier

namespace Path

/-! ### Paths with pieces left out -/

theorem intercalate_of_sublist (sep : String) {short long : List String}
    (h : short.Sublist long) :
    (sep.intercalate short).utf8ByteSize ≤ (sep.intercalate long).utf8ByteSize
      ∧ ∀ c ∈ (sep.intercalate short).toList, c ∈ (sep.intercalate long).toList := by
  induction h with
  | slnil => exact ⟨Nat.le_refl _, fun _ hc => hc⟩
  | @cons short long p hs ih =>
    by_cases hl : long = []
    · obtain rfl : short = [] := List.sublist_nil.mp (hl ▸ hs)
      simp [String.intercalate_nil]
    · rw [String.intercalate_cons_of_ne_nil hl, String.utf8ByteSize_append,
        String.toList_append]
      exact ⟨by omega, fun c hc => List.mem_append_right _ (ih.2 c hc)⟩
  | @cons_cons short long p hs ih =>
    by_cases hl : long = []
    · obtain rfl : short = [] := List.sublist_nil.mp (hl ▸ hs)
      rw [hl]
      exact ⟨Nat.le_refl _, fun _ hc => hc⟩
    · rw [String.intercalate_cons_of_ne_nil hl]
      by_cases hshort : short = []
      · rw [hshort, String.intercalate_singleton, String.utf8ByteSize_append,
          String.utf8ByteSize_append, String.toList_append, String.toList_append]
        exact ⟨by omega, fun c hc => List.mem_append_left _ (List.mem_append_left _ hc)⟩
      · rw [String.intercalate_cons_of_ne_nil hshort]
        simp only [String.utf8ByteSize_append, String.toList_append, List.mem_append]
        exact ⟨by omega, fun c hc => hc.imp id (ih.2 c)⟩

/-- A path of some of the pieces of a path that is not refused is not refused either,
unless nothing is left of it. -/
theorem refusal?_of_sublist {path : Path} {pieces : List String}
    (hs : pieces.Sublist path.pieces) (hne : (Path.mk path.rooted pieces).text ≠ "")
    (h : Files.refusal? path = none) :
    Files.refusal? ⟨path.rooted, pieces⟩ = none := by
  obtain ⟨hsize, hchars⟩ := intercalate_of_sublist "/" hs
  have hcontains : ∀ p : Path, Files.refusal? p = none ↔
      '\x00' ∉ p.text.toList ∧ p.text ≠ "" ∧ p.text.utf8ByteSize < Files.pathLimit := by
    intro p
    rw [Files.refusal?, String.contains_char_eq]
    by_cases hz : '\x00' ∈ p.text.toList
    · simp [hz]
    · by_cases he : p.text = ""
      · simp [he]
      · by_cases hl : p.text.utf8ByteSize < Files.pathLimit <;> simp [hz, he, hl]
  rw [hcontains] at h ⊢
  obtain ⟨hz, _, hl⟩ := h
  refine ⟨fun hc => hz ?_, hne, ?_⟩
  · rw [text, String.toList_append, List.mem_append] at hc ⊢
    exact hc.imp id (hchars _)
  · rw [text, String.utf8ByteSize_append] at hl ⊢
    exact Nat.lt_of_le_of_lt (Nat.add_le_add_left hsize _) hl

theorem text_ne_empty {rooted : Bool} {piece : String} {pieces : List String}
    (h : piece ≠ "") :
    (Path.mk rooted (piece :: pieces)).text ≠ "" := by
  have hpos : 0 < piece.utf8ByteSize := by
    rw [Nat.pos_iff_ne_zero]
    exact fun hz => h (String.utf8ByteSize_eq_zero_iff.mp hz)
  have hle : piece.utf8ByteSize ≤ ("/".intercalate (piece :: pieces)).utf8ByteSize := by
    have hs : [piece].Sublist (piece :: pieces) :=
      List.singleton_sublist.mpr List.mem_cons_self
    have := (intercalate_of_sublist "/" hs).1
    rwa [String.intercalate_singleton] at this
  intro he
  have hsize : (Path.mk rooted (piece :: pieces)).text.utf8ByteSize = 0 := by
    rw [he, String.utf8ByteSize_empty]
  rw [text, String.utf8ByteSize_append, Nat.add_eq_zero_iff] at hsize
  exact absurd hsize.2 (Nat.ne_of_gt (Nat.lt_of_lt_of_le hpos hle))

theorem names_sublist (path : Path) : path.names.Sublist path.pieces := by
  rw [names]
  split
  · rename_i h
    obtain ⟨hd, rest, hp⟩ : ∃ hd rest, path.pieces = hd :: rest := by
      cases hp : path.pieces with
      | nil => simp [hp] at h
      | cons hd rest => exact ⟨hd, rest, rfl⟩
    obtain rfl : hd = "." := by simpa [hp] using (Bool.and_eq_true_iff.mp h).2
    rw [hp, List.filter_cons]
    exact List.filter_sublist.cons_cons "."
  · exact List.filter_sublist

theorem filter_not_staysInPlace {pieces : List String}
    (h : ∀ piece ∈ pieces, staysInPlace piece = false) :
    pieces.filter (fun piece => !staysInPlace piece) = pieces := by
  refine List.filter_eq_self.mpr fun piece hm => ?_
  rw [h piece hm]
  rfl

/-- Nothing of a parent path is passed over when it is read. -/
theorem names_parent (path : Path) : path.parent.names = path.names.dropLast := by
  have hstays : ∀ piece ∈ path.pieces.filter (fun piece => !staysInPlace piece),
      staysInPlace piece = false := by
    intro piece hm
    simpa using (List.mem_filter.mp hm).2
  generalize hf : path.pieces.filter (fun piece => !staysInPlace piece) = front at hstays
  have hdrop : ∀ piece ∈ front.dropLast, staysInPlace piece = false :=
    fun piece hm => hstays piece (List.dropLast_subset _ hm)
  have hdot : staysInPlace "." = true := by decide
  show names ⟨path.rooted, path.names.dropLast⟩ = path.names.dropLast
  by_cases hc : (!path.rooted && path.pieces.head? == some ".") = true
  · have hnames : path.names = "." :: front := by
      rw [names, if_pos hc, hf, List.singleton_append]
    cases front with
    | nil =>
      rw [hnames]
      simp [names]
    | cons piece rest =>
      have hr : path.rooted = false := by simpa using (Bool.and_eq_true_iff.mp hc).1
      rw [hnames, List.dropLast_cons_of_ne_nil (List.cons_ne_nil _ _), names,
        List.filter_cons, filter_not_staysInPlace hdrop, hdot, hr]
      rfl
  · have hnames : path.names = front := by
      rw [names, if_neg hc, hf, List.nil_append]
    have hhead : (front.dropLast.head? == some ".") = false := by
      rw [beq_eq_false_iff_ne]
      intro he
      have hm := hdrop "." (List.mem_of_head? he)
      rw [hdot] at hm
      cases hm
    rw [hnames, names, hhead, Bool.and_false, if_neg Bool.false_ne_true,
      filter_not_staysInPlace hdrop, List.nil_append]

end Path

namespace Node

theorem walk_cons_inv {root : Node} {here there : Location} {piece : String}
    {pieces : List String} (h : root.walk here (piece :: pieces) = .ok there) :
    (∃ stamp es, root.find here = .ok (directory stamp es)) ∧ piece.utf8ByteSize ≤ longestName
      ∧ root.walk (here.step piece) pieces = .ok there := by
  rw [walk] at h
  split at h
  · rename_i stamp es hf
    split at h
    · rename_i hlen
      exact ⟨⟨stamp, es, hf⟩, hlen, h⟩
    · cases h
  · cases h
  · cases h

theorem walk_cons {root : Node} {here : Location} {piece : String} {pieces : List String}
    (hd : ∃ stamp es, root.find here = .ok (directory stamp es))
    (hlen : piece.utf8ByteSize ≤ longestName) :
    root.walk here (piece :: pieces) = root.walk (here.step piece) pieces := by
  obtain ⟨stamp, es, hf⟩ := hd
  rw [walk, hf]
  exact if_pos hlen

/-- Pieces that stay in place can be left out of a path that leads somewhere. -/
theorem walk_filter {root : Node} {there : Location} {pieces : List String} :
    ∀ {here : Location}, root.walk here pieces = .ok there →
      root.walk here (pieces.filter fun piece => !Path.staysInPlace piece) = .ok there := by
  induction pieces with
  | nil => exact id
  | cons piece pieces ih =>
    intro here h
    obtain ⟨hd, hlen, hrest⟩ := walk_cons_inv h
    cases hs : Path.staysInPlace piece with
    | true =>
      rw [Location.step, if_pos hs] at hrest
      rw [List.filter_cons, hs]
      exact ih hrest
    | false =>
      rw [List.filter_cons, hs]
      show root.walk here (piece :: _) = _
      rw [walk_cons hd hlen]
      exact ih hrest

theorem find_append_inv {place : Location} {name : String} {root n : Node}
    (h : root.find (place ++ [name]) = .ok n) :
    ∃ stamp es, root.find place = .ok (directory stamp es) := by
  induction place generalizing root with
  | nil =>
    cases root with
    | file _ _ => cases h
    | socket _ => cases h
    | directory stamp es => exact ⟨stamp, es, rfl⟩
  | cons x place ih =>
    cases root with
    | file _ _ => cases h
    | socket _ => cases h
    | directory s ds =>
      rw [List.cons_append, find] at h
      rw [find]
      cases hx : ds.lookup x with
      | none => simp [hx] at h
      | some child =>
        simp only [hx] at h
        exact ih h

/-- What a piece that is no name leads to is a directory. -/
theorem find_step_of_no_name {root : Node} {here : Location} {piece : String}
    (hd : ∃ stamp es, root.find here = .ok (directory stamp es))
    (hp : Path.staysInPlace piece = true ∨ piece = "..") :
    ∃ stamp es, root.find (here.step piece) = .ok (directory stamp es) := by
  rw [Location.step]
  by_cases hs : Path.staysInPlace piece = true
  · rwa [if_pos hs]
  · rw [if_neg hs, if_pos (hp.resolve_left hs)]
    obtain ⟨stamp, es, hf⟩ := hd
    rcases List.eq_nil_or_concat here with rfl | ⟨place, name, rfl⟩
    · exact ⟨stamp, es, hf⟩
    · rw [List.concat_eq_append] at hf ⊢
      rw [List.dropLast_concat]
      exact find_append_inv hf

/-- An edit succeeds where the change admits what stands there. -/
theorem edit_of_find_ok {change : Option Node → Except IoFault Node} {location : Location}
    {root n m : Node} (hf : root.find location = .ok n) (hc : change (some n) = .ok m) :
    ∃ edited, root.edit change location = .ok edited := by
  induction location generalizing root with
  | nil =>
    obtain rfl : root = n := Except.ok.inj hf
    exact ⟨m, hc⟩
  | cons x location ih =>
    cases root with
    | file _ _ => cases hf
    | socket _ => cases hf
    | directory s ds =>
      rw [find] at hf
      rw [edit]
      cases hx : ds.lookup x with
      | none => simp [hx] at hf
      | some child =>
        simp only [hx] at hf
        obtain ⟨edited, he⟩ := ih hf
        exact ⟨directory s (Assoc.insert x edited ds), by simp [he, Except.map]⟩

end Node

namespace Files

variable {files : Files} {path : Path}

theorem locate_eq_ok {location : Location} (h : files.locate path = .ok location) :
    refusal? path = none
      ∧ files.root.walk (files.origin path) path.pieces = .ok location := by
  rw [locate, locateFrom] at h
  cases hr : refusal? path with
  | some fault => simp [hr] at h
  | none =>
    simp only [hr] at h
    exact ⟨rfl, h⟩

theorem isDirectory_of_walk {place : Location} (hr : refusal? path = none)
    (hw : files.root.walk (files.origin path) path.pieces = .ok place)
    (hd : ∃ stamp es, files.root.find place = .ok (.directory stamp es)) :
    files.isDirectory path = true := by
  obtain ⟨stamp, es, hf⟩ := hd
  refine isDirectory_iff.mpr ⟨place, stamp, es, ?_, hf⟩
  rw [locate, locateFrom, hr]
  exact hw

/-- A path leads through a directory to each of its names. -/
theorem isDirectory_of_walk_append {front : List String} {name : String} {location : Location}
    (hr : refusal? path = none) (hs : front.Sublist path.pieces)
    (hfront : ∀ piece ∈ front, piece ≠ "")
    (hw : files.root.walk (files.origin path) (front ++ [name]) = .ok location) :
    front = [] ∨ files.isDirectory ⟨path.rooted, front⟩ = true := by
  cases front with
  | nil => exact .inl rfl
  | cons piece rest =>
    rw [Node.walk_append] at hw
    cases hplace : files.root.walk (files.origin path) (piece :: rest) with
    | error fault => simp [hplace, Except.bind] at hw
    | ok place =>
      rw [hplace] at hw
      have hne : (Path.mk path.rooted (piece :: rest)).text ≠ "" :=
        Path.text_ne_empty (hfront piece List.mem_cons_self)
      have hr' : refusal? ⟨path.rooted, piece :: rest⟩ = none :=
        Path.refusal?_of_sublist hs hne hr
      exact .inr (isDirectory_of_walk hr' hplace (Node.walk_cons_inv hw).1)

theorem walk_names {location : Location}
    (h : files.root.walk (files.origin path) path.pieces = .ok location) :
    files.root.walk (files.origin path) path.names = .ok location := by
  rw [Path.names]
  split
  · rename_i hc
    -- The dot at the beginning is the first piece, and it leads on from where the path
    -- starts.
    cases hp : path.pieces with
    | nil => simp [hp] at hc
    | cons piece pieces =>
      obtain rfl : piece = "." := by simpa [hp] using (Bool.and_eq_true_iff.mp hc).2
      rw [hp] at h
      obtain ⟨hd, hlen, hrest⟩ := Node.walk_cons_inv h
      rw [List.singleton_append, Node.walk_cons hd hlen, List.filter_cons]
      exact Node.walk_filter hrest
  · exact Node.walk_filter h

/-- Where a path leads somewhere, it leads through its parent. -/
theorem isDirectory_parent {location : Location} (h : files.locate path = .ok location) :
    path.parent.names = []
      ∨ files.isDirectory ⟨path.parent.rooted, path.parent.names⟩ = true := by
  obtain ⟨hr, hw⟩ := locate_eq_ok h
  have hnames := walk_names hw
  rw [Path.names_parent]
  rcases List.eq_nil_or_concat path.names with hn | ⟨front, name, hn⟩
  · rw [hn]
    exact .inl rfl
  · rw [List.concat_eq_append] at hn
    have hfront : ∀ piece ∈ front, piece ≠ "" := fun piece hm =>
      Path.ne_empty_of_mem_names (hn.symm ▸ List.mem_append_left _ hm)
    have hs : front.Sublist path.pieces :=
      (List.sublist_append_left front [name]).trans (hn ▸ path.names_sublist)
    have hdir := isDirectory_of_walk_append hr hs hfront (hn ▸ hnames)
    rw [hn, List.dropLast_concat]
    exact hdir

/-! ### Failures -/

theorem makeDirectory_error {made : Files} {fault : IoFault}
    (h : files.makeDirectory path = (.error fault, made)) :
    made = files := by
  rw [makeDirectory] at h
  split at h
  · cases h
  · exact (Prod.mk.inj h).2.symm

/-- A directory that could not be made is not there. -/
theorem isDirectory_of_makeDirectoriesOf_error {rooted : Bool} {fault : IoFault}
    {names : List String} :
    ∀ {files made : Files}, (∀ name ∈ names, name ≠ "") →
      makeDirectoriesOf rooted names files = (.error fault, made) →
      made.isDirectory ⟨rooted, names.reverse⟩ = false := by
  induction names generalizing fault with
  | nil => exact fun _ h => nomatch h
  | cons name outer ih =>
    intro files made hne h
    have hs : Path.endsInSlash ⟨rooted, (name :: outer).reverse⟩ = false := by
      simp [Path.endsInSlash, hne name List.mem_cons_self]
    have hone : ∀ {before after : Files} {e : IoFault},
        before.makeDirectory ⟨rooted, (name :: outer).reverse⟩ = (.error e, after) →
        after.isDirectory ⟨rooted, (name :: outer).reverse⟩ = false := by
      intro before after e he
      obtain rfl := makeDirectory_error he
      rw [← Bool.not_eq_true]
      intro hd
      rw [makeDirectory_of_isDirectory hs hd] at he
      cases he
    rw [makeDirectoriesOf] at h
    split at h
    · rename_i between hm
      split at h
      · exact hone h
      · rename_i e after houter
        -- An outer directory is missing, so the path does not even lead to this one.
        obtain ⟨rfl, rfl⟩ : e = fault ∧ after = made := by
          obtain ⟨he, ha⟩ := Prod.mk.inj h
          exact ⟨Except.error.inj he, ha⟩
        have hmissing := ih (fun n hn => hne n (List.mem_cons_of_mem _ hn)) houter
        rw [← Bool.not_eq_true]
        intro hd
        obtain ⟨location, stamp, es, hl, _⟩ := isDirectory_iff.mp hd
        obtain ⟨hr, hw⟩ := locate_eq_ok hl
        rw [List.reverse_cons] at hr hw
        have hfront : ∀ piece ∈ outer.reverse, piece ≠ "" := fun piece hm =>
          hne piece (List.mem_cons_of_mem _ (List.mem_reverse.mp hm))
        rcases isDirectory_of_walk_append hr
          (List.sublist_append_left _ _) hfront hw with hnil | hdir
        · rw [List.reverse_eq_nil_iff.mp hnil] at houter
          cases houter
        · rw [hmissing] at hdir
          cases hdir
    · rename_i hm
      rw [h] at hm
      exact hone hm

/-- Where the parent of a path could not be made, the path leads nowhere. -/
theorem locate_of_makeDirectories_error {made : Files} {fault : IoFault}
    (h : files.makeDirectories path.parent = (.error fault, made)) :
    ∃ fault, made.locate path = .error fault := by
  cases hl : made.locate path with
  | error fault => exact ⟨fault, rfl⟩
  | ok location =>
    rcases isDirectory_parent hl with hn | hd
    · rw [makeDirectories, hn] at h
      cases h
    · rw [makeDirectories] at h
      have hne : ∀ name ∈ path.parent.names.reverse, name ≠ "" := fun name hm =>
        Path.ne_empty_of_mem_names (List.mem_reverse.mp hm)
      have hmissing := isDirectory_of_makeDirectoriesOf_error hne h
      rw [List.reverse_reverse, hd] at hmissing
      cases hmissing

theorem read_eq_ok {content : Bytes} (h : files.read path = .ok content) :
    ∃ location stamp, files.locate path = .ok location
      ∧ files.root.find location = .ok (.file content stamp) := by
  rw [read, node] at h
  cases hl : files.locate path with
  | error fault => simp [hl] at h
  | ok location =>
    simp only [hl] at h
    split at h
    · rename_i stamp hf
      exact ⟨location, stamp, rfl, Except.ok.inj h ▸ hf⟩
    · cases h
    · cases h
    · cases h

/-- A path behind which there is a file ends in a name, unless it has no pieces at all. -/
theorem ends_in_name_of_read {content : Bytes} (h : files.read path = .ok content)
    (hp : path.pieces ≠ []) :
    path.endsInDots = false ∧ path.endsInSlash = false := by
  obtain ⟨location, stamp, hl, hf⟩ := read_eq_ok h
  obtain ⟨_, hw⟩ := locate_eq_ok hl
  obtain ⟨front, piece, hpieces⟩ := (List.eq_nil_or_concat path.pieces).resolve_left hp
  rw [List.concat_eq_append] at hpieces
  rw [hpieces, Node.walk_append] at hw
  cases hplace : files.root.walk (files.origin path) front with
  | error fault => simp [hplace, Except.bind] at hw
  | ok place =>
    rw [hplace] at hw
    obtain ⟨hd, _, hstep⟩ :=
      Node.walk_cons_inv (show files.root.walk place [piece] = .ok location from hw)
    obtain rfl : place.step piece = location := Except.ok.inj hstep
    -- Behind a piece that is no name there would be a directory.
    have hname : ¬ (Path.staysInPlace piece = true ∨ piece = "..") := by
      intro hno
      obtain ⟨s, es, hf'⟩ := Node.find_step_of_no_name hd hno
      rw [hf] at hf'
      cases hf'
    rw [not_or, Bool.not_eq_true] at hname
    have hslash := Path.endsInSlash_of_name hpieces hname.1
    refine ⟨?_, hslash⟩
    rw [Path.endsInDots, Path.trimmed_of_not_endsInSlash hslash, hpieces,
      List.getLast?_concat]
    have hdot : piece ≠ "." := by
      rintro rfl
      exact absurd hname.1 (by decide)
    simp [hdot, hname.2]

/-- A file takes the place of a file. -/
theorem replace_of_read {old : Bytes} (h : files.read path = .ok old) (hp : path.pieces ≠ [])
    (content : Bytes) :
    ∃ after, files.replace path content = .ok after := by
  obtain ⟨hdots, hslash⟩ := ends_in_name_of_read h hp
  obtain ⟨location, stamp, hl, hf⟩ := read_eq_ok h
  have hentry : files.locateEntry path = .ok location := by
    rw [locateEntry, Path.trimmed_of_not_endsInSlash hslash]
    exact hl
  have hfree : fileOver content files.clock (some (.file old stamp))
    = .ok (.file content files.clock) := rfl
  obtain ⟨root, he⟩ := Node.edit_of_find_ok hf hfree
  refine ⟨{ files with root, clock := files.clock + 1 }, ?_⟩
  rw [replace, hentry]
  simp only [hdots, hslash, he, Except.map, Bool.false_eq_true, if_false]

end Files

end PacketClassifier
