/-
Which names of a model an earlier document had.

A model notes which of its names stood in an earlier document. The earlier document is not
read for that as entries are: the names are looked up in the items of its lists as they
stand. Of an item that is an object this gives the name that its reader takes
(`Model.name_of_reader`). But an entry may be an array of its fields as well, and then its
name is not found.

* `Model.mem_names_iff`: the names of a model are those of the entries of its document, of
  either form;
* `Model.namesIn_eq`: the names that are looked up are those of the entries that are objects;
* `Model.modified_of_earlier`: what both have to do with each other;
* `Model.modified_misses_positional`: a name that is missed.
-/
import PacketClassifier.Proofs.Model.Entries
import PacketClassifier.Proofs.Model.Reordered
import PacketClassifier.Proofs.Schema.Shape

namespace PacketClassifier

namespace Model

variable {kind : ClassifierKind} {doc : Json}

/-- The names of a model, those of groups first. -/
def names (m : Model) : List String := Assoc.keys m.groups ++ Assoc.keys m.classifiers

/-- The items of the list of a kind, none if there is no such list. -/
def itemsOf (kind : ClassifierKind) (doc : Json) : List Json :=
  ((list? kind doc).bind Json.items?).getD []

/-- The name of an entry as its reader takes it. -/
def nameRead? (kind : ClassifierKind) (item : Json) : Option String :=
  (ClassifierConfig.reader kind item).toOption.map ClassifierConfig.name

/-- The names of the entries of a kind that are written in a certain form. -/
def namesWritten (form : Json → Bool) (kind : ClassifierKind) (doc : Json) : List String :=
  ((itemsOf kind doc).filter form).filterMap (nameRead? kind)

/-- The names of the groups and then of the classifiers that are written in a certain form. -/
def entryNames (form : Json → Bool) (doc : Json) : List String :=
  namesWritten form .group doc ++ namesWritten form .classifier doc

/-! ### Names of entries -/

/-- An entry that is an object has the name that stands under the field of the name. -/
theorem name_of_reader {ms : Json.Members} {c : ClassifierConfig}
    (h : ClassifierConfig.reader kind (.obj ms) = .ok c) :
    ms.get? kind.nameField = some (.str c.name) := by
  have hbuild := Schema.build_of_record_obj h
  rw [ClassifierConfig.shape] at hbuild
  obtain ⟨_, rules, hresults, _, rfl⟩ := Schema.Shape.build_seq_eq_ok_iff.mp hbuild
  obtain ⟨_, results, htraffic, _, rfl⟩ := Schema.Shape.build_seq_eq_ok_iff.mp hresults
  obtain ⟨_, traffic, hrecord, _, rfl⟩ := Schema.Shape.build_seq_eq_ok_iff.mp htraffic
  obtain ⟨name, hrequired, rfl⟩ := Schema.Shape.build_map_eq_ok_iff.mp hrecord
  obtain ⟨j, hj, hname⟩ := Schema.Shape.build_required_eq_ok_iff.mp hrequired
  rw [Schema.string_eq_ok_iff.mp hname] at hj
  exact hj

theorem nameRead?_of_reader {item : Json} {c : ClassifierConfig}
    (h : ClassifierConfig.reader kind item = .ok c) :
    nameRead? kind item = some c.name := by
  rw [nameRead?, h]
  rfl

/-- The name of an entry is found under its field if the entry is an object, and not
otherwise. -/
theorem name_under_field {item : Json} {c : ClassifierConfig}
    (h : ClassifierConfig.reader kind item = .ok c) :
    (item.get? kind.nameField).bind Json.string? = if item.isObject then nameRead? kind item
      else none := by
  rw [nameRead?_of_reader h]
  cases item with
  | obj ms =>
    show (Json.Members.get? ms kind.nameField).bind Json.string? = _
    rw [name_of_reader h]
    rfl
  | arr _ => rfl
  | null | bool _ | int _ | real _ | str _ => cases h

/-! ### Lists of entries -/

/-- The entries of a kind are what the items of its list are read as. -/
theorem forall₂_of_entries {cs : List ClassifierConfig} (h : entries kind doc = .ok cs) :
    List.Forall₂ (fun item c => ClassifierConfig.reader kind item = .ok c)
      (itemsOf kind doc) cs := by
  rw [entries] at h
  rw [itemsOf]
  cases hlist : list? kind doc with
  | none =>
    rw [hlist] at h
    obtain rfl := Except.ok.inj h
    exact .nil
  | some list =>
    rw [hlist] at h
    cases list with
    | arr items =>
      have hread : items.mapM (ClassifierConfig.reader kind) = .ok cs := by
        simp only [Schema.read, Schema.sequence] at h
        split at h
        · rename_i ds hds
          rw [hds, Except.ok.inj h]
        · cases h
      exact Steps.mapM_eq_ok_iff.mp hread
    | null | bool _ | int _ | real _ | str _ | obj _ => cases h

/-- The names of all entries, of either form. -/
theorem namesWritten_true {cs : List ClassifierConfig} (h : entries kind doc = .ok cs) :
    namesWritten (fun _ => true) kind doc = cs.map ClassifierConfig.name := by
  have hall := forall₂_of_entries h
  rw [namesWritten, List.filter_true]
  generalize itemsOf kind doc = items at hall ⊢
  clear h
  induction hall with
  | nil => rfl
  | cons hc _ ih => rw [List.filterMap_cons_some (nameRead?_of_reader hc), ih, List.map_cons]

/-- The names that are looked up in the list of a kind are those of the entries that are
objects. -/
theorem namesOf_eq {cs : List ClassifierConfig} (h : entries kind doc = .ok cs) :
    namesOf kind doc = namesWritten Json.isObject kind doc := by
  have hlooked : namesOf kind doc
      = (itemsOf kind doc).filterMap fun item =>
          (item.get? kind.nameField).bind Json.string? := by
    rw [namesOf, itemsOf]
    cases list? kind doc with
    | none => rfl
    | some list => cases list <;> rfl
  have hread := Steps.exists_mapM_eq_ok_iff.mp ⟨cs,
    Steps.mapM_eq_ok_iff.mpr (forall₂_of_entries h)⟩
  rw [hlooked, namesWritten, List.filterMap_filter]
  refine List.filterMap_congr fun item hitem => ?_
  obtain ⟨c, hc⟩ := hread item hitem
  exact name_under_field hc

/-! ### Documents that compile -/

variable {old : Json} {older : Option Json} {m : Model}

/-- A document that compiles has entries, of both kinds. -/
theorem entries_of_build (h : build doc older = .ok m) (kind : ClassifierKind) :
    ∃ cs, entries kind doc = .ok cs := by
  obtain ⟨hgroups, hclassifiers⟩ := tables_of_build_eq_ok h
  cases kind with
  | group =>
    obtain ⟨cs, _, hcs, _⟩ := table_eq_ok_iff.mp hgroups
    exact ⟨cs, hcs⟩
  | classifier =>
    obtain ⟨cs, _, hcs, _⟩ := table_eq_ok_iff.mp hclassifiers
    exact ⟨cs, hcs⟩

theorem mem_keys_table_iff {t : List (String × Classifier)} (h : table kind doc = .ok t)
    (name : String) :
    name ∈ Assoc.keys t ↔ name ∈ namesWritten (fun _ => true) kind doc := by
  obtain ⟨cs, compiled, hcs, hall, rfl⟩ := table_eq_ok_iff.mp h
  rw [keys_table hall, List.mem_eraseDups, namesWritten_true hcs]

/-- The names of a model are those of the entries of its document, of either form. -/
theorem mem_names_iff (h : build doc older = .ok m) (name : String) :
    name ∈ m.names ↔ name ∈ entryNames (fun _ => true) doc := by
  obtain ⟨hgroups, hclassifiers⟩ := tables_of_build_eq_ok h
  rw [names, entryNames, List.mem_append, List.mem_append, mem_keys_table_iff hgroups,
    mem_keys_table_iff hclassifiers]

/-- The names that are looked up in a document are those of the entries that are objects. -/
theorem namesIn_eq (h : build doc older = .ok m) :
    namesIn (some doc) = entryNames Json.isObject doc := by
  obtain ⟨gs, hgs⟩ := entries_of_build h .group
  obtain ⟨cs, hcs⟩ := entries_of_build h .classifier
  rw [namesIn, entryNames, namesOf_eq hgs, namesOf_eq hcs]

/-- **Names of an earlier document.** Let a document and an earlier one compile. The names
that are noted are, in the order of the model, those of its names that an entry of the
earlier document has which is an object; and the names of the earlier model are those that
an entry of either form has. So where all entries of the earlier document are objects,
with their keys in whatever order and with fields that nobody knows, the names that are
noted are those of its names that the earlier model has too. -/
theorem modified_of_earlier {new : Json} {earlier later : Model}
    (ho : build old older = .ok earlier) (hn : build new (some old) = .ok later) :
    later.modified = later.names.filter (fun name => name ∈ entryNames Json.isObject old)
      ∧ (∀ name, name ∈ earlier.names ↔ name ∈ entryNames (fun _ => true) old)
      ∧ ((∀ kind, ∀ item ∈ itemsOf kind old, item.isObject) →
        later.modified = later.names.filter fun name => name ∈ earlier.names) := by
  have hmodified : later.modified
      = later.names.filter (fun name => name ∈ entryNames Json.isObject old) := by
    rw [modified_of_build hn, namesIn_eq ho]
    exact List.filter_congr fun name _ => List.contains_eq_mem name _
  refine ⟨hmodified, mem_names_iff ho, fun hobjects => ?_⟩
  have hall : ∀ kind, namesWritten Json.isObject kind old
      = namesWritten (fun _ => true) kind old := by
    intro kind
    rw [namesWritten, namesWritten, List.filter_true, List.filter_eq_self.mpr (hobjects kind)]
  rw [hmodified]
  refine List.filter_congr fun name _ => ?_
  rw [decide_eq_decide, mem_names_iff ho, entryNames, entryNames, hall, hall]

/-- A document whose groups are objects, with a field that nobody knows in front of the
name. -/
def extended : Json :=
  .obj [(resourcesKey, .obj
    [(classifiersKey, .obj [("group", .arr [.obj [("note", .null), ("group-name", .str "b")],
    .obj [("group-name", .str "a")]])])])]

theorem modified_of_earlier_extended :
    ∃ earlier later, build extended none = .ok earlier
      ∧ build repeated (some extended) = .ok later
      ∧ (∀ kind, ∀ item ∈ itemsOf kind extended, item.isObject)
      ∧ later.modified = ["a", "b", "b"]
      ∧ later.modified = later.names.filter fun name => name ∈ earlier.names := by
  obtain ⟨earlier, ho⟩ : ∃ m, build extended none = .ok m := ⟨⟨_, _, _⟩, by cbv⟩
  obtain ⟨later, hn, hlist⟩ : ∃ m, build repeated (some extended) = .ok m
      ∧ m.modified = ["a", "b", "b"] :=
    ⟨⟨_, _, _⟩, by cbv, by cbv⟩
  have hobjects : ∀ kind, ∀ item ∈ itemsOf kind extended, item.isObject := by
    intro kind
    cases kind <;> decide
  exact ⟨earlier, later, ho, hn, hobjects, hlist, (modified_of_earlier ho hn).2.2 hobjects⟩

/-- A group as an array of its fields, of which the others are left out. -/
def positional : Json := oneRule (.arr [.str "g"])

/-- A name is missed if the earlier document has it in an entry that is an array. -/
theorem modified_misses_positional :
    ∃ earlier later, build positional none = .ok earlier
      ∧ build (oneRule (.obj [("group-name", .str "g")])) (some positional) = .ok later
      ∧ later.modified = [] ∧ later.names.filter (fun name => name ∈ earlier.names)
          = ["g"] := by
  refine ⟨⟨[("g", ⟨.group, "g", .empty .ipv6⟩)], [], []⟩,
    ⟨[("g", ⟨.group, "g", .empty .ipv6⟩)], [], []⟩, ?_⟩
  exact ⟨by cbv, by cbv, rfl, by decide⟩

end Model

end PacketClassifier
