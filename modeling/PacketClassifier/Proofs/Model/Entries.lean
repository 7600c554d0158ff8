/-
Groups and classifiers do not influence each other.

The entries of a document are compiled one after another into a table by name. Each is
compiled on its own, and all of them have to be; what comes of a name is what its last
entry compiles to.

* `Model.compileInto_eq`: compiling entries into a table is compiling them one by one and
  inserting what comes out.
* `Model.exists_table_iff`, `Model.table_eq_ok_iff`: when the entries of a kind compile,
  and to which table.
* `Model.lookup_table_of_last`, `Model.listed_table`: what a table has under a name, and
  what it lists.
* `Model.build_entry_by_entry`: what the entries have to do with the model.
-/
import Mathlib
import PacketClassifier.Model
import PacketClassifier.Proofs.Assoc
import PacketClassifier.Proofs.Except

namespace PacketClassifier

namespace Model

variable {kind : ClassifierKind} {doc : Json} {cs : List ClassifierConfig}
  {compiled : List Classifier} {t : List (String × Classifier)}

/-- Whether entries compile one by one to classifiers. -/
def CompileTo (kind : ClassifierKind) : List ClassifierConfig → List Classifier → Prop :=
  List.Forall₂ fun c k => Classifier.compile kind c = .ok k

/-- A compiled classifier under its own name. -/
def named (k : Classifier) : String × Classifier := (k.name, k)

theorem name_of_compile {c : ClassifierConfig} {k : Classifier}
    (h : Classifier.compile kind c = .ok k) :
    k.kind = kind ∧ k.name = c.name := by
  obtain ⟨s, _, rfl⟩ := Steps.bind_pure_eq_ok_iff.mp h
  exact ⟨rfl, rfl⟩

theorem CompileTo.names (h : CompileTo kind cs compiled) :
    Assoc.keys (compiled.map named) = cs.map ClassifierConfig.name := by
  induction h with
  | nil => rfl
  | @cons c k cs ks hc _ ih =>
    rw [List.map_cons, List.map_cons, Assoc.keys, List.map_cons, ← (name_of_compile hc).2]
    exact congrArg _ ih

theorem CompileTo.exists_of_mem (h : CompileTo kind cs compiled) {k : Classifier}
    (hk : k ∈ compiled) :
    ∃ c ∈ cs, Classifier.compile kind c = .ok k :=
  Steps.exists_of_mem_mapM (Steps.mapM_eq_ok_iff.mpr h) hk

/-- What an entry compiles to stands among the classifiers where the entry stands. -/
theorem CompileTo.split {front back : List ClassifierConfig} {c : ClassifierConfig}
    (h : CompileTo kind (front ++ c :: back) compiled) :
    ∃ before k after, compiled = before ++ k :: after
      ∧ Classifier.compile kind c = .ok k ∧ CompileTo kind back after := by
  induction front generalizing compiled with
  | nil =>
    obtain ⟨k, after, hc, hafter, rfl⟩ := List.forall₂_cons_left_iff.mp h
    exact ⟨[], k, after, rfl, hc, hafter⟩
  | cons d front ih =>
    obtain ⟨first, ks, -, hks, rfl⟩ := List.forall₂_cons_left_iff.mp h
    obtain ⟨before, k, after, rfl, hc, hafter⟩ := ih hks
    exact ⟨first :: before, k, after, rfl, hc, hafter⟩

/-- Compiling entries into a table is compiling them one by one and inserting what comes
out. -/
theorem compileInto_eq (kind : ClassifierKind) (t : List (String × Classifier))
    (cs : List ClassifierConfig) :
    compileInto kind t cs = cs.mapM (Classifier.compile kind) >>= fun ks =>
      pure (ks.foldl (fun t k => Assoc.insert k.name k t) t) := by
  induction cs generalizing t with
  | nil => rfl
  | cons c cs ih =>
    rw [compileInto, List.mapM_cons]
    cases Classifier.compile kind c with
    | error e => rfl
    | ok k =>
      show compileInto kind (Assoc.insert k.name k t) cs = _
      rw [ih]
      cases cs.mapM (Classifier.compile kind) with
      | error e => rfl
      | ok ks => rfl

/-! ### The table of a kind -/

/-- The entries of a kind compile exactly if they have the form of entries and each of
them compiles on its own. -/
theorem exists_table_iff : (∃ t, table kind doc = .ok t) ↔
    ∃ cs, entries kind doc = .ok cs ∧ ∀ c ∈ cs, ∃ k, Classifier.compile kind c = .ok k := by
  rw [table]
  cases entries kind doc with
  | error e =>
    constructor
    · rintro ⟨_, h⟩
      cases h
    · rintro ⟨_, h, _⟩
      cases h
  | ok cs =>
    rw [Steps.ok_bind, compileInto_eq, Steps.exists_bind_pure_eq_ok_iff,
      Steps.exists_mapM_eq_ok_iff]
    constructor
    · intro h
      exact ⟨cs, rfl, h⟩
    · rintro ⟨_, hcs, h⟩
      exact Except.ok.inj hcs ▸ h

/-- The table holds what the entries compile to, inserted one after another. -/
theorem table_eq_ok_iff : table kind doc = .ok t ↔ ∃ cs compiled, entries kind doc = .ok cs
    ∧ CompileTo kind cs compiled ∧ t = Assoc.ofList (compiled.map named) := by
  have hfold : ∀ ks : List Classifier,
      ks.foldl (fun t k => Assoc.insert k.name k t) [] = Assoc.ofList (ks.map named) := by
    intro ks
    rw [Assoc.ofList, List.foldl_map]
    rfl
  rw [table]
  constructor
  · intro h
    cases hcs : entries kind doc with
    | error e =>
      rw [hcs] at h
      cases h
    | ok cs =>
      rw [hcs, Steps.ok_bind, compileInto_eq, Steps.bind_pure_eq_ok_iff] at h
      obtain ⟨ks, hks, rfl⟩ := h
      exact ⟨cs, ks, rfl, Steps.mapM_eq_ok_iff.mp hks, hfold ks⟩
  · rintro ⟨cs, ks, hcs, hks, rfl⟩
    rw [hcs, Steps.ok_bind, compileInto_eq, Steps.bind_pure_eq_ok_iff]
    exact ⟨ks, Steps.mapM_eq_ok_iff.mpr hks, hfold ks⟩

theorem keys_table (h : CompileTo kind cs compiled) :
    Assoc.keys (Assoc.ofList (compiled.map named))
      = (cs.map ClassifierConfig.name).eraseDups := by
  rw [Assoc.keys_ofList, h.names]

/-- A name stands for its last entry. -/
theorem lookup_table_of_last {front back : List ClassifierConfig} {c : ClassifierConfig}
    (h : CompileTo kind (front ++ c :: back) compiled) (hlast : ∀ d ∈ back, d.name ≠ c.name) :
    ∃ k, Classifier.compile kind c = .ok k
      ∧ (Assoc.ofList (compiled.map named)).lookup c.name = some k := by
  obtain ⟨before, k, after, rfl, hc, hafter⟩ := h.split
  have hname := (name_of_compile hc).2
  refine ⟨k, hc, ?_⟩
  rw [List.map_append, List.map_cons, ← hname]
  refine Assoc.lookup_ofList_of_last (e := named k) ?_
  rw [hafter.names]
  intro hm
  obtain ⟨d, hd, he⟩ := List.mem_map.mp hm
  exact hlast d hd (he.trans hname)

theorem lookup_table_eq_none_iff (h : CompileTo kind cs compiled) (name : String) :
    (Assoc.ofList (compiled.map named)).lookup name = none ↔ ∀ c ∈ cs, c.name ≠ name := by
  rw [Assoc.lookup_eq_none_iff_not_mem_keys, keys_table h, List.mem_eraseDups, List.mem_map]
  constructor
  · intro hm c hc he
    exact hm ⟨c, hc, he⟩
  · rintro hm ⟨c, hc, he⟩
    exact hm c hc he

/-- What a table lists: its names in the order of their first entries, and each classifier
under its own name. -/
theorem listed_table (h : CompileTo kind cs compiled) :
    ((Assoc.ofList (compiled.map named)).map fun e => (e.2.kind, e.2.name))
      = (cs.map ClassifierConfig.name).eraseDups.map (Prod.mk kind) := by
  rw [← keys_table h, Assoc.keys, List.map_map]
  refine List.map_congr_left fun e he => ?_
  obtain ⟨k, hk, rfl⟩ := List.mem_map.mp (Assoc.mem_of_mem_ofList he)
  obtain ⟨c, _, hc⟩ := h.exists_of_mem hk
  exact Prod.ext (name_of_compile hc).1 rfl

theorem length_table (h : CompileTo kind cs compiled) :
    (Assoc.ofList (compiled.map named)).length
      = (cs.map ClassifierConfig.name).eraseDups.length := by
  rw [← keys_table h, Assoc.keys, List.length_map]

/-! ### The model -/

theorem exists_build_iff {old : Option Json} : (∃ m, build doc old = .ok m) ↔
    (∃ t, table .group doc = .ok t) ∧ ∃ t, table .classifier doc = .ok t := by
  rw [build]
  cases table .group doc with
  | error e =>
    constructor
    · rintro ⟨_, h⟩
      cases h
    · rintro ⟨⟨_, h⟩, _⟩
      cases h
  | ok groups =>
    rw [Steps.ok_bind, Steps.exists_bind_pure_eq_ok_iff]
    exact ⟨fun h => ⟨⟨groups, rfl⟩, h⟩, fun h => h.2⟩

theorem tables_of_build_eq_ok {old : Option Json} {m : Model} (h : build doc old = .ok m) :
    table .group doc = .ok m.groups ∧ table .classifier doc = .ok m.classifiers := by
  rw [build] at h
  cases hg : table .group doc with
  | error e =>
    rw [hg] at h
    cases h
  | ok groups =>
    rw [hg, Steps.ok_bind, Steps.bind_pure_eq_ok_iff] at h
    obtain ⟨classifiers, hc, rfl⟩ := h
    exact ⟨rfl, hc⟩

theorem modified_of_build {old : Option Json} {m : Model} (h : build doc old = .ok m) :
    m.modified = (Assoc.keys m.groups ++ Assoc.keys m.classifiers).filter fun name =>
      (namesIn old).contains name := by
  obtain ⟨hgroups, hclassifiers⟩ := tables_of_build_eq_ok h
  rw [build, hgroups, hclassifiers] at h
  rw [← Except.ok.inj h]

/-- **Entries do not influence each other.** A document compiles exactly if its groups and
classifiers have the form of such and each of them compiles on its own. A name then stands
for the last group of this name, as that compiles on its own, where there is one, else for
the last such classifier, and else for nothing. The model lists the names of the groups,
each where it first occurs, and then those of the classifiers, and its size is how many
these are. -/
theorem build_entry_by_entry (doc : Json) (old : Option Json) :
    ((∃ m, build doc old = .ok m) ↔
        ∃ gs cs, entries .group doc = .ok gs ∧ entries .classifier doc = .ok cs
          ∧ (∀ g ∈ gs, ∃ k, Classifier.compile .group g = .ok k)
          ∧ ∀ c ∈ cs, ∃ k, Classifier.compile .classifier c = .ok k)
      ∧ ∀ m, build doc old = .ok m →
        ∃ gs cs, entries .group doc = .ok gs ∧ entries .classifier doc = .ok cs
          ∧ (∀ front g back, gs = front ++ g :: back → (∀ d ∈ back, d.name ≠ g.name) →
            ∃ k, Classifier.compile .group g = .ok k ∧ m.get? g.name = some k)
          ∧ (∀ front c back, cs = front ++ c :: back → (∀ d ∈ back, d.name ≠ c.name) →
            (∀ g ∈ gs, g.name ≠ c.name) →
              ∃ k, Classifier.compile .classifier c = .ok k ∧ m.get? c.name = some k)
          ∧ (∀ name, m.get? name = none ↔ (∀ g ∈ gs, g.name ≠ name) ∧ ∀ c ∈ cs, c.name ≠ name)
          ∧ (m.toList.map fun k => (k.kind, k.name))
            = (gs.map ClassifierConfig.name).eraseDups.map (Prod.mk .group)
              ++ (cs.map ClassifierConfig.name).eraseDups.map (Prod.mk .classifier)
          ∧ m.size = (gs.map ClassifierConfig.name).eraseDups.length
            + (cs.map ClassifierConfig.name).eraseDups.length := by
  constructor
  · rw [exists_build_iff, exists_table_iff, exists_table_iff]
    constructor
    · rintro ⟨⟨gs, hgs, hg⟩, cs, hcs, hc⟩
      exact ⟨gs, cs, hgs, hcs, hg, hc⟩
    · rintro ⟨gs, cs, hgs, hcs, hg, hc⟩
      exact ⟨⟨gs, hgs, hg⟩, cs, hcs, hc⟩
  · intro m hm
    obtain ⟨hgroups, hclassifiers⟩ := tables_of_build_eq_ok hm
    obtain ⟨gs, groups, hgs, hg, hgt⟩ := table_eq_ok_iff.mp hgroups
    obtain ⟨cs, classifiers, hcs, hc, hct⟩ := table_eq_ok_iff.mp hclassifiers
    refine ⟨gs, cs, hgs, hcs, ?_, ?_, ?_, ?_, ?_⟩
    · rintro front g back rfl hlast
      obtain ⟨k, hk, hlookup⟩ := lookup_table_of_last hg hlast
      refine ⟨k, hk, ?_⟩
      rw [get?, hgt, hlookup]
      rfl
    · rintro front c back rfl hlast hno
      obtain ⟨k, hk, hlookup⟩ := lookup_table_of_last hc hlast
      refine ⟨k, hk, ?_⟩
      rw [get?, hgt, hct, (lookup_table_eq_none_iff hg c.name).mpr hno, hlookup]
      rfl
    · intro name
      rw [get?, hgt, hct, Option.or_eq_none_iff, lookup_table_eq_none_iff hg,
        lookup_table_eq_none_iff hc]
    · rw [toList, List.map_map, List.map_append, hgt, hct, ← listed_table hg,
        ← listed_table hc]
      rfl
    · rw [size, hgt, hct, length_table hg, length_table hc]

/-- A document in which names stand twice, in one list and in both. -/
def repeated : Json :=
  .obj [(resourcesKey, .obj [(classifiersKey, .obj [
    ("group", .arr [.obj [("group-name", .str "a")], .obj [("group-name", .str "b")],
      .obj [("group-name", .str "a"), ("ip-version", .str "ipv4")]]),
    ("classifier", .arr [.obj [("classifier-name", .str "b"), ("type", .str "ipv4")],
      .obj [("classifier-name", .str "c"), ("type", .str "ipv4")],
      .obj [("classifier-name", .str "c")]])])])]

theorem build_entry_by_entry_repeated :
    ∃ m, build repeated none = .ok m ∧ m.get? "a" = some ⟨.group, "a", .empty .ipv4⟩
      ∧ m.get? "b" = some ⟨.group, "b", .empty .ipv6⟩
      ∧ m.get? "c" = some ⟨.classifier, "c", .empty .ipv6⟩
      ∧ m.get? "d" = none
      ∧ (m.toList.map fun k => (k.kind, k.name))
        = [(.group, "a"), (.group, "b"), (.classifier, "b"), (.classifier, "c")]
      ∧ m.size = 4 := by
  have hgs : entries .group repeated = .ok [⟨"a", none, none, []⟩, ⟨"b", none, none, []⟩,
      ⟨"a", some "ipv4", none, []⟩] := by
    cbv
  have hcs : entries .classifier repeated
      = .ok [⟨"b", some "ipv4", none, []⟩, ⟨"c", some "ipv4", none, []⟩,
          ⟨"c", none, none, []⟩] := by cbv
  obtain ⟨hbuild, hmodel⟩ := build_entry_by_entry repeated none
  have hbare : ∀ kind (c : ClassifierConfig), c.rules = [] → ∃ k,
      Classifier.compile kind c = .ok k := by
    rintro kind ⟨name, traffic, results, _⟩ rfl
    exact ⟨_, rfl⟩
  obtain ⟨m, hm⟩ := hbuild.mpr ⟨_, _, hgs, hcs, by simp [hbare], by simp [hbare]⟩
  obtain ⟨gs, cs, hgs', hcs', hgroup, hclassifier, hnone, hlist, hsize⟩ := hmodel m hm
  obtain rfl := Except.ok.inj (hgs.symm.trans hgs')
  obtain rfl := Except.ok.inj (hcs.symm.trans hcs')
  obtain ⟨a, ha, hgeta⟩ := hgroup [_, _] _ [] rfl (by simp)
  obtain ⟨b, hb, hgetb⟩ := hgroup [_] _ [_] rfl (by simp)
  obtain ⟨c, hc, hgetc⟩ := hclassifier [_, _] _ [] rfl (by simp) (by simp)
  obtain rfl := Except.ok.inj ha
  obtain rfl := Except.ok.inj hb
  obtain rfl := Except.ok.inj hc
  exact ⟨m, hm, hgeta, hgetb, hgetc, (hnone "d").mpr (by simp), hlist.trans (by cbv),
    hsize.trans (by cbv)⟩

end Model

end PacketClassifier
