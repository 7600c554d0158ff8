/-
Records that are written are read back.

A record is written as an object of its fields. Fields without a value are left out, and
so is the mark of a rule that is not disabled; whatever else a document says in another
way comes down to this one form, which is read as the same record again. For rules,
operations and settings that is so for every record (`RuleConfig.reader_toJson`,
`Operation.reader_toJson`, `Settings.reader_toJson`). A group or classifier whose results
are null would come back without results, but no document is read as one
(`ClassifierConfig.results_eq_given?`).

* `Schema.Survives`: what it means that a record survives.
* `Schema.records_survive`: the records that do, and what becomes of the fields that can
  be left out.
-/
import PacketClassifier.Config.Classifier
import PacketClassifier.Proofs.Provision.Lines
import PacketClassifier.Proofs.Schema.Shape
import PacketClassifier.Settings

namespace PacketClassifier

open Json (Members)

namespace Schema

variable {α : Type} {name : String} {s : Source}

/-- Whether everything that is read survives being written: it is written as an object,
which is read as the very same and written as the same object again. -/
def Survives (read : Reader α) (write : α → Json) : Prop :=
  ∀ (j : Json) (a : α), read j = .ok a →
  ∃ ms, write a = .obj ms ∧ read (.obj ms) = .ok a ∧ ∀ b, read (.obj ms) = .ok b →
    write b = .obj ms

theorem survives_of_reads {read : Reader α} {write : α → Json}
    (hwrite : ∀ a, (write a).isObject)
    (hread : ∀ j a, read j = .ok a → read (write a) = .ok a) : Survives read write := by
  intro j a ha
  have hback := hread j a ha
  have hobject := hwrite a
  cases hms : write a with
  | obj ms =>
    rw [hms] at hback
    refine ⟨ms, rfl, hback, fun b hb => ?_⟩
    rw [← Except.ok.inj (hback.symm.trans hb), hms]
  | null | bool _ | int _ | real _ | str _ | arr _ =>
    rw [hms] at hobject
    cases hobject

/-! ### Values of fields -/

theorem word_ofWord (w : UInt32) : word (.ofWord w) = .ok w := by
  have hmax : w.toNat ≤ Numeral.max32 := Nat.le_of_lt_succ w.toNat_lt
  rw [Json.ofWord, word, if_pos ⟨Int.natCast_nonneg _, Int.ofNat_le.mpr hmax⟩]
  exact congrArg Except.ok UInt32.ofNat_toNat

theorem eq_of_map_eq_ok (j : Json) (ms : Members) (h : map j = .ok ms) : .obj ms = j := by
  cases j with
  | obj ns => rw [Except.ok.inj h]
  | null | bool _ | int _ | real _ | str _ | arr _ => cases h

/-- What a document says about a field, where null is as good as nothing. -/
def given? : Option Json → Option Json
  | some .null => none
  | j => j

/-- A field that may be null or left out has the value that is given. -/
theorem map_eq_given? {read : Reader α} (write : α → Json)
    (hw : ∀ j a, read j = .ok a → write a = j) {o : Option α}
    (h : (Shape.default name (nullable read) none).build s = .ok o) :
    o.map write = given? (s.get? name) := by
  rcases Shape.build_default_eq_ok_iff.mp h with ⟨hnone, rfl⟩ | ⟨j, hj, ho⟩
  · rw [hnone]
    rfl
  · rw [hj]
    cases j with
    | null =>
      obtain rfl := Except.ok.inj ho
      rfl
    | bool _ | int _ | real _ | str _ | arr _ | obj _ =>
      obtain ⟨a, ha, rfl⟩ := Steps.bind_pure_eq_ok_iff.mp ho
      rw [Option.map_some, hw _ a ha]
      rfl

/-- A value that is left out where there is none is read back. -/
theorem build_of_written {read : Reader α} (write : α → Json) {o : Option α}
    (hw : ∀ a, o = some a → nullable read (write a) = .ok (some a))
    (h : s.get? name = o.map write) :
    (Shape.default name (nullable read) none).build s = .ok o := by
  cases o with
  | none => exact Shape.build_default_eq_ok_iff.mpr (.inl ⟨h, rfl⟩)
  | some a => exact Shape.build_default_eq_ok_iff.mpr (.inr ⟨write a, h, hw a rfl⟩)

end Schema

open Schema (Shape Source given?)

namespace RuleConfig

theorem checked_shape : shape.Checked :=
  ((Shape.Checked.required.map.seq .default).seq .default).seq .default

/-- What a rule is made of. -/
theorem build_eq_ok_iff {s : Source} {r : RuleConfig} : shape.build s = .ok r ↔
    (Shape.required "number" Schema.word).build s = .ok r.number
      ∧ (Shape.default "result" Schema.string "").build s = .ok r.result
      ∧ (Shape.default "disable" (fun _ => .ok true) false).build s = .ok r.disabled
      ∧ (Shape.default "match" (Schema.nullable Schema.map) none).build s = .ok r.spec := by
  simp only [shape, Shape.build_seq_eq_ok_iff, Shape.build_map_eq_ok_iff]
  constructor
  · rintro ⟨_, spec, ⟨_, disabled, ⟨_, result, ⟨number, hnumber, rfl⟩, hresult, rfl⟩,
      hdisabled, rfl⟩, hspec, rfl⟩
    exact ⟨hnumber, hresult, hdisabled, hspec⟩
  · rintro ⟨hnumber, hresult, hdisabled, hspec⟩
    exact ⟨_, _, ⟨_, _, ⟨_, _, ⟨_, hnumber, rfl⟩, hresult, rfl⟩, hdisabled, rfl⟩, hspec, rfl⟩

/-- What a rule is written as. -/
theorem exists_members (r : RuleConfig) :
    ∃ ms : Members, r.toJson = .obj ms ∧ (Assoc.keys ms).Nodup
    ∧ ms.get? "number" = some (.ofWord r.number) ∧ ms.get? "result" = some (.str r.result)
    ∧ ms.get? "disable" = (if r.disabled then some (.bool true) else none)
    ∧ ms.get? "match" = r.spec.map .obj := by
  obtain ⟨number, result, disabled, spec⟩ := r
  refine ⟨_, rfl, ?_, rfl, rfl, ?_, ?_⟩
  · cases disabled <;> cases spec <;> simp [Assoc.keys]
  · cases disabled <;> cases spec <;> rfl
  · cases disabled <;> cases spec <;> rfl

/-- Every rule is read from what it is written as. -/
theorem reader_toJson (r : RuleConfig) : reader r.toJson = .ok r := by
  obtain ⟨ms, hms, hkeys, hnumber, hresult, hdisabled, hspec⟩ := r.exists_members
  rw [hms, reader, Schema.record_obj_eq_ok_iff checked_shape hkeys, build_eq_ok_iff]
  refine ⟨?_, ?_, ?_, ?_⟩
  · exact Shape.build_required_eq_ok_iff.mpr ⟨_, hnumber, Schema.word_ofWord r.number⟩
  · exact Shape.build_default_eq_ok_iff.mpr (.inr ⟨_, hresult, rfl⟩)
  · cases hd : r.disabled with
    | false =>
      exact Shape.build_default_eq_ok_iff.mpr
        (.inl ⟨by rw [hd] at hdisabled; exact hdisabled, rfl⟩)
    | true =>
      exact Shape.build_default_eq_ok_iff.mpr
        (.inr ⟨.bool true, by rw [hd] at hdisabled; exact hdisabled, rfl⟩)
  · exact Schema.build_of_written .obj (fun _ _ => rfl) hspec

/-- The mark and the match of a rule that was read are written if its document has them. -/
theorem written_of_reader {j : Json} {r : RuleConfig} (h : reader j = .ok r) :
    (r.toJson.get? "disable").isSome = (shape.field? "disable" j).isSome
      ∧ r.toJson.get? "match" = given? (shape.field? "match" j) := by
  obtain ⟨s, hbuild, hfield⟩ := Schema.exists_build_of_record h
  obtain ⟨_, _, hdisabled, hspec⟩ := build_eq_ok_iff.mp hbuild
  obtain ⟨ms, hms, _, _, _, hmark, hmatch⟩ := r.exists_members
  rw [hms, ← hfield, ← hfield, ← Schema.map_eq_given? .obj Schema.eq_of_map_eq_ok hspec]
  refine ⟨?_, hmatch⟩
  show (ms.get? "disable").isSome = _
  rcases Shape.build_default_eq_ok_iff.mp hdisabled with ⟨hnone, hd⟩ | ⟨v, hv, hd⟩
  · rw [hmark, hnone, hd]
    rfl
  · rw [hmark, hv, ← Except.ok.inj hd]
    rfl

end RuleConfig

namespace ClassifierConfig

variable {kind : ClassifierKind}

theorem checked_shape (kind : ClassifierKind) : (shape kind).Checked :=
  ((Shape.Checked.required.map.seq .default).seq .default).seq .default

/-- What a group or classifier is made of. -/
theorem build_eq_ok_iff {s : Source} {c : ClassifierConfig} : (shape kind).build s = .ok c ↔
    (Shape.required kind.nameField Schema.string).build s = .ok c.name
      ∧ (Shape.default kind.trafficField (Schema.nullable Schema.string) none).build s
          = .ok c.traffic
      ∧ (Shape.default "results" (Schema.nullable Schema.anything) none).build s
          = .ok c.results
      ∧ (Shape.default "rule" (Schema.sequence RuleConfig.reader) []).build s
          = .ok c.rules := by
  simp only [shape, Shape.build_seq_eq_ok_iff, Shape.build_map_eq_ok_iff]
  constructor
  · rintro ⟨_, rules, ⟨_, results, ⟨_, traffic, ⟨name, hname, rfl⟩, htraffic, rfl⟩, hresults,
      rfl⟩, hrules, rfl⟩
    exact ⟨hname, htraffic, hresults, hrules⟩
  · rintro ⟨hname, htraffic, hresults, hrules⟩
    exact ⟨_, _, ⟨_, _, ⟨_, _, ⟨_, hname, rfl⟩, htraffic, rfl⟩, hresults, rfl⟩, hrules, rfl⟩

/-- What a group or classifier is written as. -/
theorem exists_members (kind : ClassifierKind) (c : ClassifierConfig) : ∃ ms : Members,
    c.toJson kind = .obj ms ∧ (Assoc.keys ms).Nodup
      ∧ ms.get? kind.nameField = some (.str c.name)
      ∧ ms.get? kind.trafficField = c.traffic.map .str ∧ ms.get? "results" = c.results
      ∧ ms.get? "rule" = some (.arr (c.rules.map RuleConfig.toJson)) := by
  obtain ⟨name, traffic, results, rules⟩ := c
  refine ⟨_, rfl, ?_, ?_, ?_, ?_, ?_⟩
  · cases kind <;> cases traffic <;> cases results <;>
      simp [Assoc.keys, ClassifierKind.nameField, ClassifierKind.trafficField]
  · cases kind <;> rfl
  · cases kind <;> cases traffic <;> cases results <;> rfl
  · cases kind <;> cases traffic <;> cases results <;> rfl
  · cases kind <;> cases traffic <;> cases results <;> rfl

/-- No document is read as a group or classifier whose results are null. -/
theorem results_eq_given? {s : Source} {c : ClassifierConfig}
    (h : (shape kind).build s = .ok c) :
    c.results = given? (s.get? "results") := by
  obtain ⟨_, _, hresults, _⟩ := build_eq_ok_iff.mp h
  rw [← Schema.map_eq_given? id (fun _ _ hj => (Except.ok.inj hj).symm) hresults,
    Option.map_id, id]

theorem given?_ne_null (o : Option Json) : given? o ≠ some .null := by
  cases o with
  | none => exact fun h => nomatch h
  | some j => cases j <;> exact fun h => nomatch h

/-- A group or classifier that was read is read from what it is written as. -/
theorem reader_toJson {j : Json} {c : ClassifierConfig} (h : reader kind j = .ok c) :
    reader kind (c.toJson kind) = .ok c := by
  obtain ⟨s, hbuild, _⟩ := Schema.exists_build_of_record h
  have hnull : c.results ≠ some .null := results_eq_given? hbuild ▸ given?_ne_null _
  obtain ⟨ms, hms, hkeys, hname, htraffic, hresults, hrules⟩ := c.exists_members kind
  rw [hms, reader, Schema.record_obj_eq_ok_iff (checked_shape kind) hkeys, build_eq_ok_iff]
  refine ⟨?_, ?_, ?_, ?_⟩
  · exact Shape.build_required_eq_ok_iff.mpr ⟨_, hname, rfl⟩
  · exact Schema.build_of_written .str (fun _ _ => rfl) htraffic
  · refine Schema.build_of_written id (fun v hv => ?_) (by rw [Option.map_id]; exact hresults)
    cases v with
    | null => exact absurd hv hnull
    | bool _ | int _ | real _ | str _ | arr _ | obj _ => rfl
  · have hread : Schema.sequence RuleConfig.reader (.arr (c.rules.map RuleConfig.toJson))
        = .ok c.rules :=
      Steps.mapM_map_eq_ok RuleConfig.reader_toJson c.rules
    exact Shape.build_default_eq_ok_iff.mpr (.inr ⟨_, hrules, hread⟩)

end ClassifierConfig

/-- All settings are read from what they are written as. -/
theorem Settings.reader_toJson (s : Settings) : reader s.toJson = .ok s := by
  obtain ⟨groups, classifiers, fetchSocket, controllerSocket, log⟩ := s
  cases log <;> rfl

namespace Schema

/-- **Records survive being written.** Whatever document a rule, a group or classifier, an
operation or settings are read from, they are written as an object that is read as the
same record and written as the same object again. The object of a rule has the mark
exactly if the document has anything under its name, and it has the match and the results
that the document gives, where null is none. -/
theorem records_survive :
    Survives RuleConfig.reader RuleConfig.toJson
      ∧ (∀ kind, Survives (ClassifierConfig.reader kind) (ClassifierConfig.toJson kind))
      ∧ Survives Operation.reader Operation.toJson ∧ Survives Settings.reader Settings.toJson
      ∧ (∀ j r, RuleConfig.reader j = .ok r →
        (r.toJson.get? "disable").isSome = (RuleConfig.shape.field? "disable" j).isSome
          ∧ r.toJson.get? "match" = given? (RuleConfig.shape.field? "match" j))
      ∧ ∀ kind j c, ClassifierConfig.reader kind j = .ok c →
        (c.toJson kind).get? "results"
          = given? ((ClassifierConfig.shape kind).field? "results" j) := by
  refine ⟨?_, fun kind => ?_, ?_, ?_, fun _ _ => RuleConfig.written_of_reader,
    fun kind j c h => ?_⟩
  · exact survives_of_reads (fun _ => rfl) fun _ r _ => r.reader_toJson
  · exact survives_of_reads (fun _ => rfl) fun _ _ => ClassifierConfig.reader_toJson
  · exact survives_of_reads (fun _ => rfl) fun _ o _ => o.reader_toJson
  · exact survives_of_reads (fun _ => rfl) fun _ s _ => s.reader_toJson
  · obtain ⟨s, hbuild, hfield⟩ := exists_build_of_record h
    obtain ⟨ms, hms, _, _, _, hresults, _⟩ := c.exists_members kind
    rw [← hfield, ← ClassifierConfig.results_eq_given? hbuild, hms]
    exact hresults

/-- A group as an array of its fields. One rule is an array as well, with the mark of a
disabled rule but no match, and the other one has no match by a null and a field that
nobody knows. -/
def positionalGroup : Json :=
  .arr [.str "g", .null, .obj [("a", .null)],
    .arr [.arr [.int 7, .str "drop", .null],
      .obj [("match", .null), ("number", .int 8), ("vlan", .int 1)]]]

theorem records_survive_positional :
    ∃ c, ClassifierConfig.reader .group positionalGroup = .ok c ∧ c.traffic = none
      ∧ c.rules.map (fun r => (r.number, r.disabled, r.spec.isSome))
          = [(7, true, false), (8, false, false)]
      ∧ (∃ ms, c.toJson .group = .obj ms ∧ ClassifierConfig.reader .group (.obj ms) = .ok c)
      ∧ (c.toJson .group).get? "results" = some (.obj [("a", .null)]) := by
  obtain ⟨_, hclassifier, _, _, _, hresults⟩ := records_survive
  have hread : ClassifierConfig.reader .group positionalGroup
      = .ok ⟨"g", none, some (.obj [("a", .null)]),
          [⟨7, "drop", true, none⟩, ⟨8, "", false, none⟩]⟩ := rfl
  obtain ⟨ms, hms, hback, _⟩ := hclassifier .group positionalGroup _ hread
  exact ⟨_, hread, rfl, rfl, ⟨ms, hms, hback⟩, hresults .group positionalGroup _ hread⟩

end Schema

end PacketClassifier
