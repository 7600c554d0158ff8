/-
What a record was read from.

A record has its fields from a source. For each way to make a shape there is a lemma that
says of which sources it makes a record, and which one. `Schema.build_of_record_obj` leads
from a record that was read from an object to the members of the object.

The fields of an object are checked in the order of its members before anything is made of
them. That only decides which mismatch is told: an object whose keys are distinct is read
as whatever is made of its members (`Schema.record_obj_eq_ok_iff`).
-/
import PacketClassifier.Proofs.Assoc
import PacketClassifier.Proofs.Except
import PacketClassifier.Schema.Shape

namespace PacketClassifier

namespace Schema

open Json (Members)

variable {α β : Type} {s : Source}

theorem Shape.build_seq_eq_ok_iff {f : Shape (α → β)} {a : Shape α} {b : β} :
    (f <*> a).build s = .ok b ↔ ∃ g x, f.build s = .ok g ∧ a.build s = .ok x ∧ g x = b := by
  show (f.build s >>= fun g => a.build s >>= fun x => pure (g x)) = .ok b ↔ _
  cases hf : f.build s with
  | error m => exact iff_of_false (fun h => nomatch h) fun ⟨_, _, h, _⟩ => nomatch h
  | ok g =>
    rw [Steps.ok_bind, Steps.bind_pure_eq_ok_iff]
    constructor
    · rintro ⟨x, hx, hb⟩
      exact ⟨g, x, rfl, hx, hb⟩
    · rintro ⟨g', x, hg, hx, hb⟩
      obtain rfl := Except.ok.inj hg
      exact ⟨x, hx, hb⟩

theorem Shape.build_map_eq_ok_iff {f : α → β} {a : Shape α} {b : β} :
    (f <$> a).build s = .ok b ↔ ∃ x, a.build s = .ok x ∧ f x = b := by
  show ((pure f : Shape (α → β)) <*> a).build s = .ok b ↔ _
  rw [Shape.build_seq_eq_ok_iff]
  constructor
  · rintro ⟨g, x, hg, hx, hb⟩
    obtain rfl := Except.ok.inj hg
    exact ⟨x, hx, hb⟩
  · rintro ⟨x, hx, hb⟩
    exact ⟨f, x, rfl, hx, hb⟩

/-- A required field has a value in the source, which is read. -/
theorem Shape.build_required_eq_ok_iff {name : String} {read : Reader α} {a : α} :
    (Shape.required name read).build s = .ok a ↔ ∃ j, s.get? name = some j
      ∧ read j = .ok a := by
  rw [Shape.required]
  cases hj : s.get? name with
  | none =>
    refine iff_of_false (fun h => ?_) fun ⟨_, h, _⟩ => nomatch h
    simp only [hj, present?] at h
    cases h
  | some j =>
    cases ha : read j with
    | error m =>
      refine iff_of_false (fun h => ?_) ?_
      · simp only [hj, present?, ha] at h
        cases h
      · rintro ⟨_, hi, h⟩
        rw [← Option.some.inj hi, ha] at h
        cases h
    | ok b =>
      simp only [hj, present?, ha, Option.some.injEq, exists_eq_left']
      rfl

/-- A field with a default has that value where the source has none. -/
theorem Shape.build_default_eq_ok_iff {name : String} {read : Reader α} {value a : α} :
    (Shape.default name read value).build s = .ok a ↔
      (s.get? name = none ∧ a = value) ∨ ∃ j, s.get? name = some j ∧ read j = .ok a := by
  rw [Shape.default]
  cases hj : s.get? name with
  | none =>
    simp only [hj, present?, true_and, reduceCtorEq, false_and, exists_false, or_false]
    exact ⟨fun h => (Except.ok.inj h).symm, fun h => congrArg Except.ok h.symm⟩
  | some j =>
    simp only [hj, present?, reduceCtorEq, false_and, false_or, Option.some.injEq,
      exists_eq_left']
    cases read j with
    | error m => exact iff_of_false (fun h => nomatch h) fun h => nomatch h
    | ok b => rfl

/-! ### Records from objects and arrays -/

theorem build_of_record_obj {name : String} {shape : Shape α} {ms : Members} {a : α}
    (h : record name shape (.obj ms) = .ok a) : shape.build (namedSource ms) = .ok a := by
  rw [record, ofMembers] at h
  split at h
  · cases h
  · exact h

/-- What a document has for a field of a record, in either form. -/
def Shape.field? (shape : Shape α) (name : String) : Json → Option Json
  | .obj ms => Members.get? ms name
  | .arr items => items[shape.names.idxOf name]?
  | _ => none

/-- A record is made of what its document has for the fields. -/
theorem exists_build_of_record {record : String} {shape : Shape α} {j : Json} {a : α}
    (h : Schema.record record shape j = .ok a) :
    ∃ s : Source, shape.build s = .ok a ∧ ∀ name, s.get? name = shape.field? name j := by
  cases j with
  | obj ms => exact ⟨_, build_of_record_obj h, fun _ => rfl⟩
  | arr items =>
    rw [Schema.record, ofItems] at h
    cases hb : shape.build (positionalSource record shape.names items) with
    | error m =>
      rw [hb] at h
      cases h
    | ok b =>
      rw [hb, Steps.ok_bind] at h
      split at h
      · cases h
      · exact ⟨_, Except.ok.inj h ▸ hb, fun _ => rfl⟩
  | null | bool _ | int _ | real _ | str _ => cases h

/-- Whether the fields that a record is made of pass their checks. -/
def Shape.Checked (shape : Shape α) : Prop := ∀ (s : Source) (a : α), shape.build s = .ok a →
  ∀ f ∈ shape.fields, ∀ j, s.get? f.1 = some j → f.2 j = none

theorem Shape.Checked.seq {f : Shape (α → β)} {a : Shape α} (hf : f.Checked)
    (ha : a.Checked) :
    (f <*> a).Checked := by
  intro s b hb c hc
  obtain ⟨g, x, hg, hx, _⟩ := Shape.build_seq_eq_ok_iff.mp hb
  rcases List.mem_append.mp hc with hc | hc
  · exact hf s g hg c hc
  · exact ha s x hx c hc

theorem Shape.Checked.map {f : α → β} {a : Shape α} (ha : a.Checked) : (f <$> a).Checked := by
  intro s b hb c hc
  obtain ⟨x, hx, _⟩ := Shape.build_map_eq_ok_iff.mp hb
  exact ha s x hx c hc

theorem Shape.Checked.required {name : String} {read : Reader α} :
    (Shape.required name read).Checked := by
  intro s a hb c hc j hj
  obtain rfl := List.mem_singleton.mp hc
  obtain ⟨i, hi, ha⟩ := Shape.build_required_eq_ok_iff.mp hb
  obtain rfl : i = j := Option.some.inj (hi.symm.trans hj)
  show mismatch? read i = none
  rw [mismatch?, ha]

theorem Shape.Checked.default {name : String} {read : Reader α} {value : α} :
    (Shape.default name read value).Checked := by
  intro s a hb c hc j hj
  obtain rfl := List.mem_singleton.mp hc
  rcases Shape.build_default_eq_ok_iff.mp hb with ⟨hnone, _⟩ | ⟨i, hi, ha⟩
  · cases hnone.symm.trans hj
  · obtain rfl : i = j := Option.some.inj (hi.symm.trans hj)
    show mismatch? read i = none
    rw [mismatch?, ha]

/-- An object whose keys are distinct is read as what is made of its members. -/
theorem record_obj_eq_ok_iff {name : String} {shape : Shape α} (hs : shape.Checked)
    {ms : Members} (hn : (Assoc.keys ms).Nodup) {a : α} :
    record name shape (.obj ms) = .ok a ↔ shape.build (namedSource ms) = .ok a := by
  refine ⟨build_of_record_obj, fun hb => ?_⟩
  have hfirst : firstMismatch shape.fields ms = none := by
    refine List.findSome?_eq_none_iff.mpr fun m hm =>
      Option.bind_eq_none_iff.mpr fun check hcheck => ?_
    exact hs _ a hb (m.1, check) (Assoc.mem_of_lookup_eq_some hcheck) m.2
      ((Assoc.lookup_eq_some_iff_mem hn).mpr hm)
  rw [record, ofMembers, hfirst]
  exact hb

theorem string_eq_ok_iff {j : Json} {text : String} :
    string j = .ok text ↔ j = .str text := by
  cases j with
  | str t => rw [string, Except.ok.injEq, Json.str.injEq]
  | null | bool _ | int _ | real _ | arr _ | obj _ =>
    exact iff_of_false (fun h => nomatch h) fun h => nomatch h

end Schema

end PacketClassifier
