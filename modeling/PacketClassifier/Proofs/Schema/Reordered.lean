/-
Records do not depend on the order of keys.

A reader is steady if it takes documents that differ in the order of keys only for related
values, or refuses both. A shape is steady if its fields are, and then so is the reader of
the record (`Schema.steady_record`), although which mismatch it tells depends on the
order.
-/
import PacketClassifier.Proofs.Except
import PacketClassifier.Proofs.Json.Reordered
import PacketClassifier.Schema.Shape

namespace PacketClassifier

namespace Schema

open Json (Permuted Members)
open Steps (Alike)

variable {α β : Type} {R : α → α → Prop} {S : β → β → Prop}

/-- Whether a reader takes reordered documents for related values. -/
def Steady (R : α → α → Prop) (read : Reader α) : Prop :=
  ∀ i j, Permuted i j → Alike R (read i) (read j)

/-! ### Plain readers -/

theorem steady_word : Steady Eq word :=
  fun _ _ h => h.alike_scalar word (fun _ => ⟨_, rfl⟩) fun _ => ⟨_, rfl⟩

theorem steady_string : Steady Eq string :=
  fun _ _ h => h.alike_scalar string (fun _ => ⟨_, rfl⟩) fun _ => ⟨_, rfl⟩

theorem steady_map : Steady Members.Permuted map := by
  intro i j h
  cases i with
  | obj ms =>
    obtain ⟨ns, rfl, hms⟩ := h.obj
    exact .ok hms
  | arr xs =>
    obtain ⟨ys, rfl, _⟩ := h.arr
    exact .error trivial
  | null | bool _ | int _ | real _ | str _ =>
    cases h.reordered
    exact .error trivial

theorem steady_anything : Steady Permuted anything := fun _ _ h => .ok h

theorem steady_sequence {read : Reader α} (h : Steady R read) :
    Steady (List.Forall₂ R) (sequence read) := by
  intro i j hij
  cases i with
  | arr xs =>
    obtain ⟨ys, rfl, hs⟩ := hij.arr
    exact Steps.Related.mapM hs h
  | obj ms =>
    obtain ⟨ns, rfl, _⟩ := hij.obj
    exact .error trivial
  | null | bool _ | int _ | real _ | str _ =>
    cases hij.reordered
    exact .error trivial

theorem steady_nullable {read : Reader α} (h : Steady R read) :
    Steady (Option.Rel R) (nullable read) := by
  intro i j hij
  -- Anything but null is left to the reader.
  have hsome : Alike (Option.Rel R) (read i >>= fun a => pure (some a))
      (read j >>= fun a => pure (some a)) :=
    (h i j hij).map fun _ _ hab => .some hab
  cases i with
  | null =>
    cases hij.reordered
    exact .ok .none
  | obj ms =>
    obtain ⟨ns, rfl, _⟩ := hij.obj
    exact hsome
  | arr xs =>
    obtain ⟨ys, rfl, _⟩ := hij.arr
    exact hsome
  | bool _ | int _ | real _ | str _ =>
    cases hij.reordered
    exact hsome

/-! ### Fields -/

/-- Whether two sources have the same fields up to the order of keys. -/
structure Source.Alike (s t : Source) : Prop where
  get? : ∀ name, Option.Rel Permuted (s.get? name) (t.get? name)

/-- Whether a shape reads sources that are alike as related records, and its fields refuse
reordered documents together. -/
structure Shape.Steady (R : α → α → Prop) (shape : Shape α) : Prop where
  checks : ∀ f ∈ shape.fields, ∀ i j, Permuted i j → (f.2 i).isSome = (f.2 j).isSome
  build : ∀ s t, s.Alike t → Alike R (shape.build s) (shape.build t)

theorem isSome_mismatch? {read : Reader α} (h : Schema.Steady R read) {i j : Json}
    (hij : Permuted i j) :
    (mismatch? read i).isSome = (mismatch? read j).isSome := by
  have hread := h i j hij
  rw [mismatch?, mismatch?]
  generalize read i = x, read j = y at hread ⊢
  cases hread with
  | ok _ => rfl
  | error _ => rfl

theorem alike_present? {read : Reader α} (h : Schema.Steady R read) {o p : Option Json}
    (hop : Option.Rel Permuted o p) :
    Alike (Option.Rel R) (present? read o) (present? read p) := by
  cases hop with
  | none => exact .ok .none
  | some hij => exact (h _ _ hij).map fun _ _ hab => .some hab

theorem Shape.steady_seq {f : Shape (α → β)} {a : Shape α}
    (hf : f.Steady fun g k => ∀ a b, R a b → S (g a) (k b)) (ha : a.Steady R) :
    (f <*> a).Steady S := by
  constructor
  · intro c hc
    rcases List.mem_append.mp hc with hc | hc
    · exact hf.checks c hc
    · exact ha.checks c hc
  · intro s t hst
    exact (hf.build s t hst).bind fun g k hgk => (ha.build s t hst).map hgk

theorem Shape.steady_map {f : α → β} {a : Shape α} (hf : ∀ a b, R a b → S (f a) (f b))
    (ha : a.Steady R) :
    (f <$> a).Steady S := by
  have hpure : (pure f : Shape (α → β)).Steady fun g k => ∀ a b, R a b → S (g a) (k b) :=
    ⟨fun _ hc => (nomatch hc), fun _ _ _ => .ok hf⟩
  exact steady_seq hpure ha

theorem Shape.steady_required {name : String} {read : Reader α} (h : Schema.Steady R read) :
    (Shape.required name read).Steady R := by
  constructor
  · intro c hc i j hij
    rw [List.mem_singleton.mp hc]
    exact isSome_mismatch? h hij
  · intro s t hst
    refine (alike_present? h (hst.get? name)).bind fun o p hop => ?_
    cases hop with
    | none => exact .error trivial
    | some hab => exact .ok hab

theorem Shape.steady_default {name : String} {read : Reader α} {value : α}
    (h : Schema.Steady R read) (hv : R value value) :
    (Shape.default name read value).Steady R := by
  constructor
  · intro c hc i j hij
    rw [List.mem_singleton.mp hc]
    exact isSome_mismatch? h hij
  · intro s t hst
    refine (alike_present? h (hst.get? name)).map fun o p hop => ?_
    cases hop with
    | none => exact hv
    | some hab => exact hab

/-! ### Records -/

theorem firstMismatch_cons (fields : List (String × (Json → Option Mismatch)))
    (m : String × Json) (ms : Members) :
    firstMismatch fields (m :: ms)
      = ((fields.lookup m.1).bind fun check => check m.2).or (firstMismatch fields ms) := by
  obtain ⟨k, v⟩ := m
  cases h : (fields.lookup k).bind fun check => check v <;> simp [firstMismatch, h]

theorem isSome_firstMismatch {fields : List (String × (Json → Option Mismatch))}
    (h : ∀ f ∈ fields, ∀ i j, Permuted i j → (f.2 i).isSome = (f.2 j).isSome)
    {ms ns : Members} (hms : Members.Permuted ms ns) :
    (firstMismatch fields ms).isSome = (firstMismatch fields ns).isSome := by
  obtain ⟨-, between, hs, hp⟩ := hms
  -- First the members change inside, and then they trade places.
  have hone : (firstMismatch fields ms).isSome = (firstMismatch fields between).isSome := by
    clear hp
    induction hs with
    | nil => rfl
    | @cons m n ms ns hm _ ih =>
      have hcheck : ((fields.lookup m.1).bind fun check => check m.2).isSome
          = ((fields.lookup n.1).bind fun check => check n.2).isSome := by
        rw [hm.key]
        cases hl : fields.lookup n.1 with
        | none => rfl
        | some check => exact h _ (Assoc.mem_of_lookup_eq_some hl) _ _ hm.value
      rw [firstMismatch_cons, firstMismatch_cons, Option.isSome_or,
        Option.isSome_or, hcheck, ih]
  have hperm : (firstMismatch fields between).isSome = (firstMismatch fields ns).isSome := by
    rw [Bool.eq_iff_iff, firstMismatch, firstMismatch, List.findSome?_isSome_iff,
      List.findSome?_isSome_iff]
    simp only [hp.mem_iff]
  rw [hone, hperm]

/-- A record of steady fields is read alike whatever the order of keys is, at its own
level and below it. -/
theorem steady_record {name : String} {shape : Shape α} (h : shape.Steady R) :
    Steady R (record name shape) := by
  intro i j hij
  cases i with
  | obj ms =>
    obtain ⟨ns, rfl, hms⟩ := hij.obj
    -- Either both have a field that does not fit, or neither has, and then the record is
    -- built from all fields.
    have hfirst := isSome_firstMismatch h.checks hms
    rw [record, record, ofMembers, ofMembers]
    cases hm : firstMismatch shape.fields ms with
    | some m =>
      rw [hm, Option.isSome_some, eq_comm, Option.isSome_iff_exists] at hfirst
      obtain ⟨n, hn⟩ := hfirst
      rw [hn]
      exact .error trivial
    | none =>
      rw [hm, Option.isSome_none, eq_comm, Option.isSome_eq_false_iff,
        Option.isNone_iff_eq_none] at hfirst
      rw [hfirst]
      exact h.build _ _ ⟨fun name => hms.get? name⟩
  | arr xs =>
    obtain ⟨ys, rfl, hs⟩ := hij.arr
    rw [record, record, ofItems, ofItems, hs.length_eq]
    refine (h.build _ _ ⟨fun name => rel_getElem? hs _⟩).bind fun a b hab => ?_
    split
    · exact .error trivial
    · exact .ok hab
  | null | bool _ | int _ | real _ | str _ =>
    cases hij.reordered
    exact .error trivial

end Schema

end PacketClassifier
