/-
Documents in which no object has a key twice.

This is what the reader of documents gives, because it settles repeated keys
(`Json.keyed_ofText?`). In such documents equality up to the order of keys is what it
says: two equal objects have equal members under every key (`Json.get?_of_same`).

Proofs about documents go by `Json.induct`, which gives an assumption for every item of an
array and for every member of an object.
-/
import PacketClassifier.Json.Reader
import PacketClassifier.Proofs.Assoc
import Mathlib.Data.List.Perm.Subperm

namespace PacketClassifier

namespace Json

/-- Induction over documents. -/
theorem induct {motive : Json → Prop} (null : motive .null) (bool : ∀ b, motive (.bool b))
    (int : ∀ n, motive (.int n)) (real : ∀ x, motive (.real x)) (str : ∀ s, motive (.str s))
    (arr : ∀ xs, (∀ x ∈ xs, motive x) → motive (.arr xs))
    (obj : ∀ ms, (∀ m ∈ ms, motive m.2) → motive (.obj ms)) (j : Json) : motive j :=
  @Json.rec motive (fun xs => ∀ x ∈ xs, motive x) (fun ms => ∀ m ∈ ms, motive m.2)
    (fun m => motive m.2)
    null bool int real str arr obj (fun _ h => absurd h List.not_mem_nil)
    (fun _ _ hx hxs _ h => (List.mem_cons.mp h).elim (fun e => e ▸ hx) (hxs _))
    (fun _ h => absurd h List.not_mem_nil)
    (fun _ _ hm hms _ h => (List.mem_cons.mp h).elim (fun e => e ▸ hm) (hms _))
    (fun _ _ h => h) j

mutual

/-- Whether no object of a document has a key twice. -/
def Keyed : Json → Prop
  | .arr xs => KeyedItems xs
  | .obj ms => (Assoc.keys ms).Nodup ∧ KeyedMembers ms
  | _ => True
  termination_by structural j => j

/-- Whether no object in an item has a key twice. -/
def KeyedItems : List Json → Prop
  | [] => True
  | x :: xs => Keyed x ∧ KeyedItems xs
  termination_by structural xs => xs

/-- Whether no object in a value has a key twice. -/
def KeyedMembers : Members → Prop
  | [] => True
  | (_, v) :: ms => Keyed v ∧ KeyedMembers ms
  termination_by structural ms => ms

end

mutual

/-- Repeated keys can be looked for. -/
def decideKeyed : (j : Json) → Decidable j.Keyed
  | .arr xs => decideKeyedItems xs
  | .obj ms =>
    haveI := decideKeyedMembers ms
    inferInstanceAs (Decidable ((Assoc.keys ms).Nodup ∧ KeyedMembers ms))
  | .null | .bool _ | .int _ | .real _ | .str _ => .isTrue trivial
  termination_by structural j => j

/-- Repeated keys can be looked for in every item. -/
def decideKeyedItems : (xs : List Json) → Decidable (KeyedItems xs)
  | [] => .isTrue trivial
  | x :: xs =>
    haveI := decideKeyed x
    haveI := decideKeyedItems xs
    inferInstanceAs (Decidable (Keyed x ∧ KeyedItems xs))
  termination_by structural xs => xs

/-- Repeated keys can be looked for in every value. -/
def decideKeyedMembers : (ms : Members) → Decidable (KeyedMembers ms)
  | [] => .isTrue trivial
  | (_, v) :: ms =>
    haveI := decideKeyed v
    haveI := decideKeyedMembers ms
    inferInstanceAs (Decidable (Keyed v ∧ KeyedMembers ms))
  termination_by structural ms => ms

end

instance : DecidablePred Keyed := decideKeyed

theorem keyedItems_iff {xs : List Json} : KeyedItems xs ↔ ∀ x ∈ xs, Keyed x := by
  induction xs with
  | nil => simp [KeyedItems]
  | cons x xs ih => simp [KeyedItems, ih]

theorem keyedMembers_iff {ms : Members} : KeyedMembers ms ↔ ∀ m ∈ ms, Keyed m.2 := by
  induction ms with
  | nil => simp [KeyedMembers]
  | cons m ms ih => simp [KeyedMembers, ih]

theorem keyed_arr {xs : List Json} : Keyed (.arr xs) ↔ ∀ x ∈ xs, Keyed x := by
  rw [Keyed, keyedItems_iff]

theorem keyed_obj {ms : Members} :
    Keyed (.obj ms) ↔ (Assoc.keys ms).Nodup ∧ ∀ m ∈ ms, Keyed m.2 := by
  rw [Keyed, keyedMembers_iff]

theorem Keyed.get? {j v : Json} {key : String} (h : j.Keyed) (hv : j.get? key = some v) :
    v.Keyed := by
  cases j with
  | obj ms => exact (keyed_obj.mp h).2 _ (Assoc.mem_of_lookup_eq_some hv)
  | null | bool _ | int _ | real _ | str _ | arr _ => cases hv

/-! ### Settling repeated keys -/

theorem Members.insert_eq (key : String) (value : Json) (ms : Members) :
    Members.insert key value ms = Assoc.insert key value ms := by
  induction ms with
  | nil => rfl
  | cons m ms ih =>
    rw [Members.insert, Assoc.insert, ih]
    by_cases h : m.1 = key
    · rw [if_pos h, if_pos (beq_iff_eq.mpr h)]
    · rw [if_neg h, if_neg (by simpa using h)]

theorem normalItems_eq (xs : List Json) : normalItems xs = xs.map normal := by
  induction xs with
  | nil => rfl
  | cons x xs ih => rw [normalItems, ih, List.map_cons]

theorem normalMembers_eq (ms done : Members) :
    normalMembers done ms
      = ms.foldl (fun done m => Assoc.insert m.1 (normal m.2) done) done := by
  induction ms generalizing done with
  | nil => rfl
  | cons m ms ih => rw [normalMembers, ih, Members.insert_eq, List.foldl_cons]

theorem keyed_foldl_insert {ms : Members} (hm : ∀ m ∈ ms, Keyed (normal m.2)) :
    ∀ done, Keyed (.obj done) →
      Keyed (.obj (ms.foldl (fun done m => Assoc.insert m.1 (normal m.2) done) done)) := by
  induction ms with
  | nil => exact fun done h => h
  | cons m ms ih =>
    intro done h
    rw [keyed_obj] at h
    refine ih (fun n hn => hm n (List.mem_cons_of_mem _ hn)) _
      (keyed_obj.mpr ⟨?_, fun e he => ?_⟩)
    · exact Assoc.nodup_keys_insert _ h.1
    · rcases Assoc.mem_insert he with rfl | he
      · exact hm m List.mem_cons_self
      · exact h.2 e he

/-- Settling repeated keys leaves none. -/
theorem keyed_normal (j : Json) : j.normal.Keyed := by
  induction j using induct with
  | null | bool _ | int _ | real _ | str _ => trivial
  | arr xs ih =>
    rw [normal, normalItems_eq, keyed_arr]
    intro x hx
    obtain ⟨y, hy, rfl⟩ := List.mem_map.mp hx
    exact ih y hy
  | obj ms ih =>
    rw [normal, normalMembers_eq]
    exact keyed_foldl_insert ih []
      (keyed_obj.mpr ⟨List.nodup_nil, fun _ h => absurd h List.not_mem_nil⟩)

theorem keyed_ofText? {cs : List Char} {j : Json} (h : ofText? cs = some j) : j.Keyed := by
  obtain ⟨i, _, rfl⟩ := Option.map_eq_some_iff.mp h
  exact keyed_normal i

/-! ### Equality up to the order of keys -/

theorem sameMembers_iff {as bs : Members} :
    sameMembers as bs = true ↔ ∀ m ∈ as, ∃ b, bs.lookup m.1 = some b ∧ same m.2 b = true := by
  induction as with
  | nil => simp [sameMembers]
  | cons a as ih =>
    obtain ⟨k, v⟩ := a
    rw [sameMembers, Bool.and_eq_true, ih, List.forall_mem_cons, Members.get?]
    refine and_congr_left fun _ => ?_
    cases bs.lookup k <;> simp

theorem mem_keys_of_sameMembers {as bs : Members} (hn : (Assoc.keys as).Nodup)
    (hl : as.length = bs.length) (h : sameMembers as bs = true) {key : String}
    (hk : key ∈ Assoc.keys bs) : key ∈ Assoc.keys as := by
  have hsub : Assoc.keys as ⊆ Assoc.keys bs := by
    intro k hk
    obtain ⟨m, hm, rfl⟩ := List.mem_map.mp hk
    obtain ⟨b, hb, _⟩ := sameMembers_iff.mp h m hm
    exact Assoc.mem_keys_of_mem (Assoc.mem_of_lookup_eq_some hb)
  -- As many distinct keys as there are on the other side, so they are all of them.
  have hperm : (Assoc.keys as).Perm (Assoc.keys bs) := by
    refine (hn.subperm hsub).perm_of_length_le ?_
    simp only [Assoc.keys, List.length_map]
    omega
  exact hperm.mem_iff.mpr hk

/-- Equal documents have under every key either nothing or equal documents. -/
theorem get?_of_same {a b : Json} (ha : a.Keyed) (h : a.same b = true) (key : String) :
    (a.get? key = none ∧ b.get? key = none)
      ∨ ∃ v w, a.get? key = some v ∧ b.get? key = some w ∧ v.same w = true := by
  cases a with
  | obj as =>
    cases b with
    | obj bs =>
      rw [same, Bool.and_eq_true, beq_iff_eq] at h
      rw [keyed_obj] at ha
      show (as.lookup key = none ∧ bs.lookup key = none)
        ∨ ∃ v w, as.lookup key = some v ∧ bs.lookup key = some w ∧ _
      cases hv : as.lookup key with
      | some v =>
        obtain ⟨w, hw, hs⟩ := sameMembers_iff.mp h.2 _ (Assoc.mem_of_lookup_eq_some hv)
        exact .inr ⟨v, w, rfl, hw, hs⟩
      | none =>
        -- A key of the right side only would be one too many.
        refine .inl ⟨rfl, Assoc.lookup_eq_none_iff_not_mem_keys.mpr fun hk => ?_⟩
        exact Assoc.lookup_eq_none_iff_not_mem_keys.mp hv
          (mem_keys_of_sameMembers ha.1 h.1 h.2 hk)
    | _ => simp [same] at h
  | arr as =>
    cases b with
    | obj bs => simp [same] at h
    | _ => exact .inl ⟨rfl, rfl⟩
  | null | bool _ | int _ | real _ | str _ =>
    cases b with
    | obj bs => simp [same] at h
    | _ => exact .inl ⟨rfl, rfl⟩

end Json

end PacketClassifier
