/-
Association lists whose keys are distinct.

Where no key stands twice, reading and membership say the same
(`Assoc.lookup_eq_some_iff_mem`), and writing keeps the keys distinct
(`Assoc.nodup_keys_insert`).

Inserting the entries of a list one after another leaves each key where its first entry
stands (`Assoc.keys_ofList`), with the value of its last one (`Assoc.lookup_ofList_iff`).

Two lists are parallel (`Assoc.Parallel`) if they have the same keys one by one, with
related values. Reading and writing keep that.
-/
import Mathlib.Data.List.Forall2
import Mathlib.Data.List.Induction
import PacketClassifier.Assoc

namespace PacketClassifier

namespace Assoc

variable {κ α : Type} [DecidableEq κ]

/-- A key is there exactly if reading it finds something. -/
theorem lookup_eq_none_iff_not_mem_keys {key : κ} {es : List (κ × α)} :
    es.lookup key = none ↔ key ∉ keys es := by
  induction es with
  | nil => simp [keys]
  | cons e es ih =>
    obtain ⟨k, v⟩ := e
    by_cases h : key = k
    · subst h
      simp [keys]
    · rw [List.lookup_cons, beq_false_of_ne h]
      show es.lookup key = none ↔ key ∉ k :: keys es
      rw [ih, List.mem_cons, not_or]
      exact ⟨fun hm => ⟨h, hm⟩, fun hm => hm.2⟩

omit [DecidableEq κ] in
theorem mem_keys_of_mem {key : κ} {value : α} {es : List (κ × α)} (h : (key, value) ∈ es) :
    key ∈ keys es :=
  List.mem_map.mpr ⟨(key, value), h, rfl⟩

theorem mem_of_lookup_eq_some {key : κ} {value : α} {es : List (κ × α)}
    (h : es.lookup key = some value) :
    (key, value) ∈ es := by
  induction es with
  | nil => simp at h
  | cons e es ih =>
    obtain ⟨k, v⟩ := e
    by_cases hk : key = k
    · subst hk
      rw [List.lookup_cons_self] at h
      rw [Option.some.inj h]
      exact List.mem_cons_self
    · rw [List.lookup_cons, beq_false_of_ne hk] at h
      exact List.mem_cons_of_mem _ (ih h)

/-- Where no key stands twice, reading finds every entry. -/
theorem lookup_eq_some_iff_mem {key : κ} {value : α} {es : List (κ × α)}
    (hn : (keys es).Nodup) :
    es.lookup key = some value ↔ (key, value) ∈ es := by
  refine ⟨mem_of_lookup_eq_some, fun h => ?_⟩
  induction es with
  | nil => simp at h
  | cons e es ih =>
    obtain ⟨k, v⟩ := e
    rw [keys, List.map_cons, List.nodup_cons] at hn
    -- The entry is the first one, or another one, and then its key differs from that of
    -- the first.
    rcases List.mem_cons.mp h with he | he
    · obtain ⟨rfl, rfl⟩ := Prod.mk.inj he
      exact List.lookup_cons_self
    · have hk : key ≠ k := fun e => hn.1 (e ▸ mem_keys_of_mem he)
      rw [List.lookup_cons, beq_false_of_ne hk]
      exact ih hn.2 he

/-- Where no key stands twice, the order of the entries does not matter. -/
theorem lookup_eq_of_perm {es ds : List (κ × α)} (hn : (keys es).Nodup) (hp : es.Perm ds)
    (key : κ) :
    es.lookup key = ds.lookup key := by
  have hd : (keys ds).Nodup := (hp.map _).nodup_iff.mp hn
  apply Option.ext
  intro value
  rw [lookup_eq_some_iff_mem hn, lookup_eq_some_iff_mem hd, hp.mem_iff]

theorem lookup_filter_of_ne {key other : κ} (h : key ≠ other) (es : List (κ × α)) :
    (es.filter fun e => e.1 != other).lookup key = es.lookup key := by
  induction es with
  | nil => rfl
  | cons e es ih =>
    obtain ⟨k, v⟩ := e
    by_cases hk : k = other
    · subst hk
      rw [List.filter_cons_of_neg (by simp), ih, List.lookup_cons, beq_false_of_ne h]
    · rw [List.filter_cons_of_pos (by simpa using hk), List.lookup_cons, List.lookup_cons, ih]

theorem lookup_filter_self (key : κ) (es : List (κ × α)) :
    (es.filter fun e => e.1 != key).lookup key = none := by
  rw [lookup_eq_none_iff_not_mem_keys, keys, List.mem_map]
  rintro ⟨e, he, rfl⟩
  simpa using (List.mem_filter.mp he).2

theorem mem_insert {key : κ} {value : α} {es : List (κ × α)} {e : κ × α}
    (h : e ∈ insert key value es) :
    e = (key, value) ∨ e ∈ es := by
  induction es with
  | nil =>
    left
    rw [insert, List.mem_singleton] at h
    exact h
  | cons d es ih =>
    rw [insert] at h
    split at h
    · rcases List.mem_cons.mp h with he | he
      · exact .inl he
      · exact .inr (List.mem_cons_of_mem _ he)
    · rcases List.mem_cons.mp h with he | he
      · exact .inr (he ▸ List.mem_cons_self)
      · exact (ih he).imp id (List.mem_cons_of_mem _)

theorem nodup_concat_if_new (key : κ) {ks : List κ} (h : ks.Nodup) :
    (if key ∈ ks then ks else ks ++ [key]).Nodup := by
  split
  · exact h
  · rename_i hk
    rw [List.nodup_append]
    refine ⟨h, List.pairwise_singleton _ key, fun a ha b hb => ?_⟩
    rw [List.mem_singleton] at hb
    exact fun e => hk (hb ▸ e ▸ ha)

theorem nodup_keys_insert {key : κ} {es : List (κ × α)} (value : α) (h : (keys es).Nodup) :
    (keys (insert key value es)).Nodup := by
  rw [keys_insert]
  exact nodup_concat_if_new key h

theorem insert_of_not_mem_keys {key : κ} {es : List (κ × α)} (value : α) (h : key ∉ keys es) :
    insert key value es = es ++ [(key, value)] := by
  induction es with
  | nil => rfl
  | cons e es ih =>
    rw [keys, List.map_cons, List.mem_cons, not_or] at h
    rw [insert, if_neg (by simpa using fun he => h.1 he.symm), ih h.2, List.cons_append]

/-- Where all keys are new and different, writes one after another only put entries to the
end. -/
theorem foldl_insert_of_nodup {β : Type} {f : α → β} {es : List (κ × α)} :
    ∀ {done : List (κ × β)}, (keys es).Nodup → (∀ k ∈ keys es, k ∉ keys done) →
      es.foldl (fun done e => insert e.1 (f e.2) done) done
        = done ++ es.map fun e => (e.1, f e.2) := by
  induction es with
  | nil => exact fun _ _ => (List.append_nil _).symm
  | cons e es ih =>
    intro done hn hnew
    rw [keys, List.map_cons, List.nodup_cons] at hn
    -- The key of this entry is new to the rest as well, so the induction goes on behind it.
    have hrest : ∀ k ∈ keys es, k ∉ keys (done ++ [(e.1, f e.2)]) := by
      intro k hk hm
      rw [keys, List.map_append, List.mem_append, List.map_singleton,
        List.mem_singleton] at hm
      rcases hm with hm | rfl
      · exact hnew k (List.mem_cons_of_mem _ hk) hm
      · exact hn.1 hk
    rw [List.foldl_cons, insert_of_not_mem_keys _ (hnew e.1 List.mem_cons_self),
      ih hn.2 hrest, List.map_cons, List.append_assoc, List.singleton_append]

/-! ### Inserting the entries of a list -/

theorem ofList_concat (es : List (κ × α)) (e : κ × α) :
    ofList (es ++ [e]) = insert e.1 e.2 (ofList es) := by
  rw [ofList, List.foldl_append]
  rfl

/-- Keys come in the order of their first entries. -/
theorem keys_ofList (es : List (κ × α)) : keys (ofList es) = (keys es).eraseDups := by
  induction es using List.reverseRecOn with
  | nil => rfl
  | append_singleton es e ih =>
    have hkeys : keys (es ++ [e]) = keys es ++ [e.1] := by
      rw [keys, List.map_append]
      rfl
    rw [ofList_concat, keys_insert, ih, hkeys, List.eraseDups_append]
    by_cases h : e.1 ∈ keys es
    · rw [if_pos (List.mem_eraseDups.mpr h)]
      simp [List.removeAll, h]
    · rw [if_neg fun he => h (List.mem_eraseDups.mp he)]
      simp [List.removeAll, List.eraseDups_cons, h]

/-- A key has the value of its last entry. -/
theorem lookup_ofList_of_last {front back : List (κ × α)} {e : κ × α} (h : e.1 ∉ keys back) :
    (ofList (front ++ e :: back)).lookup e.1 = some e.2 := by
  induction back using List.reverseRecOn with
  | nil => rw [ofList_concat, lookup_insert_self]
  | append_singleton back d ih =>
    rw [keys, List.map_append, List.mem_append, not_or, List.map_singleton,
      List.mem_singleton] at h
    rw [← List.cons_append, ← List.append_assoc, ofList_concat, lookup_insert_of_ne h.2]
    exact ih h.1

/-- What a key has is the value of its last entry. -/
theorem lookup_ofList_iff {es : List (κ × α)} {key : κ} {value : α} :
    (ofList es).lookup key = some value ↔ ∃ front back, es = front ++ (key, value) :: back
      ∧ key ∉ keys back := by
  constructor
  · induction es using List.reverseRecOn with
    | nil =>
      intro h
      cases h
    | append_singleton es d ih =>
      obtain ⟨k, v⟩ := d
      intro h
      rw [ofList_concat] at h
      by_cases hk : key = k
      · subst hk
        rw [lookup_insert_self, Option.some.injEq] at h
        obtain rfl : v = value := h
        exact ⟨es, [], rfl, List.not_mem_nil⟩
      · rw [lookup_insert_of_ne hk] at h
        obtain ⟨front, back, rfl, hback⟩ := ih h
        refine ⟨front, back ++ [(k, v)], by rw [List.append_assoc, List.cons_append], ?_⟩
        simpa [keys, hk] using hback
  · rintro ⟨front, back, rfl, hback⟩
    exact lookup_ofList_of_last (e := (key, value)) hback

theorem mem_of_mem_ofList {es : List (κ × α)} {e : κ × α} (h : e ∈ ofList es) : e ∈ es := by
  induction es using List.reverseRecOn with
  | nil => exact h
  | append_singleton es d ih =>
    rw [ofList_concat] at h
    rcases mem_insert h with rfl | h
    · exact List.mem_append_right es (List.mem_singleton_self d)
    · exact List.mem_append_left [d] (ih h)

/-! ### Values that are never overwritten -/

/-- A value that there is stays. -/
theorem lookup_insertNew (key other : κ) (value : α) (es : List (κ × α)) :
    (insertNew key value es).lookup other
      = (es.lookup other).or (if other = key then some value else none) := by
  rw [insertNew]
  split
  · rename_i hkey
    by_cases h : other = key
    · subst h
      rw [Option.or_of_isSome hkey]
    · rw [if_neg h, Option.or_none]
  · rw [List.lookup_append, List.lookup_cons, List.lookup_nil]
    by_cases h : other = key
    · rw [beq_iff_eq.mpr h, if_pos h]
    · rw [beq_false_of_ne h, if_neg h]

theorem keys_insertNew (key : κ) (value : α) (es : List (κ × α)) :
    keys (insertNew key value es) = if key ∈ keys es then keys es else keys es ++ [key] := by
  have hmem : (es.lookup key).isSome = true ↔ key ∈ keys es := by
    rw [Option.isSome_iff_ne_none, ne_eq, lookup_eq_none_iff_not_mem_keys, not_not]
  rw [insertNew]
  by_cases h : key ∈ keys es
  · rw [if_pos (hmem.mpr h), if_pos h]
  · rw [if_neg (mt hmem.mp h), if_neg h, keys, List.map_append]
    rfl

theorem nodup_keys_insertNew (key : κ) (value : α) {es : List (κ × α)} (h : (keys es).Nodup) :
    (keys (insertNew key value es)).Nodup := by
  rw [keys_insertNew]
  exact nodup_concat_if_new key h

theorem mem_keys_insertNew {key other : κ} {value : α} {es : List (κ × α)} :
    other ∈ keys (insertNew key value es) ↔ other ∈ keys es ∨ other = key := by
  rw [keys_insertNew]
  split
  · rename_i hk
    exact (or_iff_left_of_imp fun h => h ▸ hk).symm
  · rw [List.mem_append, List.mem_singleton]

/-- Keys that are set to one value one after another get it if they have none. -/
theorem lookup_foldl_insertNew (names : List κ) (value : α) (es : List (κ × α)) (other : κ) :
    (names.foldl (fun es key => insertNew key value es) es).lookup other
      = (es.lookup other).or (if other ∈ names then some value else none) := by
  induction names generalizing es with
  | nil => rw [List.foldl_nil, if_neg List.not_mem_nil, Option.or_none]
  | cons key names ih =>
    rw [List.foldl_cons, ih, lookup_insertNew, Option.or_assoc]
    by_cases h : other = key
    · rw [if_pos h, if_pos (List.mem_cons.mpr (.inl h)), Option.some_or]
    · simp only [List.mem_cons, h, false_or, if_false, Option.none_or]

/-! ### Lists with the same keys -/

/-- Whether two lists have the same keys one by one, with values that are related in a way
that the key may decide. -/
def Parallel {β : Type} (R : κ → α → β → Prop) : List (κ × α) → List (κ × β) → Prop :=
  List.Forall₂ fun e f => e.1 = f.1 ∧ R e.1 e.2 f.2

variable {β : Type} {R : κ → α → β → Prop} {es : List (κ × α)} {fs : List (κ × β)}

omit [DecidableEq κ] in
theorem Parallel.keys_eq (h : Parallel R es fs) : keys es = keys fs := by
  induction h with
  | nil => rfl
  | cons he _ ih =>
    rw [keys, keys, List.map_cons, List.map_cons, he.1]
    exact congrArg _ ih

theorem Parallel.lookup (h : Parallel R es fs) (key : κ) :
    Option.Rel (R key) (es.lookup key) (fs.lookup key) := by
  induction h with
  | nil => exact .none
  | @cons e f es fs hef _ ih =>
    obtain ⟨k, v⟩ := e
    obtain ⟨_, w⟩ := f
    obtain ⟨rfl, hv⟩ := hef
    by_cases hk : key = k
    · subst hk
      rw [List.lookup_cons_self, List.lookup_cons_self]
      exact .some hv
    · rw [List.lookup_cons, List.lookup_cons, beq_false_of_ne hk]
      exact ih

theorem Parallel.insert {key : κ} {v : α} {w : β} (hv : R key v w) (h : Parallel R es fs) :
    Parallel R (insert key v es) (insert key w fs) := by
  induction h with
  | nil => exact .cons ⟨rfl, hv⟩ .nil
  | @cons e f es fs hef hes ih =>
    rw [Assoc.insert, Assoc.insert, hef.1]
    by_cases hk : f.1 = key
    · rw [if_pos (beq_iff_eq.mpr hk), if_pos (beq_iff_eq.mpr hk)]
      exact .cons ⟨rfl, hv⟩ hes
    · rw [if_neg (by simpa using hk), if_neg (by simpa using hk)]
      exact .cons hef ih

end Assoc

end PacketClassifier
