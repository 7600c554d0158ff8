/-
Documents that can be read.

`Json.Legible depth` describes what a reader gives that goes so deep: integers have 64
bits, and containers nest no deeper (`Json.legible_of_value`). Settling repeated keys does
not change this (`Json.Legible.normal`). So the documents that are kept as text without
loss are those that can be read and have no floating-point number in them
(`Json.storable_iff`).
-/
import PacketClassifier.Proofs.Json.RoundTrip

namespace PacketClassifier

namespace Json

/-- Whether there is a floating-point number anywhere in a document. -/
inductive HasReal : Json → Prop where
  | here (x : Binary64) : HasReal (.real x)
  | item {x : Json} {xs : List Json} (hx : x ∈ xs) (h : HasReal x) : HasReal (.arr xs)
  | member {m : String × Json} {ms : Members} (hm : m ∈ ms) (h : HasReal m.2) :
      HasReal (.obj ms)

/-- What a reader can give that goes to the given depth. -/
inductive Legible : Nat → Json → Prop where
  | null (d : Nat) : Legible d .null
  | bool (d : Nat) (b : Bool) : Legible d (.bool b)
  | int (d : Nat) {n : Int} (hn : -0x8000000000000000 ≤ n ∧ n < 0x10000000000000000) :
      Legible d (.int n)
  | real (d : Nat) (x : Binary64) : Legible d (.real x)
  | str (d : Nat) (s : String) : Legible d (.str s)
  | arr {d : Nat} {xs : List Json} (h : ∀ x ∈ xs, Legible d x) : Legible (d + 1) (.arr xs)
  | obj {d : Nat} {ms : Members} (h : ∀ m ∈ ms, Legible d m.2) : Legible (d + 1) (.obj ms)

theorem Legible.depth_le {d : Nat} {j : Json} (h : j.Legible d) : j.depth ≤ d := by
  induction h with
  | null | bool | int | real | str => exact Nat.zero_le _
  | arr _ ih =>
    rw [depth]
    exact Nat.succ_le_succ (depthItems_le_iff.mpr ih)
  | obj _ ih =>
    rw [depth]
    exact Nat.succ_le_succ (depthMembers_le_iff.mpr ih)

theorem Legible.exact {d : Nat} {j : Json} (h : j.Legible d) (hr : ¬ j.HasReal) :
    j.Exact := by
  induction h with
  | null | bool | str => trivial
  | int _ hn => exact hn
  | real _ x => exact absurd (.here x) hr
  | arr _ ih => exact exactItems_iff.mpr fun x hx => ih x hx fun h => hr (.item hx h)
  | obj _ ih => exact exactMembers_iff.mpr fun m hm => ih m hm fun h => hr (.member hm h)

theorem Exact.not_hasReal {j : Json} (h : j.Exact) : ¬ j.HasReal := by
  intro hr
  induction hr with
  | here x => exact h
  | item hx _ ih => exact ih (exactItems_iff.mp h _ hx)
  | member hm _ ih => exact ih (exactMembers_iff.mp h _ hm)

/-- Settling repeated keys leaves of each object some of its members. -/
theorem Legible.normal {d : Nat} {j : Json} (h : j.Legible d) : j.normal.Legible d := by
  induction h with
  | null d => exact .null d
  | bool d b => exact .bool d b
  | int d hn => exact .int d hn
  | real d x => exact .real d x
  | str d s => exact .str d s
  | arr _ ih =>
    rw [Json.normal, normalItems_eq]
    refine .arr fun y hy => ?_
    obtain ⟨x, hx, rfl⟩ := List.mem_map.mp hy
    exact ih x hx
  | @obj d ms _ ih =>
    rw [Json.normal, normalMembers_eq]
    have hfold : ∀ (ms done : Members), (∀ m ∈ ms, m.2.normal.Legible d) →
        (∀ m ∈ done, m.2.Legible d) →
          ∀ m ∈ ms.foldl (fun done m => Assoc.insert m.1 m.2.normal done) done,
            m.2.Legible d := by
      intro ms
      induction ms with
      | nil => exact fun done _ hd => hd
      | cons m ms ih =>
        intro done hm hd
        refine ih _ (fun n hn => hm n (List.mem_cons_of_mem _ hn)) fun n hn => ?_
        rcases Assoc.mem_insert hn with rfl | hn
        · exact hm m List.mem_cons_self
        · exact hd n hn
    exact .obj (hfold ms [] ih fun _ h => absurd h List.not_mem_nil)

/-! ### What readers give -/

open Read

variable {cs rest : List Char} {j : Json}

theorem legible_of_numberOf? {negative : Bool} {whole fraction : List Char}
    {exponent : Option Int} (h : numberOf? negative whole fraction exponent = some j)
    (d : Nat) : j.Legible d := by
  rw [numberOf?] at h
  split at h
  · rename_i hfits
    obtain rfl := Option.some.inj h
    refine .int d ?_
    cases negative with
    | false =>
      have hlt : runValue whole < 0x10000000000000000 := of_decide_eq_true hfits.2.2
      rw [if_neg Bool.false_ne_true]
      omega
    | true =>
      have hle : 0 < runValue whole ∧ runValue whole ≤ 0x8000000000000000 :=
        of_decide_eq_true hfits.2.2
      rw [if_pos rfl]
      omega
  · obtain ⟨x, _, rfl⟩ := Option.map_eq_some_iff.mp h
    exact .real d x

theorem legible_of_unsigned? {negative : Bool} (h : unsigned? negative cs = some (j, rest))
    (d : Nat) :
    j.Legible d := by
  rw [unsigned?] at h
  obtain ⟨⟨whole, cs⟩, _, h⟩ := Option.bind_eq_some_iff.mp h
  simp only at h
  split at h
  · cases h
  · obtain ⟨⟨fraction, cs⟩, _, h⟩ := Option.bind_eq_some_iff.mp h
    obtain ⟨⟨exponent, cs⟩, _, h⟩ := Option.bind_eq_some_iff.mp h
    obtain ⟨number, hn, h⟩ := Option.bind_eq_some_iff.mp h
    obtain ⟨rfl, _⟩ := Prod.mk.inj (Option.some.inj h)
    exact legible_of_numberOf? hn d

theorem legible_of_number? (h : number? cs = some (j, rest)) (d : Nat) : j.Legible d := by
  unfold number? at h
  split at h
  · exact legible_of_unsigned? h d
  · exact legible_of_unsigned? h d

theorem legible_of_scalar? (h : scalar? cs = some (j, rest)) (d : Nat) : j.Legible d := by
  unfold scalar? at h
  split at h
  · cases h
    exact .null d
  · cases h
    exact .bool d true
  · cases h
    exact .bool d false
  · obtain ⟨⟨text, _⟩, _, h⟩ := Option.map_eq_some_iff.mp h
    obtain ⟨rfl, _⟩ := Prod.mk.inj h
    exact .str d _
  · exact legible_of_number? h d

section Containers

variable {d : Nat} {item : List Char → Option (Json × List Char)}

theorem legible_of_items (hi : ∀ {cs rest j}, item cs = some (j, rest) → j.Legible d)
    {bound : List Char} :
    ∀ {cs rest xs}, items item bound cs = some (xs, rest) → ∀ x ∈ xs, x.Legible d := by
  induction bound with
  | nil => exact fun h => nomatch h
  | cons c bound ih =>
    intro cs rest xs h
    rw [items] at h
    split at h
    · cases h
    · rename_i x rest' hx
      split at h
      · obtain ⟨⟨ys, _⟩, hys, h⟩ := Option.map_eq_some_iff.mp h
        obtain ⟨rfl, _⟩ := Prod.mk.inj h
        exact List.forall_mem_cons.mpr ⟨hi hx, ih hys⟩
      · obtain ⟨rfl, _⟩ := Prod.mk.inj (Option.some.inj h)
        exact List.forall_mem_singleton.mpr (hi hx)
      · cases h

theorem legible_of_members {key : List Char → Option (String × List Char)}
    (hi : ∀ {cs rest j}, item cs = some (j, rest) → j.Legible d) {bound : List Char} :
    ∀ {cs rest ms}, members key (fun _ => item) bound cs = some (ms, rest) → ∀ m ∈ ms,
      m.2.Legible d := by
  induction bound with
  | nil => exact fun h => nomatch h
  | cons c bound ih =>
    intro cs rest ms h
    rw [members] at h
    split at h
    · cases h
    · split at h
      · cases h
      · rename_i v rest' hv
        split at h
        · obtain ⟨⟨ns, _⟩, hns, h⟩ := Option.map_eq_some_iff.mp h
          obtain ⟨rfl, _⟩ := Prod.mk.inj h
          exact List.forall_mem_cons.mpr ⟨hi hv, ih hns⟩
        · obtain ⟨rfl, _⟩ := Prod.mk.inj (Option.some.inj h)
          exact List.forall_mem_singleton.mpr (hi hv)
        · cases h

theorem legible_of_array (hi : ∀ {cs rest j}, item cs = some (j, rest) → j.Legible d)
    (h : array item cs = some (j, rest)) : j.Legible (d + 1) := by
  unfold array at h
  split at h
  · cases h
    exact .arr fun _ h => absurd h List.not_mem_nil
  · obtain ⟨⟨xs, _⟩, hxs, h⟩ := Option.map_eq_some_iff.mp h
    obtain ⟨rfl, _⟩ := Prod.mk.inj h
    exact .arr (legible_of_items hi hxs)

theorem legible_of_object {key : List Char → Option (String × List Char)}
    (hi : ∀ {cs rest j}, item cs = some (j, rest) → j.Legible d)
    (h : object key (fun _ => item) cs = some (j, rest)) : j.Legible (d + 1) := by
  unfold object at h
  split at h
  · cases h
    exact .obj fun _ h => absurd h List.not_mem_nil
  · obtain ⟨⟨ms, _⟩, hms, h⟩ := Option.map_eq_some_iff.mp h
    obtain ⟨rfl, _⟩ := Prod.mk.inj h
    exact .obj (legible_of_members hi hms)

end Containers

theorem legible_of_value {d : Nat} :
    ∀ {cs rest j}, value d cs = some (j, rest) → j.Legible d := by
  induction d with
  | zero =>
    intro cs rest j h
    rw [value] at h
    exact legible_of_scalar? h 0
  | succ d ih =>
    intro cs rest j h
    rw [value] at h
    split at h
    · exact legible_of_array ih h
    · exact legible_of_object ih h
    · exact legible_of_scalar? h _

theorem legible_of_ofText? (h : ofText? cs = some j) : j.Legible maxDepth := by
  rw [ofText?, ofTextWithin?] at h
  obtain ⟨i, hi, rfl⟩ := Option.map_eq_some_iff.mp h
  obtain ⟨⟨x, rest⟩, hx, h⟩ := Option.bind_eq_some_iff.mp hi
  simp only at h
  split at h
  · obtain rfl := Option.some.inj h
    exact (legible_of_value hx).normal
  · cases h

/-- The documents that are kept as text without loss are those that can be read and have
no floating-point number. -/
theorem storable_iff : j.Storable ↔ (∃ text, ofText? text = some j) ∧ ¬ j.HasReal := by
  constructor
  · intro h
    exact ⟨⟨j.pretty.toList, ofText?_pretty h⟩, h.exact.not_hasReal⟩
  · rintro ⟨⟨text, ht⟩, hr⟩
    have hlegible := legible_of_ofText? ht
    exact ⟨keyed_ofText? ht, hlegible.exact hr, hlegible.depth_le⟩

end Json

end PacketClassifier
