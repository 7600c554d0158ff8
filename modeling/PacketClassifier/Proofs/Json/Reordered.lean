/-
Documents that differ in the order of keys only.

`Json.Reordered` lets the members of every object trade places, at any depth, and keeps
the order of arrays. Where no key stands twice, such documents have the same members under
every key (`Json.Permuted.get?`), their members in ascending order are the same one by one
(`Json.Members.Permuted.sorted`), and they are equal (`Json.Permuted.same`) and equal to
the same documents (`Json.Permuted.same_congr`).
-/
import PacketClassifier.Proofs.Except
import PacketClassifier.Proofs.Json.Parallel

namespace PacketClassifier

namespace Json

mutual

/-- Whether documents differ in the order of keys only. -/
inductive Reordered : Json → Json → Prop where
  | null : Reordered .null .null
  | bool (b : Bool) : Reordered (.bool b) (.bool b)
  | int (n : Int) : Reordered (.int n) (.int n)
  | real (x : Binary64) : Reordered (.real x) (.real x)
  | str (s : String) : Reordered (.str s) (.str s)
  | arr {xs ys : List Json} (h : ReorderedItems xs ys) : Reordered (.arr xs) (.arr ys)
  /-- Members change inside, and then they trade places. -/
  | obj {ms ns ns' : Members} (h : ReorderedMembers ms ns) (hp : ns.Perm ns') :
      Reordered (.obj ms) (.obj ns')

/-- Whether this holds of items, one by one. -/
inductive ReorderedItems : List Json → List Json → Prop where
  | nil : ReorderedItems [] []
  | cons {x y : Json} {xs ys : List Json} (h : Reordered x y) (hs : ReorderedItems xs ys) :
    ReorderedItems (x :: xs) (y :: ys)

/-- Whether this holds of members of the same keys, one by one. -/
inductive ReorderedMembers : Members → Members → Prop where
  | nil : ReorderedMembers [] []
  | cons (k : String) {v w : Json} {ms ns : Members} (h : Reordered v w)
      (hs : ReorderedMembers ms ns) :
    ReorderedMembers ((k, v) :: ms) ((k, w) :: ns)

end

/-- Whether documents differ in the order of keys only, where no key stands twice. -/
structure Permuted (a b : Json) : Prop where
  keyed : a.Keyed
  reordered : a.Reordered b

/-- Whether two members have the same key and such documents under it. -/
structure SameKey (m n : String × Json) : Prop where
  key : m.1 = n.1
  value : Permuted m.2 n.2

/-- Whether the members of two objects are the same up to their order. -/
structure Members.Permuted (ms ns : Members) : Prop where
  nodup : (Assoc.keys ms).Nodup
  perm : ∃ between, List.Forall₂ SameKey ms between ∧ between.Perm ns

theorem ReorderedItems.forall₂ :
    ∀ {xs ys : List Json}, ReorderedItems xs ys → (∀ x ∈ xs, x.Keyed) →
    List.Forall₂ Permuted xs ys
  | _, _, .nil, _ => .nil
  | _, _, .cons h hs, hk =>
    .cons ⟨hk _ List.mem_cons_self, h⟩
      (hs.forall₂ fun x hx => hk x (List.mem_cons_of_mem _ hx))

theorem ReorderedMembers.forall₂ :
    ∀ {ms ns : Members}, ReorderedMembers ms ns → (∀ m ∈ ms, m.2.Keyed) →
    List.Forall₂ SameKey ms ns
  | _, _, .nil, _ => .nil
  | _, _, .cons _ h hs, hk =>
    .cons ⟨rfl, hk _ List.mem_cons_self, h⟩
      (hs.forall₂ fun m hm => hk m (List.mem_cons_of_mem _ hm))

theorem Permuted.arr {xs : List Json} {j : Json} (h : Permuted (.arr xs) j) :
    ∃ ys, j = .arr ys ∧ List.Forall₂ Permuted xs ys := by
  cases h.reordered with
  | arr hs => exact ⟨_, rfl, hs.forall₂ (keyed_arr.mp h.keyed)⟩

theorem Permuted.obj {ms : Members} {j : Json} (h : Permuted (.obj ms) j) :
    ∃ ns, j = .obj ns ∧ Members.Permuted ms ns := by
  have hk := keyed_obj.mp h.keyed
  cases h.reordered with
  | obj hs hp => exact ⟨_, rfl, hk.1, _, hs.forall₂ hk.2, hp⟩

/-- A reader that refuses all arrays and objects cannot tell reordered documents apart. -/
theorem Permuted.alike_scalar {ε α : Type} (read : Json → Except ε α) {i j : Json}
    (h : Permuted i j) (harr : ∀ xs, ∃ e, read (.arr xs) = .error e)
    (hobj : ∀ ms, ∃ e, read (.obj ms) = .error e) :
    Steps.Alike Eq (read i) (read j) := by
  cases i with
  | arr xs =>
    obtain ⟨ys, rfl, _⟩ := h.arr
    obtain ⟨e, he⟩ := harr xs
    obtain ⟨d, hd⟩ := harr ys
    rw [he, hd]
    exact .error trivial
  | obj ms =>
    obtain ⟨ns, rfl, _⟩ := h.obj
    obtain ⟨e, he⟩ := hobj ms
    obtain ⟨d, hd⟩ := hobj ns
    rw [he, hd]
    exact .error trivial
  | null | bool _ | int _ | real _ | str _ =>
    cases h.reordered
    exact .refl (fun _ => rfl) _

/-! ### Reading members -/

theorem parallel_of_sameKey {ms ns : Members} (h : List.Forall₂ SameKey ms ns) :
    Members.Parallel (fun _ => Permuted) ms ns :=
  h.imp fun _ _ hm => ⟨hm.key, hm.value⟩

theorem Members.Permuted.get? {ms ns : Members} (h : Members.Permuted ms ns) (k : String) :
    Option.Rel Json.Permuted (ms.get? k) (ns.get? k) := by
  obtain ⟨hn, between, hs, hp⟩ := h
  rw [(parallel_of_sameKey hs).keys_eq] at hn
  -- Trading places does not change what is found, because the keys are distinct.
  have hlookup : Members.get? between k = ns.get? k := Assoc.lookup_eq_of_perm hn hp k
  rw [← hlookup]
  exact (parallel_of_sameKey hs).get? k

theorem Members.Permuted.nodup_right {ms ns : Members} (h : Members.Permuted ms ns) :
    (Assoc.keys ns).Nodup := by
  obtain ⟨hn, between, hs, hp⟩ := h
  rw [(parallel_of_sameKey hs).keys_eq] at hn
  exact (hp.map _).nodup_iff.mp hn

theorem Members.Permuted.length_eq {ms ns : Members} (h : Members.Permuted ms ns) :
    ms.length = ns.length := by
  obtain ⟨_, between, hs, hp⟩ := h
  exact hs.length_eq.trans hp.length_eq

theorem Permuted.get? {a b : Json} (h : Permuted a b) (k : String) :
    Option.Rel Permuted (a.get? k) (b.get? k) := by
  cases a with
  | obj ms =>
    obtain ⟨ns, rfl, hms⟩ := h.obj
    exact hms.get? k
  | null | bool _ | int _ | real _ | str _ =>
    cases h.reordered
    exact .none
  | arr xs =>
    obtain ⟨ys, rfl, _⟩ := h.arr
    exact .none

theorem rel_bind_get? {o p : Option Json} (h : Option.Rel Permuted o p) (key : String) :
    Option.Rel Permuted (o.bind (·.get? key)) (p.bind (·.get? key)) := by
  cases h with
  | none => exact .none
  | some hij => exact hij.get? key

/-! ### Equality -/

theorem reordered_refl (j : Json) : j.Reordered j := by
  induction j using induct with
  | null => exact .null
  | bool b => exact .bool b
  | int n => exact .int n
  | real x => exact .real x
  | str s => exact .str s
  | arr xs ih =>
    refine .arr ?_
    induction xs with
    | nil => exact .nil
    | cons x xs ihs =>
      exact .cons (ih x List.mem_cons_self) (ihs fun y hy => ih y (List.mem_cons_of_mem _ hy))
  | obj ms ih =>
    refine .obj ?_ (List.Perm.refl ms)
    induction ms with
    | nil => exact .nil
    | cons m ms ihs =>
      exact .cons m.1 (ih m List.mem_cons_self)
        (ihs fun n hn => ih n (List.mem_cons_of_mem _ hn))

theorem Keyed.permuted {j : Json} (h : j.Keyed) : Permuted j j := ⟨h, reordered_refl j⟩

/-- Documents that differ in the order of keys only are equal. -/
theorem Permuted.same {a b : Json} (h : Permuted a b) : a.same b = true := by
  induction a using induct generalizing b with
  | null =>
    cases h.reordered
    rfl
  | bool b =>
    cases h.reordered
    exact beq_self_eq_true b
  | int n =>
    cases h.reordered
    exact beq_self_eq_true n
  | real x =>
    cases h.reordered
    show (x.bits == x.bits || _) = true
    rw [beq_self_eq_true, Bool.true_or]
  | str s =>
    cases h.reordered
    exact beq_self_eq_true s
  | arr xs ih =>
    obtain ⟨ys, rfl, hs⟩ := h.arr
    show sameItems xs ys = true
    clear h
    induction hs with
    | nil => rfl
    | @cons x y xs ys hxy _ ihs =>
      rw [sameItems, ih x List.mem_cons_self hxy, Bool.true_and]
      exact ihs fun z hz => ih z (List.mem_cons_of_mem _ hz)
  | obj ms ih =>
    obtain ⟨ns, rfl, hms⟩ := h.obj
    rw [Json.same, Bool.and_eq_true, beq_iff_eq, sameMembers_iff]
    refine ⟨hms.length_eq, fun m hm => ?_⟩
    -- On the other side stands a document of the same key that differs in the order of
    -- keys only.
    have hget := hms.get? m.1
    rw [Members.get?, Members.get?, (Assoc.lookup_eq_some_iff_mem hms.nodup).mpr hm] at hget
    generalize ns.lookup m.1 = o at hget ⊢
    cases hget with
    | some hv => exact ⟨_, rfl, ih m hm hv⟩

/-- Where no key stands twice on the left, members are compared key by key. -/
theorem sameMembers_iff_lookup {as bs : Members} (hn : (Assoc.keys as).Nodup) :
    sameMembers as bs = true ↔
    ∀ k, ∀ v ∈ as.lookup k, ∃ w ∈ bs.lookup k, v.same w = true := by
  rw [sameMembers_iff]
  constructor
  · intro h k v hv
    exact h (k, v) (Assoc.mem_of_lookup_eq_some hv)
  · intro h m hm
    exact h m.1 m.2 ((Assoc.lookup_eq_some_iff_mem hn).mpr hm)

/-- Equality cannot tell reordered documents apart. -/
theorem Permuted.same_congr {a a' b b' : Json} (ha : Permuted a a') (hb : Permuted b b') :
    a.same b = a'.same b' := by
  induction a using induct generalizing a' b b' with
  | null | bool _ | int _ | real _ | str _ =>
    cases ha.reordered
    cases hb.reordered <;> rfl
  | arr xs ih =>
    obtain ⟨ys, rfl, hs⟩ := ha.arr
    cases b with
    | arr bs =>
      obtain ⟨bs', rfl, hbs⟩ := hb.arr
      show sameItems xs bs = sameItems ys bs'
      clear ha hb
      induction hs generalizing bs bs' with
      | nil => cases hbs <;> rfl
      | @cons x y xs ys hxy _ ihs =>
        cases hbs with
        | nil => rfl
        | cons hb hbs =>
          rw [sameItems, sameItems, ih x List.mem_cons_self hxy hb,
            ihs (fun z hz => ih z (List.mem_cons_of_mem _ hz)) _ _ hbs]
    | obj ns =>
      obtain ⟨_, rfl, _⟩ := hb.obj
      rfl
    | null | bool _ | int _ | real _ | str _ =>
      cases hb.reordered
      rfl
  | obj ms ih =>
    obtain ⟨ms', rfl, hms⟩ := ha.obj
    cases b with
    | obj ns =>
      obtain ⟨ns', rfl, hns⟩ := hb.obj
      show (ms.length == ns.length && sameMembers ms ns)
        = (ms'.length == ns'.length && sameMembers ms' ns')
      rw [hms.length_eq, hns.length_eq, Bool.eq_iff_iff, Bool.and_eq_true, Bool.and_eq_true,
        sameMembers_iff_lookup hms.nodup, sameMembers_iff_lookup hms.nodup_right]
      refine and_congr_right fun _ => forall_congr' fun k => ?_
      -- Under each key both sides have values that are reordered, or none.
      have hm := hms.get? k
      have hn := hns.get? k
      have hmem : ∀ v ∈ ms.lookup k, (k, v) ∈ ms := fun v hv => Assoc.mem_of_lookup_eq_some hv
      rw [Members.get?, Members.get?] at hm hn
      generalize ms.lookup k = o, ms'.lookup k = o', ns.lookup k = p,
        ns'.lookup k = p' at hm hn hmem ⊢
      cases hm with
      | none => simp
      | some hv =>
        cases hn with
        | none => simp
        | some hw => simp [ih _ (hmem _ rfl) hv hw]
    | arr bs =>
      obtain ⟨_, rfl, _⟩ := hb.arr
      rfl
    | null | bool _ | int _ | real _ | str _ =>
      cases hb.reordered
      rfl

/-! ### Members in ascending order -/

theorem pairwise_sorted (ms : Members) : ms.sorted.Pairwise fun m n => keyLe m n = true := by
  have htrans : ∀ a b c, keyLe a b = true → keyLe b c = true → keyLe a c = true := by
    intro a b c hab hbc
    exact decide_eq_true (String.le_trans (of_decide_eq_true hab) (of_decide_eq_true hbc))
  have htotal : ∀ a b, (keyLe a b || keyLe b a) = true := by
    intro a b
    rw [Bool.or_eq_true]
    exact (String.le_total a.1 b.1).imp decide_eq_true decide_eq_true
  exact List.pairwise_mergeSort htrans htotal ms

theorem sorted_of_perm {ns ns' : Members} (hn : (Assoc.keys ns).Nodup) (hp : ns.Perm ns') :
    ns.sorted = ns'.sorted := by
  have hsorted : ns.sorted.Perm ns'.sorted :=
    (List.mergeSort_perm ns _).trans (hp.trans (List.mergeSort_perm ns' _).symm)
  refine hsorted.eq_of_pairwise (fun a b ha hb hab hba => ?_) (pairwise_sorted ns)
    (pairwise_sorted ns')
  -- Equal keys mean equal members.
  have ha' : (a.1, a.2) ∈ ns := (List.mergeSort_perm ns _).mem_iff.mp ha
  have hb' : (b.1, b.2) ∈ ns := hp.mem_iff.mpr ((List.mergeSort_perm ns' _).mem_iff.mp hb)
  have hkey : a.1 = b.1 := String.le_antisymm (of_decide_eq_true hab) (of_decide_eq_true hba)
  rw [← Assoc.lookup_eq_some_iff_mem hn] at ha' hb'
  rw [hkey, hb'] at ha'
  exact Prod.ext hkey (Option.some.inj ha').symm

/-- In ascending order the members are the same one by one. -/
theorem Members.Permuted.sorted {ms ns : Members} (h : Members.Permuted ms ns) :
    List.Forall₂ SameKey ms.sorted ns.sorted := by
  obtain ⟨hn, between, hs, hp⟩ := h
  rw [(parallel_of_sameKey hs).keys_eq] at hn
  rw [← sorted_of_perm hn hp]
  exact (parallel_of_sameKey hs).sorted.imp fun _ _ hm => ⟨hm.1, hm.2⟩

end Json

end PacketClassifier
