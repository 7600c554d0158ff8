/-
Matches do not depend on the order of keys.

Everything inside a match is walked in ascending order of the keys, so there nothing
changes (`Match.looksAlike_of_permuted`). The match itself is walked as written. There the
order decides which fault is told, but not whether there is one
(`Match.alike_read_of_perm`), and as each kind stands once, sorting by kinds restores one
order (`Match.sort_eq_of_perm`).
-/
import PacketClassifier.Proofs.Json.Reordered
import PacketClassifier.Proofs.Match.Walk
import Mathlib.Data.List.Nodup

namespace PacketClassifier

namespace Match

open Json (Members Permuted SameKey)
open Steps (Alike)

/-! ### Inside a match -/

theorem aligned_of_permuted {V : String → Json → Json → Prop} {ms ns : Members}
    (hV : ∀ key i j, Permuted i j → V key i j) (h : Members.Permuted ms ns) :
    Aligned V ms ns :=
  ⟨fun key => rel_imp (h.get? key) (hV key),
    h.sorted.imp fun _ _ hm => ⟨hm.key, hV _ _ _ hm.value⟩⟩

/-- Objects are walked alike, if their values are looked at alike. -/
theorem opens_of_permuted {V : String → Json → Json → Prop} {i j : Json}
    (hV : ∀ key i j, Permuted i j → V key i j) (h : Permuted i j) : Opens V i j := by
  cases i with
  | obj ms =>
    obtain ⟨ns, rfl, hms⟩ := h.obj
    exact .ok (aligned_of_permuted hV hms)
  | arr xs =>
    obtain ⟨ys, rfl, _⟩ := h.arr
    exact .error trivial
  | null | bool _ | int _ | real _ | str _ =>
    cases h.reordered
    exact .error trivial

theorem strings_of_permuted {i j : Json} (h : Permuted i j) : Strings i j :=
  h.alike_scalar string (fun _ => ⟨_, rfl⟩) fun _ => ⟨_, rfl⟩

theorem words_of_permuted {i j : Json} (h : Permuted i j) : Words i j :=
  h.alike_scalar word (fun _ => ⟨_, rfl⟩) fun _ => ⟨_, rfl⟩

theorem firsts_of_permuted {R : Json → Json → Prop} {i j : Json}
    (hR : ∀ i j, Permuted i j → R i j) (h : Permuted i j) : Firsts R i j := by
  cases i with
  | obj ms =>
    obtain ⟨ns, rfl, _⟩ := h.obj
    exact .some (hR _ _ h)
  | arr xs =>
    obtain ⟨ys, rfl, hs⟩ := h.arr
    cases hs with
    | nil => exact .none
    | cons hxy _ => exact .some (hR _ _ hxy)
  | null | bool _ | int _ | real _ | str _ =>
    cases h.reordered
    exact .some (hR _ _ h)

/-- Values whose keys are reordered look alike. -/
theorem looksAlike_of_permuted (kind : Kind) {i j : Json} (h : Permuted i j) :
    kind.LooksAlike i j := by
  have hfield : ∀ field i j, Permuted i j → fieldValues field i j := by
    intro field i j hij
    rw [fieldValues]
    split
    · exact opens_of_permuted
        (fun key _ _ hij => locations_of_strings key (strings_of_permuted hij)) hij
    · exact opens_of_permuted
        (fun _ _ _ => firsts_of_permuted fun _ _ => words_of_permuted) hij
  have hmessage : ∀ i j, Permuted i j → Messages i j := fun _ _ hij =>
    messages_of_opens (opens_of_permuted (fun _ _ _ hij _ => words_of_permuted hij) hij)
  cases kind with
  | destination | source => exact opens_of_permuted hfield h
  | protocol =>
    refine opens_of_permuted (fun _ _ _ => opens_of_permuted fun _ _ _ hij => ?_) h
    exact ⟨fun _ => strings_of_permuted hij, fun _ => words_of_permuted hij⟩
  | dscp =>
    exact opens_of_permuted (fun _ _ _ hij =>
      ⟨fun _ => strings_of_permuted hij, words_of_permuted hij⟩) h
  | fragment => exact strings_of_permuted h
  | icmp | icmpv6 =>
    refine opens_of_permuted (fun _ _ _ hij => ?_) h
    exact ⟨fun _ => strings_of_permuted hij, fun _ => firsts_of_permuted hmessage hij⟩
  | ttl => exact opens_of_permuted (fun _ _ _ hij _ => words_of_permuted hij) h

/-! ### The match itself -/

theorem alike_read_of_sameKey {ms ns : Members} (h : List.Forall₂ SameKey ms ns) :
    Alike (List.Forall₂ Predicate.Same) (read ms) (read ns) :=
  alike_read (h.imp fun _ _ hm =>
    ⟨hm.key, fun kind _ => looksAlike_of_permuted kind hm.value⟩)

/-- The order of the members changes the order of the predicates only. -/
theorem alike_read_of_perm {ms ns : Members} (h : ms.Perm ns) :
    Alike List.Perm (read ms) (read ns) := by
  induction h with
  | nil => exact .ok .nil
  | cons m _ ih =>
    rw [read, read]
    cases predicate? m with
    | error e => exact .error trivial
    | ok p => exact ih.map fun _ _ hps => hps.append_left _
  | swap m n ms =>
    rw [read, read, read, read]
    -- Whichever of the two fails first, both orders fail.
    cases predicate? m with
    | error e =>
      cases predicate? n with
      | error d => exact .error trivial
      | ok q => exact .error trivial
    | ok p =>
      cases predicate? n with
      | error d => exact .error trivial
      | ok q =>
        cases read ms with
        | error e => exact .error trivial
        | ok ps =>
          refine .ok ?_
          rw [← List.append_assoc, ← List.append_assoc]
          exact List.perm_append_comm.append_right ps
  | trans _ _ ih ih' => exact ih.trans ih' fun _ _ _ => List.Perm.trans

theorem Kind.eq_name_of_ofName? {key : String} {kind : Kind}
    (h : Kind.ofName? key = some kind) :
    key = kind.name := by
  have hname : (kind.name == key) = true :=
    List.find?_some (p := fun k : Kind => k.name == key) h
  exact (eq_of_beq hname).symm

theorem kind_of_predicateOf {kind : Kind} {j : Json} {p : Predicate}
    (h : predicateOf kind j = .ok (some p)) :
    p.kind = kind := by
  cases kind <;>
    simp only [predicateOf, bind, Except.bind, pure, Except.pure] at h <;>
    split at h <;>
    simp_all only [reduceCtorEq, Except.ok.injEq, Option.some.injEq,
      Option.map_eq_some_iff] <;>
    first
      | (subst h; rfl)
      | (obtain ⟨_, _, rfl⟩ := h; rfl)

/-- Where no key stands twice, no kind does. -/
theorem kinds_sublist {ms : Members} : ∀ {ps : List Predicate}, read ms = .ok ps →
    (ps.map Predicate.kind).Sublist ((Assoc.keys ms).filterMap Kind.ofName?) := by
  induction ms with
  | nil =>
    intro ps h
    obtain rfl : [] = ps := Except.ok.inj h
    exact List.Sublist.refl _
  | cons m ms ih =>
    intro ps h
    rw [read] at h
    cases hp : predicate? m with
    | error e =>
      rw [hp] at h
      cases h
    | ok p =>
      cases hr : read ms with
      | error e =>
        rw [hp, hr] at h
        cases h
      | ok qs =>
        rw [hp, hr] at h
        obtain rfl : p.toList ++ qs = ps := Except.ok.inj h
        -- Only members whose key is a kind add to the right side, and on the left some of
        -- them add nothing.
        have hrest := ih hr
        rw [Assoc.keys, List.map_cons, List.filterMap_cons]
        rw [predicate?] at hp
        cases hk : Kind.ofName? m.1 with
        | none =>
          rw [hk] at hp
          obtain rfl : none = p := Except.ok.inj hp
          exact hrest
        | some kind =>
          simp only [hk] at hp
          cases p with
          | none => exact hrest.cons _
          | some p =>
            have hkind := kind_of_predicateOf hp
            rw [Option.toList_some, List.singleton_append, List.map_cons, hkind]
            exact hrest.cons_cons _

theorem nodup_kinds {ms : Members} (hn : (Assoc.keys ms).Nodup) {ps : List Predicate}
    (h : read ms = .ok ps) :
    (ps.map Predicate.kind).Nodup := by
  refine (kinds_sublist h).nodup (hn.filterMap ?_)
  intro k k' kind hk hk'
  rw [Kind.eq_name_of_ofName? hk, Kind.eq_name_of_ofName? hk']

/-- Sorting by kinds restores one order where no kind stands twice. -/
theorem sort_eq_of_perm {ps qs : List Predicate} (hp : ps.Perm qs)
    (hn : (ps.map Predicate.kind).Nodup) :
    Predicate.sort ps = Predicate.sort qs := by
  have hpairwise : ∀ rs : List Predicate,
      (Predicate.sort rs).Pairwise fun p q => decide (p.kind.rank ≤ q.kind.rank) = true := by
    intro rs
    refine List.pairwise_mergeSort (fun a b c hab hbc => ?_) (fun a b => ?_) rs
    · rw [decide_eq_true_eq] at hab hbc ⊢
      exact Nat.le_trans hab hbc
    · rw [Bool.or_eq_true, decide_eq_true_eq, decide_eq_true_eq]
      exact Nat.le_total _ _
  have hperm : (Predicate.sort ps).Perm (Predicate.sort qs) :=
    (List.mergeSort_perm ps _).trans (hp.trans (List.mergeSort_perm qs _).symm)
  -- Both are sorted, so it is enough that different predicates never have the same rank.
  refine hperm.eq_of_pairwise (fun a b ha hb hab hba => ?_) (hpairwise ps) (hpairwise qs)
  have ha' : a ∈ ps := (List.mergeSort_perm ps _).mem_iff.mp ha
  have hb' : b ∈ ps := hp.mem_iff.mpr ((List.mergeSort_perm qs _).mem_iff.mp hb)
  have hrank : a.kind.rank = b.kind.rank :=
    Nat.le_antisymm (of_decide_eq_true hab) (of_decide_eq_true hba)
  have hinj : ∀ k k' : Kind, k.rank = k'.rank → k = k' := by
    intro k k' h
    cases k <;> cases k' <;> first | rfl | cases h
  exact List.inj_on_of_nodup_map hn ha' hb' (hinj _ _ hrank)

/-- What a match compiles to does not depend on the order of keys. -/
theorem alike_entries {ms ns : Members} (h : Members.Permuted ms ns) :
    Alike Eq (entries ms) (entries ns) := by
  obtain ⟨hn, between, hs, hp⟩ := h
  have hinside := alike_read_of_sameKey hs
  have houtside := alike_read_of_perm hp
  rw [(Json.parallel_of_sameKey hs).keys_eq] at hn
  have hkinds : ∀ ps, read between = .ok ps → (ps.map Predicate.kind).Nodup :=
    fun ps => nodup_kinds hn
  rw [entries, entries, predicates, predicates]
  generalize read ms = x, read between = y, read ns = z at hinside houtside hkinds ⊢
  cases hinside with
  | error _ =>
    cases houtside
    exact .error trivial
  | @ok ps between hps =>
    cases houtside with
    | ok hperm =>
      refine .ok ?_
      rw [entries_sort_eq hps, sort_eq_of_perm hperm (hkinds _ rfl)]

end Match

end PacketClassifier
