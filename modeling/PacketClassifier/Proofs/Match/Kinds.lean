/-
Each kind of a match compiles on its own.

What one key asks for does not depend on the others. A match is read if each of its kinds
is, and else it has the fault of the first one that is not; what it compiles to is what
its kinds compile to, one kind after another.

* `Match.read_eq`: reading a match is reading its members one by one.
* `Match.sort_read`: sorting puts what the kinds ask for in the order of the kinds.
* `Match.exists_predicates_iff`, `Match.predicates_eq_error_iff`, `Match.entries_eq`: when
  a match is read, which fault it has, and what it compiles to.
* `Match.predicates_filter`: keys that are no kind make no difference.
-/
import PacketClassifier.Proofs.Match.Reordered

namespace PacketClassifier

namespace Match

open Json (Members)

namespace Kind

theorem ofName?_name (kind : Kind) : ofName? kind.name = some kind := by
  cases kind <;> decide

theorem mem_all (kind : Kind) : kind ∈ all := by
  cases kind <;> decide

end Kind

/-- Whether a member belongs to a kind. -/
def recognised (m : String × Json) : Bool := (Kind.ofName? m.1).isSome

theorem recognised_iff {m : String × Json} :
    recognised m = true ↔ ∃ kind : Kind, m.1 = kind.name := by
  rw [recognised, Option.isSome_iff_exists]
  constructor
  · rintro ⟨kind, hk⟩
    exact ⟨kind, Kind.eq_name_of_ofName? hk⟩
  · rintro ⟨kind, hk⟩
    exact ⟨kind, hk ▸ kind.ofName?_name⟩

theorem predicate?_of_not_recognised {m : String × Json} (h : recognised m = false) :
    predicate? m = .ok none := by
  rw [recognised, Option.isSome_eq_false_iff, Option.isNone_iff_eq_none] at h
  rw [predicate?, h]

/-! ### Reading -/

theorem read_eq (ms : Members) :
    read ms = do return (← ms.mapM predicate?).flatMap Option.toList := by
  induction ms with
  | nil => rfl
  | cons m ms ih =>
    rw [read, ih, List.mapM_cons]
    cases predicate? m with
    | error fault => rfl
    | ok p =>
      cases ms.mapM predicate? with
      | error fault => rfl
      | ok qs => rfl

theorem read_filter (ms : Members) : read (ms.filter recognised) = read ms := by
  induction ms with
  | nil => rfl
  | cons m ms ih =>
    by_cases h : recognised m = true
    · rw [List.filter_cons_of_pos h, read, read, ih]
    · -- Such a member asks for nothing and has no fault.
      rw [List.filter_cons_of_neg h, read,
        predicate?_of_not_recognised (Bool.eq_false_iff.mpr h), ih]
      cases read ms with
      | error fault => rfl
      | ok ps => rfl

theorem predicates_filter (ms : Members) :
    predicates (ms.filter recognised) = predicates ms := by
  rw [predicates, predicates, read_filter]

/-! ### One key alone -/

/-- What a member asks for, if it can be read. -/
def own (m : String × Json) : List Predicate :=
  match predicate? m with
  | .ok p => p.toList
  | .error _ => []

theorem read_eq_flatMap_own {ms : Members} {ps : List Predicate} (h : read ms = .ok ps) :
    ps = ms.flatMap own := by
  rw [read_eq, Steps.bind_pure_eq_ok_iff] at h
  obtain ⟨qs, hqs, rfl⟩ := h
  have hall := Steps.mapM_eq_ok_iff.mp hqs
  clear hqs
  induction hall with
  | nil => rfl
  | @cons m q ms qs hm _ ih =>
    have hown : own m = q.toList := by
      rw [own, hm]
    rw [List.flatMap_cons, List.flatMap_cons, hown, ih]

theorem kind_of_mem_own {m : String × Json} {p : Predicate} (h : p ∈ own m) :
    m.1 = p.kind.name := by
  rw [own] at h
  cases hp : predicate? m with
  | error fault =>
    rw [hp] at h
    cases h
  | ok q =>
    rw [hp] at h
    obtain rfl : q = some p := Option.mem_toList.mp h
    rw [predicate?] at hp
    cases hk : Kind.ofName? m.1 with
    | none =>
      rw [hk] at hp
      cases hp
    | some kind =>
      simp only [hk] at hp
      rw [kind_of_predicateOf hp]
      exact Kind.eq_name_of_ofName? hk

theorem nodup_own (m : String × Json) : (own m).Nodup := by
  rw [own]
  cases predicate? m with
  | error fault => exact List.nodup_nil
  | ok q =>
    cases q with
    | none => exact List.nodup_nil
    | some p => exact List.nodup_singleton p

/-- Nothing has to be sorted where there is one key only. -/
theorem predicates_singleton (m : String × Json) :
    predicates [m] = do return (← predicate? m).toList := by
  rw [predicates, read]
  cases predicate? m with
  | error fault => rfl
  | ok q =>
    cases q with
    | none => exact congrArg Except.ok List.mergeSort_nil
    | some p => exact congrArg Except.ok (List.mergeSort_singleton p)

theorem exists_predicates_singleton_iff {m : String × Json} :
    (∃ ps, predicates [m] = .ok ps) ↔ ∃ q, predicate? m = .ok q := by
  rw [predicates_singleton, Steps.exists_bind_pure_eq_ok_iff]

theorem entries_singleton {m : String × Json} (h : ∃ q, predicate? m = .ok q) :
    entries [m] = .ok ((own m).flatMap Predicate.entries) := by
  obtain ⟨q, hq⟩ := h
  rw [entries, predicates_singleton, own, hq]
  rfl

/-! ### The whole match -/

theorem predicates_eq_ok_iff {ms : Members} {ps : List Predicate} :
    predicates ms = .ok ps ↔ ∃ qs, read ms = .ok qs ∧ Predicate.sort qs = ps :=
      Steps.bind_pure_eq_ok_iff

theorem exists_predicates_iff_forall {ms : Members} :
    (∃ ps, predicates ms = .ok ps) ↔ ∀ m ∈ ms, ∃ q, predicate? m = .ok q := by
  rw [← Steps.exists_mapM_eq_ok_iff, predicates, Steps.exists_bind_pure_eq_ok_iff, read_eq,
    Steps.exists_bind_pure_eq_ok_iff]

/-- A match is read exactly if each of its kinds is. -/
theorem exists_predicates_iff {ms : Members} (hn : (Assoc.keys ms).Nodup) :
    (∃ ps, predicates ms = .ok ps) ↔
    ∀ (kind : Kind) (j : Json), ms.get? kind.name = some j → ∃ ps,
      predicates [(kind.name, j)] = .ok ps := by
  rw [exists_predicates_iff_forall]
  constructor
  · intro h kind j hj
    exact exists_predicates_singleton_iff.mpr (h _ (Assoc.mem_of_lookup_eq_some hj))
  · intro h m hm
    by_cases hr : recognised m = true
    · obtain ⟨kind, hk⟩ := recognised_iff.mp hr
      have hget : ms.get? kind.name = some m.2 :=
        hk ▸ (Assoc.lookup_eq_some_iff_mem hn).mpr hm
      have halone := exists_predicates_singleton_iff.mp (h kind m.2 hget)
      rw [← hk] at halone
      exact halone
    · exact ⟨none, predicate?_of_not_recognised (Bool.eq_false_iff.mpr hr)⟩

/-- A match that is not read has the fault of its first kind that is not. -/
theorem predicates_eq_error_iff {ms : Members} {fault : Fault} :
    predicates ms = .error fault ↔
    ∃ front m back, ms.filter recognised = front ++ m :: back
      ∧ (∀ n ∈ front, ∃ ps, predicates [n] = .ok ps) ∧ predicates [m] = .error fault := by
  have halone : ∀ m, predicates [m] = .error fault ↔ predicate? m = .error fault := by
    intro m
    rw [predicates_singleton, Steps.bind_pure_eq_error_iff]
  simp only [exists_predicates_singleton_iff, halone]
  rw [← predicates_filter, predicates, Steps.bind_pure_eq_error_iff, read_eq,
    Steps.bind_pure_eq_error_iff, Steps.mapM_eq_error_iff]

/-- What the member of a kind asks for. -/
def ofKind (ms : Members) (kind : Kind) : List Predicate :=
  match ms.get? kind.name with
  | some j => own (kind.name, j)
  | none => []

theorem mem_ofKind_iff {ms : Members} (hn : (Assoc.keys ms).Nodup) {kind : Kind}
    {p : Predicate} :
    p ∈ ofKind ms kind ↔ p.kind = kind ∧ ∃ m ∈ ms, p ∈ own m := by
  constructor
  · intro h
    rw [ofKind] at h
    cases hj : ms.get? kind.name with
    | none =>
      rw [hj] at h
      cases h
    | some j =>
      rw [hj] at h
      have hname := kind_of_mem_own h
      have hkind :=
        Option.some.inj ((kind.ofName?_name).symm.trans (hname ▸ p.kind.ofName?_name))
      exact ⟨hkind.symm, _, Assoc.mem_of_lookup_eq_some hj, h⟩
  · rintro ⟨rfl, m, hm, h⟩
    have hj : ms.get? p.kind.name = some m.2 :=
      (Assoc.lookup_eq_some_iff_mem hn).mpr (kind_of_mem_own h ▸ hm)
    rw [ofKind, hj, ← kind_of_mem_own h]
    exact h

theorem nodup_ofKind (ms : Members) (kind : Kind) : (ofKind ms kind).Nodup := by
  rw [ofKind]
  cases ms.get? kind.name with
  | none => exact List.nodup_nil
  | some j => exact nodup_own _

/-- Sorting puts what the kinds ask for one after another. -/
theorem sort_read {ms : Members} (hn : (Assoc.keys ms).Nodup) {ps : List Predicate}
    (h : read ms = .ok ps) :
    Predicate.sort ps = Kind.all.flatMap (ofKind ms) := by
  have hkinds := nodup_kinds hn h
  have hperm : ps.Perm (Kind.all.flatMap (ofKind ms)) := by
    -- Both lists have every predicate once.
    have hnodup : (Kind.all.flatMap (ofKind ms)).Nodup := by
      refine List.nodup_flatMap.mpr ⟨fun kind _ => nodup_ofKind ms kind, ?_⟩
      refine List.Pairwise.imp ?_ (show Kind.all.Nodup by decide)
      intro k l hkl p hk hl
      exact hkl (((mem_ofKind_iff hn).mp hk).1.symm.trans ((mem_ofKind_iff hn).mp hl).1)
    refine (List.perm_ext_iff_of_nodup hkinds.of_map hnodup).mpr fun p => ?_
    rw [read_eq_flatMap_own h, List.mem_flatMap, List.mem_flatMap]
    constructor
    · intro hp
      exact ⟨p.kind, p.kind.mem_all, (mem_ofKind_iff hn).mpr ⟨rfl, hp⟩⟩
    · rintro ⟨kind, _, hp⟩
      exact ((mem_ofKind_iff hn).mp hp).2
  have hsorted : (Kind.all.flatMap (ofKind ms)).Pairwise fun p q =>
      decide (p.kind.rank ≤ q.kind.rank) = true := by
    have hranks : Kind.all.Pairwise fun k l => k.rank ≤ l.rank := by decide
    refine List.pairwise_flatMap.mpr ⟨fun kind _ => ?_, hranks.imp ?_⟩
    · refine List.pairwise_of_forall_mem_list fun p hp q hq => ?_
      rw [((mem_ofKind_iff hn).mp hp).1, ((mem_ofKind_iff hn).mp hq).1]
      exact decide_eq_true (Nat.le_refl _)
    · intro k l hkl p hp q hq
      rw [((mem_ofKind_iff hn).mp hp).1, ((mem_ofKind_iff hn).mp hq).1]
      exact decide_eq_true hkl
  rw [sort_eq_of_perm hperm hkinds]
  exact List.mergeSort_of_pairwise hsorted

/-- What a match compiles to is what its kinds compile to alone, one kind after another. -/
theorem entries_eq {ms : Members} (hn : (Assoc.keys ms).Nodup) {ps : List Predicate}
    (h : predicates ms = .ok ps) :
    ∃ alone : Kind → List Entry, ps.flatMap Predicate.entries = Kind.all.flatMap alone
      ∧ (∀ kind j, ms.get? kind.name = some j → entries [(kind.name, j)] = .ok (alone kind))
      ∧ ∀ kind : Kind, ms.get? kind.name = none → alone kind = [] := by
  have hall := exists_predicates_iff_forall.mp ⟨ps, h⟩
  have hsorted : ps = Kind.all.flatMap (ofKind ms) := by
    obtain ⟨qs, hr, rfl⟩ := predicates_eq_ok_iff.mp h
    exact sort_read hn hr
  refine ⟨fun kind => (ofKind ms kind).flatMap Predicate.entries, ?_, ?_, ?_⟩
  · rw [hsorted, List.flatMap_assoc]
  · intro kind j hj
    show entries [(kind.name, j)] = .ok ((ofKind ms kind).flatMap Predicate.entries)
    rw [entries_singleton (hall _ (Assoc.mem_of_lookup_eq_some hj)), ofKind, hj]
  · intro kind hj
    show (ofKind ms kind).flatMap Predicate.entries = []
    rw [ofKind, hj]
    rfl

end Match

end PacketClassifier
