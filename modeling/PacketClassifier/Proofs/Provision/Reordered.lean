/-
What a plan consists of does not depend on the order of keys.

Objects that differ in the order of keys only configure groups of the same name and the
same values (`DscpGroup.alike_ofJson`), because the entries whose text shows that order
have no value. So reordered documents have alike groups in the same order
(`DscpGroup.alike_inDocument`). Which of them are replaced or stay is decided by an
equality of documents that cannot tell them apart, and the plans remove and add alike
groups (`Plan.alike_between`).

* `Plan.operations_of_permuted`: plans between reordered documents have the same operations.
* `Plan.operations_reordered`: this, and what it means for a document that is committed
  again in another order.
-/
import PacketClassifier.Proofs.Provision.Shape
import PacketClassifier.Proofs.Service.Group

namespace PacketClassifier

open Json (Permuted)

namespace DscpGroup

/-- Whether two groups differ in the order of keys of their objects only. -/
structure Alike (g h : DscpGroup) : Prop where
  name : g.name = h.name
  values : g.values = h.values
  source : Permuted g.source h.source

theorem Alike.same_congr {g g' h h' : DscpGroup} (hg : g.Alike g') (hh : h.Alike h') :
    g.same h = g'.same h' :=
  hg.source.same_congr hh.source

theorem Alike.remove_eq {g h : DscpGroup} (hgh : g.Alike h) :
    Operation.remove g = Operation.remove h :=
  Operation.remove_congr hgh.name

theorem Alike.create_eq {g h : DscpGroup} (hgh : g.Alike h) :
    Operation.create g = Operation.create h := by
  have hlist : g.valueList = h.valueList := by
    rw [valueList, valueList, ascending, ascending, hgh.values]
  rw [Operation.create, Operation.create, hgh.name, hlist]

/-! ### Reading -/

theorem filterMap_entryValue?_of_permuted {as bs : List Json}
    (h : List.Forall₂ Permuted as bs) :
    as.filterMap entryValue? = bs.filterMap entryValue? := by
  induction h with
  | nil => rfl
  | cons hab _ ih =>
    rw [List.filterMap_cons, List.filterMap_cons, entryValue?_of_same hab.same, ih]

theorem string?_of_permuted {a b : Json} (h : Permuted a b) : a.string? = b.string? := by
  cases a with
  | arr _ =>
    obtain ⟨_, rfl, _⟩ := h.arr
    rfl
  | obj _ =>
    obtain ⟨_, rfl, _⟩ := h.obj
    rfl
  | null | bool _ | int _ | real _ | str _ =>
    cases h.reordered
    rfl

theorem alike_entries (name : String) {a b : Json} (h : Permuted a b) :
    Steps.Alike (fun as bs => as.filterMap entryValue? = bs.filterMap entryValue?)
      (entries name a) (entries name b) := by
  have hlist := h.get? "dscp"
  rw [entries, entries]
  generalize a.get? "dscp" = o, b.get? "dscp" = p at hlist ⊢
  cases hlist with
  | none => exact .ok rfl
  | @some v w hvw =>
    cases v with
    | arr as =>
      obtain ⟨bs, rfl, hs⟩ := hvw.arr
      exact .ok (filterMap_entryValue?_of_permuted hs)
    | obj ms =>
      obtain ⟨_, rfl, _⟩ := hvw.obj
      exact .error trivial
    | null | bool _ | int _ | real _ | str _ =>
      cases hvw.reordered
      exact .error trivial

/-- Reordered objects configure alike groups, or both of them none. -/
theorem alike_ofJson {a b : Json} (h : Permuted a b) :
    Steps.Alike Alike (ofJson a) (ofJson b) := by
  have hname : (a.get? "group-name").bind Json.string?
      = (b.get? "group-name").bind Json.string? := by
    have hrel := h.get? "group-name"
    generalize a.get? "group-name" = o, b.get? "group-name" = p at hrel ⊢
    cases hrel with
    | none => rfl
    | some hvw => exact string?_of_permuted hvw
  rw [ofJson, ofJson, hname]
  cases (b.get? "group-name").bind Json.string? with
  | none => exact .error trivial
  | some name => exact (alike_entries name h).map fun as bs hv => ⟨rfl, hv, h⟩

/-! ### Tables -/

/-- Whether two tables hold alike groups under the same names in the same order. -/
def Table.Alike : Table → Table → Prop := Assoc.Parallel fun _ => DscpGroup.Alike

theorem Table.Alike.add {t u : Table} (htu : t.Alike u) {g h : DscpGroup} (hgh : g.Alike h) :
    (t.add g).Alike (u.add h) := by
  rw [Table.add, Table.add, hgh.name]
  exact Assoc.Parallel.insert hgh htu

theorem alike_ofItems {xs ys : List Json} (h : List.Forall₂ Permuted xs ys) :
    (ofItems xs).Alike (ofItems ys) := by
  have hgroups : List.Forall₂ Alike (xs.filterMap fun x => (ofJson x).toOption)
      (ys.filterMap fun y => (ofJson y).toOption) := by
    refine List.rel_filterMap (fun x y hxy => ?_) h
    exact (alike_ofJson hxy).toOption
  refine List.rel_foldl (P := Table.Alike) (fun t u htu g g' hg => ?_) .nil hgroups
  exact htu.add hg

theorem forall₂_items {a b : Json} (h : Permuted a b) :
    List.Forall₂ Permuted (items a) (items b) := by
  have hlist := Json.rel_bind_get? (Json.rel_bind_get? (h.get? resourcesKey) kindsKey) listKey
  rw [items, items]
  generalize ((a.get? resourcesKey).bind (·.get? kindsKey)).bind (·.get? listKey) = o,
    ((b.get? resourcesKey).bind (·.get? kindsKey)).bind (·.get? listKey) = p at hlist ⊢
  cases hlist with
  | none => exact .nil
  | @some v w hvw =>
    cases v with
    | arr xs =>
      obtain ⟨ys, rfl, hs⟩ := hvw.arr
      exact hs
    | obj ms =>
      obtain ⟨_, rfl, _⟩ := hvw.obj
      exact .nil
    | null | bool _ | int _ | real _ | str _ =>
      cases hvw.reordered
      exact .nil

/-- Reordered documents have alike groups in the same order. -/
theorem alike_inDocument {a b : Json} (h : Permuted a b) :
    (inDocument a).Alike (inDocument b) :=
  alike_ofItems (forall₂_items h)

theorem Table.Alike.groups {t u : Table} (h : t.Alike u) :
    List.Forall₂ DscpGroup.Alike (t.map (·.2)) (u.map (·.2)) :=
  List.rel_map (fun _ _ he => he.2) h

theorem Table.Alike.contains_eq {t u : Table} (h : t.Alike u) (name : String) :
    Assoc.contains t name = Assoc.contains u name := by
  have hrel := Assoc.Parallel.lookup h name
  rw [Assoc.contains, Assoc.contains]
  generalize t.lookup name = o, u.lookup name = p at hrel ⊢
  cases hrel with
  | none => rfl
  | some _ => rfl

theorem Table.Alike.isEmpty_eq {t u : Table} (h : t.Alike u) : t.isEmpty = u.isEmpty := by
  cases h with
  | nil => rfl
  | cons _ _ => rfl

end DscpGroup

namespace Plan

open DscpGroup

variable {old old' new new' : Table}

theorem rel_replaced? (ho : old.Alike old') {g g' : DscpGroup} (hg : g.Alike g') :
    Option.Rel Alike (replaced? old g) (replaced? old' g') := by
  have hrel := Assoc.Parallel.lookup ho g.name
  rw [replaced?, replaced?, ← hg.name]
  generalize old.lookup g.name = o, old'.lookup g.name = p at hrel ⊢
  cases hrel with
  | none => exact .none
  | @some before before' hb =>
    rw [Option.filter_some, Option.filter_some, hb.same_congr hg]
    split
    · exact .some hb
    · exact .none

theorem unchanged_eq (ho : old.Alike old') {g g' : DscpGroup} (hg : g.Alike g') :
    unchanged old g = unchanged old' g' := by
  have hrel := Assoc.Parallel.lookup ho g.name
  rw [unchanged, unchanged, ← hg.name]
  generalize old.lookup g.name = o, old'.lookup g.name = p at hrel ⊢
  cases hrel with
  | none => rfl
  | some hb => exact hb.same_congr hg

/-- Plans between alike tables remove and add alike groups. -/
theorem alike_between (ho : old.Alike old') (hn : new.Alike new') :
    List.Forall₂ Alike (between old new).removals (between old' new').removals
      ∧ List.Forall₂ Alike (between old new).additions (between old' new').additions
      ∧ (between old new).commits = (between old' new').commits := by
  refine ⟨List.rel_append ?_ ?_, ?_, ?_⟩
  · exact List.rel_filterMap (fun _ _ hg => rel_replaced? ho hg) hn.groups
  · refine List.rel_filter (fun g g' hg => ?_) ho.groups
    show (!Assoc.contains new g.name) = true ↔ (!Assoc.contains new' g'.name) = true
    rw [hg.name, hn.contains_eq]
  · refine List.rel_filter (fun g g' hg => ?_) hn.groups
    show (!unchanged old g) = true ↔ (!unchanged old' g') = true
    rw [unchanged_eq ho hg]
  · show (!(old.isEmpty && new.isEmpty)) = !(old'.isEmpty && new'.isEmpty)
    rw [ho.isEmpty_eq, hn.isEmpty_eq]

theorem operations_of_alike {p q : Plan} (hr : List.Forall₂ Alike p.removals q.removals)
    (ha : List.Forall₂ Alike p.additions q.additions) (hc : p.commits = q.commits) :
    p.operations = q.operations := by
  have hremove : List.Forall₂ Eq (p.removals.map Operation.remove)
      (q.removals.map Operation.remove) :=
    List.rel_map (fun _ _ hg => hg.remove_eq) hr
  have hcreate : List.Forall₂ Eq (p.additions.map Operation.create)
      (q.additions.map Operation.create) :=
    List.rel_map (fun _ _ hg => hg.create_eq) ha
  rw [List.forall₂_eq_eq_eq] at hremove hcreate
  rw [operations, operations, hremove, hcreate, hc]

/-- Plans between reordered documents have the same operations. -/
theorem operations_of_permuted {before before' after after' : Json}
    (hb : Permuted before before') (ha : Permuted after after') :
    (ofDocuments before' after').operations = (ofDocuments before after).operations := by
  obtain ⟨hremovals, hadditions, hcommits⟩ :=
    alike_between (alike_inDocument hb) (alike_inDocument ha)
  exact (operations_of_alike hremovals hadditions hcommits).symm

/-- A document that is planned again in another order of keys asks for a commit, if it has
any groups. -/
theorem operations_again {doc doc' : Json} (h : Permuted doc doc') :
    (ofDocuments doc doc').operations = if (inDocument doc).isEmpty then []
      else [Operation.commit] := by
  rw [operations_of_permuted h.keyed.permuted h]
  exact operations_self (proper_inDocument h.keyed)

/-- **The order of keys does not matter.** Whatever documents a plan leads from and to,
its operations stay the same when the keys of both are put in another order, at any depth.
So a service that is given its last document once more, with its keys in another order,
sends a single commit to a store that takes every operation, and nothing at all where the
document has no group. -/
theorem operations_reordered {before before' after after' : Json} (hb : before.Keyed)
    (hbr : before.Reordered before') (ha : after.Keyed) (har : after.Reordered after') :
    (ofDocuments before' after').operations = (ofDocuments before after).operations
      ∧ ∀ {σ : Type} {store : Store (StateM σ)} (d : Deployment σ), store.Willing →
        d.service.previous d.files = before →
        (d.commit store before').2.sent = d.sent ++ if (inDocument before).isEmpty then []
          else [Operation.commit] := by
  refine ⟨operations_of_permuted ⟨hb, hbr⟩ ⟨ha, har⟩, fun {σ store} d hw hd => ?_⟩
  have hplan : (d.service.plan d.files before').operations
      = if (inDocument before).isEmpty then [] else [Operation.commit] := by
    rw [GroupService.plan, hd]
    exact operations_again ⟨hb, hbr⟩
  -- The plan is sent whether or not the document can be kept afterwards.
  obtain ⟨world, hcommit⟩ := Deployment.commit_sends hw d before'
  rw [hcommit, ← hplan]
  cases Baseline.save d.files d.service.path before' with
  | mk result saved =>
    cases result with
    | error e => rfl
    | ok _ => rfl

/-- A group with an entry whose text shows the order of keys. -/
def wordy : Json :=
  document [.obj [("group-name", .str "a"),
    ("dscp", .arr [.str "8", .obj [("x", .int 1), ("y", .int 2)]])]]

/-- The same with its keys in other places, also those of the entry. -/
def wordy' : Json :=
  document [.obj [("dscp", .arr [.str "8", .obj [("y", .int 2), ("x", .int 1)]]),
    ("group-name", .str "a")]]

theorem operations_reordered_wordy :
    wordy.Keyed ∧ wordy.Reordered wordy' ∧ later.Keyed
      ∧ (ofDocuments wordy' later).operations = (ofDocuments wordy later).operations
      ∧ ((⟨⟨Deployment.firstPath, some wordy⟩, .empty, 0, []⟩ : Deployment Nat).commit
          Deployment.counting
          wordy').2.sent = [.commit] := by
  have hk : wordy.Keyed := by decide
  have hentry : Json.Reordered (.obj [("x", .int 1), ("y", .int 2)])
      (.obj [("y", .int 2), ("x", .int 1)]) :=
    .obj (.cons _ (.int 1) (.cons _ (.int 2) .nil)) (.swap _ _ _)
  have hgroup : Json.Reordered
      (.obj [("group-name", .str "a"),
        ("dscp", .arr [.str "8", .obj [("x", .int 1), ("y", .int 2)]])])
      (.obj [("dscp", .arr [.str "8", .obj [("y", .int 2), ("x", .int 1)]]),
        ("group-name", .str "a")]) :=
    .obj (.cons _ (.str "a") (.cons _ (.arr (.cons (.str "8") (.cons hentry .nil))) .nil))
      (.swap _ _ _)
  have hr : wordy.Reordered wordy' :=
    .obj (.cons _ (.obj (.cons _ (.obj (.cons _ (.arr (.cons hgroup .nil)) .nil) (.refl _))
      .nil) (.refl _)) .nil)
      (.refl _)
  obtain ⟨hoperations, hagain⟩ :=
    operations_reordered hk hr keyed_later (Json.reordered_refl later)
  exact ⟨hk, hr, keyed_later, hoperations, hagain _ (fun _ _ => rfl) rfl⟩

end Plan

end PacketClassifier
