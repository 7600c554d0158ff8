/-
Plans do what they are for.

A store that holds the groups of one document and carries out the plan to another document
then holds the groups of that document, and on the way nothing is removed that is not
there and nothing added that is there already.

* `Plan.mem_names_removals`, `Plan.lookup_additions`: which names a plan removes, and what
  it adds under a name.
* `Plan.replay_between`: carrying out the plan between two tables.
* `Plan.replay_ofDocuments`: carrying out the plan between two documents.
-/
import Mathlib
import PacketClassifier.Proofs.Provision.Inventory

namespace PacketClassifier

namespace DscpGroup

variable {t : Table}

theorem Table.Proper.name_of_lookup (h : t.Proper) {n : String} {g : DscpGroup}
    (hl : t.lookup n = some g) :
    g.name = n :=
  h.named _ (Assoc.mem_of_lookup_eq_some hl)

/-- The groups of a table stand under their names. -/
theorem Table.Proper.mem_values_iff (h : t.Proper) {g : DscpGroup} :
    g ∈ t.map (·.2) ↔ t.lookup g.name = some g := by
  constructor
  · intro hg
    obtain ⟨⟨n, g'⟩, he, rfl⟩ := List.mem_map.mp hg
    obtain rfl : g'.name = n := h.named _ he
    exact (Assoc.lookup_eq_some_iff_mem h.nodup).mpr he
  · intro hl
    exact List.mem_map.mpr ⟨_, Assoc.mem_of_lookup_eq_some hl, rfl⟩

theorem Table.Proper.names (h : t.Proper) : (t.map (·.2)).map name = Assoc.keys t := by
  rw [List.map_map, Assoc.keys]
  exact List.map_congr_left fun e he => h.named e he

end DscpGroup

namespace Plan

open DscpGroup

variable {old new : Table}

/-- A replaced group has the name of the group that replaces it. -/
theorem replaced?_eq_some (ho : old.Proper) {g before : DscpGroup}
    (h : replaced? old g = some before) :
    old.lookup g.name = some before ∧ before.name = g.name ∧ before.same g = false := by
  rw [replaced?, Option.filter_eq_some_iff] at h
  obtain ⟨hl, hs⟩ := h
  exact ⟨hl, ho.name_of_lookup hl, by simpa using hs⟩

theorem replaced?_of_not_same {g before : DscpGroup} (hl : old.lookup g.name = some before)
    (hs : before.same g = false) : replaced? old g = some before := by
  rw [replaced?, hl, Option.filter_some, hs]
  rfl

theorem unchanged_iff {g : DscpGroup} :
    unchanged old g = true ↔ ∃ before, old.lookup g.name = some before
      ∧ before.same g = true := by
  rw [unchanged]
  cases old.lookup g.name with
  | none => simp
  | some before => simp

/-- The names of replaced groups are among those of the new groups, in their order. -/
theorem names_replaced_sublist (ho : old.Proper) (gs : List DscpGroup) :
    ((gs.filterMap (replaced? old)).map name).Sublist (gs.map name) := by
  induction gs with
  | nil => exact List.Sublist.refl _
  | cons g gs ih =>
    rw [List.filterMap_cons, List.map_cons]
    split
    · exact ih.cons _
    · rename_i before hr
      rw [List.map_cons, (replaced?_eq_some ho hr).2.1]
      exact ih.cons_cons _

/-- A plan removes what was there and is not there any more in the same form. -/
theorem mem_removals_iff (ho : old.Proper) (hn : new.Proper) {before : DscpGroup} :
    before ∈ (between old new).removals ↔ old.lookup before.name = some before
      ∧ ∀ g, new.lookup before.name = some g → before.same g = false := by
  rw [between, List.mem_append, List.mem_filterMap, List.mem_filter, ho.mem_values_iff]
  constructor
  -- The two lists of removals: groups that are replaced, and groups that disappear.
  · rintro (⟨g, hg, hr⟩ | ⟨hl, hc⟩)
    · obtain ⟨hl, hname, hs⟩ := replaced?_eq_some ho hr
      rw [hn.mem_values_iff, ← hname] at hg
      refine ⟨hname ▸ hl, fun g' hg' => ?_⟩
      rwa [← Option.some.inj (hg.symm.trans hg')]
    · refine ⟨hl, fun g hg => ?_⟩
      simp [Assoc.contains, hg] at hc
  · rintro ⟨hl, hs⟩
    cases hg : new.lookup before.name with
    | none => exact .inr ⟨hl, by simp [Assoc.contains, hg]⟩
    | some g =>
      have hname := hn.name_of_lookup hg
      rw [← hname] at hg hl
      exact .inl ⟨g, hn.mem_values_iff.mpr hg, replaced?_of_not_same hl (hs g (hname ▸ hg))⟩

theorem nodup_names_removals (ho : old.Proper) (hn : new.Proper) :
    ((between old new).removals.map name).Nodup := by
  have hreplaced := names_replaced_sublist ho (new.map (·.2))
  rw [hn.names] at hreplaced
  have hgone : (((old.map (·.2)).filter fun g => !Assoc.contains new g.name).map name).Sublist
      (Assoc.keys old) := by
    rw [← ho.names]
    exact List.filter_sublist.map _
  rw [between, List.map_append, List.nodup_append]
  refine ⟨hreplaced.nodup hn.nodup, hgone.nodup ho.nodup, ?_⟩
  -- What is replaced has a new group of its name, what disappears has none.
  rintro n hr m hg rfl
  obtain ⟨g, hm, rfl⟩ := List.mem_map.mp hg
  have hc := (List.mem_filter.mp hm).2
  have hnone : new.lookup g.name = none := by
    simpa [Assoc.contains] using hc
  exact Assoc.lookup_eq_none_iff_not_mem_keys.mp hnone (hreplaced.subset hr)

/-- A plan adds the new groups that did not stand there in the same form. -/
theorem mem_additions_iff (hn : new.Proper) {g : DscpGroup} :
    g ∈ (between old new).additions ↔ new.lookup g.name = some g
      ∧ unchanged old g = false := by
  rw [between, List.mem_filter, hn.mem_values_iff, Bool.not_eq_true']

theorem nodup_names_additions (hn : new.Proper) :
    ((between old new).additions.map name).Nodup := by
  have hsub : ((between old new).additions.map name).Sublist (Assoc.keys new) := by
    rw [← hn.names]
    exact List.filter_sublist.map _
  exact hsub.nodup hn.nodup

/-- A group that is there is either removed or stays in the form that it has in the new
table. -/
theorem mem_names_removals (ho : old.Proper) (hn : new.Proper) {n : String}
    {before : DscpGroup} (hl : old.lookup n = some before) :
    n ∈ (between old new).removals.map name
      ↔ ∀ g, new.lookup n = some g → before.same g = false := by
  have hname := ho.name_of_lookup hl
  rw [List.mem_map]
  constructor
  · rintro ⟨b, hb, rfl⟩
    obtain ⟨hlb, hs⟩ := (mem_removals_iff ho hn).mp hb
    rwa [← Option.some.inj (hlb.symm.trans hl)]
  · intro hs
    refine ⟨before, (mem_removals_iff ho hn).mpr ?_, hname⟩
    rw [hname]
    exact ⟨hl, hs⟩

theorem lookup_additions (hn : new.Proper) (n : String) :
    ((between old new).additions.map fun g => (g.name, g.valueList)).lookup n
      = ((new.lookup n).filter fun g => !unchanged old g).map valueList := by
  have hkeys : Assoc.keys ((between old new).additions.map fun g => (g.name, g.valueList))
      = (between old new).additions.map name := by
    rw [Assoc.keys, List.map_map]
    rfl
  -- Either a group of the name is added, and then it is the new group of that name, or
  -- none is.
  by_cases h : ∃ g ∈ (between old new).additions, g.name = n
  · obtain ⟨g, hg, rfl⟩ := h
    have hmem : (g.name, g.valueList)
        ∈ (between old new).additions.map fun g => (g.name, g.valueList) :=
      List.mem_map.mpr ⟨g, hg, rfl⟩
    obtain ⟨hl, hu⟩ := (mem_additions_iff hn).mp hg
    rw [(Assoc.lookup_eq_some_iff_mem (hkeys ▸ nodup_names_additions hn)).mpr hmem, hl,
      Option.filter_some, hu]
    rfl
  · have hnone :
        ((between old new).additions.map fun g => (g.name, g.valueList)).lookup n = none := by
      rw [Assoc.lookup_eq_none_iff_not_mem_keys, hkeys, List.mem_map]
      exact h
    have hright : (new.lookup n).filter (fun g => !unchanged old g) = none := by
      rw [Option.filter_eq_none_iff]
      intro g hl hu
      have hname := hn.name_of_lookup hl
      refine h ⟨g, (mem_additions_iff hn).mpr ⟨hname ▸ hl, by simpa using hu⟩, hname⟩
    rw [hnone, hright]
    rfl

theorem valueList_of_same (ho : old.Proper) (hn : new.Proper) {n : String}
    {before after : DscpGroup} (hb : old.lookup n = some before)
    (ha : new.lookup n = some after) (hs : before.same after = true) :
    before.valueList = after.valueList := by
  have hmb := Assoc.mem_of_lookup_eq_some hb
  have hma := Assoc.mem_of_lookup_eq_some ha
  obtain ⟨_, hv⟩ := eq_of_same (ho.read _ hmb) (hn.read _ hma) (ho.keyed _ hmb) hs
  rw [valueList, valueList, ascending, ascending, hv]

/-- What is left of the old groups and what is added come to the new groups. -/
theorem inventory_after (ho : old.Proper) (hn : new.Proper) (n : String) :
    (((between old new).additions.map fun g => (g.name, g.valueList)).lookup n).or
        (if n ∈ (between old new).removals.map name then none else Inventory.ofTable old n)
      = Inventory.ofTable new n := by
  rw [lookup_additions hn, Inventory.ofTable, Inventory.ofTable]
  cases hb : old.lookup n with
  | none =>
    -- Nothing was there, so whatever is new is added.
    have hu : ∀ g, new.lookup n = some g → unchanged old g = false := by
      intro g hg
      rw [unchanged, hn.name_of_lookup hg, hb]
    cases hg : new.lookup n with
    | none => simp
    | some g => simp [hu g hg]
  | some before =>
    rw [← hb]
    cases hg : new.lookup n with
    | none =>
      have hm := (mem_names_removals ho hn hb).mpr fun g hg' => by simp [hg] at hg'
      rw [if_pos hm]
      rfl
    | some g =>
      have hname := hn.name_of_lookup hg
      cases hs : before.same g with
      | false =>
        have hu : unchanged old g = false := by
          rw [unchanged, hname, hb]
          exact hs
        simp [hu]
      | true =>
        -- The group stays; its values do not depend on how its object is written down.
        have hu : unchanged old g = true := unchanged_iff.mpr ⟨before, hname.symm ▸ hb, hs⟩
        have hm : n ∉ (between old new).removals.map name := by
          intro hm
          have hd := (mem_names_removals ho hn hb).mp hm g hg
          rw [hs] at hd
          cases hd
        rw [if_neg hm, Option.filter_some, hu, hb, Option.map_some, Option.map_some,
          valueList_of_same ho hn hb hg hs]
        rfl

/-- **Plans between tables.** Carrying out the plan leads from the groups of the one table
to those of the other. -/
theorem replay_between (ho : old.Proper) (hn : new.Proper) :
    (Inventory.ofTable old).replay (between old new).operations
      = some (Inventory.ofTable new) := by
  have hpresent : ∀ g ∈ (between old new).removals,
      (Inventory.ofTable old g.name).isSome = true := by
    intro g hg
    rw [Inventory.ofTable, ((mem_removals_iff ho hn).mp hg).1]
    rfl
  have habsent : ∀ g ∈ (between old new).additions,
      (if g.name ∈ (between old new).removals.map name then none
        else Inventory.ofTable old g.name) = none := by
    intro g hg
    obtain ⟨hl, hu⟩ := (mem_additions_iff hn).mp hg
    cases hb : old.lookup g.name with
    | none => simp [Inventory.ofTable, hb]
    | some before =>
      -- A group of that name was there, in another form, so it is removed before.
      refine if_pos ((mem_names_removals ho hn hb).mpr fun g' hg' => ?_)
      rw [← Option.some.inj (hl.symm.trans hg')]
      rw [unchanged, hb] at hu
      exact hu
  have hsettle : ∀ held : Inventory,
      held.replay (if (between old new).commits then [Operation.commit] else [])
        = some held := by
    intro held
    split
    · rw [Inventory.replay_cons, Inventory.apply, Operation.effect?_commit]
      rfl
    · rfl
  rw [operations, Inventory.replay_append, Inventory.replay_append,
    Inventory.replay_removals (nodup_names_removals ho hn) hpresent, Option.bind_some,
    Inventory.replay_additions (nodup_names_additions hn) habsent, Option.bind_some, hsettle]
  exact congrArg some (funext (inventory_after ho hn))

/-- **Plans between documents.** A store that holds the groups of one document and carries
out the plan to another one meets every group that is to be removed and none that is to be
added, and then holds the groups of the other document. A group that the plan passes over
would be created by the same operation on both sides. -/
theorem replay_ofDocuments {before after : Json} (hb : before.Keyed) (ha : after.Keyed) :
    (Inventory.ofDocument before).replay (ofDocuments before after).operations
        = some (Inventory.ofDocument after)
      ∧ ∀ name g h, (inDocument before).lookup name = some g →
          (inDocument after).lookup name = some h →
        g.same h = true → Operation.create g = Operation.create h := by
  refine ⟨replay_between (proper_inDocument hb) (proper_inDocument ha),
    fun name g h hg hh hs => ?_⟩
  have hgn := (proper_inDocument hb).name_of_lookup hg
  have hhn := (proper_inDocument ha).name_of_lookup hh
  rw [Operation.create, Operation.create, hgn, hhn,
    valueList_of_same (proper_inDocument hb) (proper_inDocument ha) hg hh hs]

/-- Where nothing was, everything is added. -/
theorem operations_between_nil (new : Table) : (between [] new).operations
    = new.map (fun e => Operation.create e.2)
        ++ (if new.isEmpty then [] else [Operation.commit]) := by
  have hremoved : (new.map (·.2)).filterMap (replaced? []) = [] :=
    List.filterMap_eq_nil_iff.mpr fun _ _ => rfl
  have hadded : (new.map (·.2)).filter (fun g => !unchanged [] g) = new.map (·.2) :=
    List.filter_eq_self.mpr fun _ _ => rfl
  have hcommits : (between [] new).commits = !new.isEmpty := rfl
  rw [operations, hcommits, between, hremoved, hadded, List.map_map]
  cases new with
  | nil => rfl
  | cons e new => rfl

/-- A document with the given list of groups. -/
def document (groups : List Json) : Json :=
  .obj [(resourcesKey, .obj [(kindsKey, .obj [(listKey, .arr groups)])])]

/-- A group that stays, one that changes, one that disappears, and an item that is no
group. -/
def earlier : Json :=
  document [.obj [("group-name", .str "a"), ("dscp", .arr [.str "8", .str "ef"])],
    .obj [("group-name", .str "b"), ("dscp", .arr [.int 1])],
    .obj [("group-name", .str "c")], .null]

/-- The same with other keys first, a name that stands twice, and a group that is new. -/
def later : Json :=
  document [.obj [("dscp", .arr [.str "8", .str "ef"]), ("group-name", .str "a")],
    .obj [("group-name", .str "b"), ("dscp", .arr [.int 1])], .obj [("group-name", .str "d")],
    .obj [("group-name", .str "b"), ("dscp", .arr [.str "cs1", .int 1])]]

theorem keyed_earlier : earlier.Keyed := by decide

theorem keyed_later : later.Keyed := by decide

theorem inDocument_earlier : inDocument earlier
    = [("a", ⟨"a",
        .obj [("group-name", .str "a"), ("dscp", .arr [.str "8", .str "ef"])], [8, 46]⟩),
      ("b", ⟨"b", .obj [("group-name", .str "b"), ("dscp", .arr [.int 1])], [1]⟩),
      ("c", ⟨"c", .obj [("group-name", .str "c")], []⟩)] := by cbv

theorem inDocument_later : inDocument later
    = [("a", ⟨"a",
        .obj [("dscp", .arr [.str "8", .str "ef"]), ("group-name", .str "a")], [8, 46]⟩),
      ("b", ⟨"b",
        .obj [("group-name", .str "b"), ("dscp", .arr [.str "cs1", .int 1])], [8, 1]⟩),
      ("d", ⟨"d", .obj [("group-name", .str "d")], []⟩)] := by cbv

theorem ofDocument_earlier :
    Inventory.ofDocument earlier = .ofList [("a", "8;46"), ("b", "1"), ("c", "")] := by
  rw [Inventory.ofDocument, inDocument_earlier, Inventory.ofTable_eq_ofList]
  exact congrArg Inventory.ofList (by cbv)

theorem ofDocument_later :
    Inventory.ofDocument later = .ofList [("a", "8;46"), ("b", "1;8"), ("d", "")] := by
  rw [Inventory.ofDocument, inDocument_later, Inventory.ofTable_eq_ofList]
  exact congrArg Inventory.ofList (by cbv)

/-- The group that stays is added by the same operation from either document. -/
theorem create_a (source : Json) : Operation.create ⟨"a", source, [8, 46]⟩
    = ⟨"resources group dscp-group a dscp", "npf-cfg add dscp-group:a 0 8;46",
        "ALL", .set⟩ := by
  have hlist : valueList ⟨"a", source, [8, 46]⟩ = "8;46" := by cbv
  simp only [Operation.create, hlist]
  decide

theorem create_b (source : Json) : Operation.create ⟨"b", source, [8, 1]⟩
    = ⟨"resources group dscp-group b dscp", "npf-cfg add dscp-group:b 0 1;8",
        "ALL", .set⟩ := by
  have hlist : valueList ⟨"b", source, [8, 1]⟩ = "1;8" := by cbv
  simp only [Operation.create, hlist]
  decide

theorem create_d (source : Json) : Operation.create ⟨"d", source, []⟩
    = ⟨"resources group dscp-group d dscp", "npf-cfg add dscp-group:d 0 ", "ALL", .set⟩ := by
  have hlist : valueList ⟨"d", source, []⟩ = "" := by cbv
  simp only [Operation.create, hlist]
  decide

/-- What leads from the earlier document to the later one. -/
theorem ofDocuments_earlier_later : (ofDocuments earlier later).operations
    = [⟨"resources group dscp-group b", "npf-cfg delete dscp-group:b", "ALL", .delete⟩,
      ⟨"resources group dscp-group c", "npf-cfg delete dscp-group:c", "ALL", .delete⟩,
      ⟨"resources group dscp-group b dscp", "npf-cfg add dscp-group:b 0 1;8", "ALL", .set⟩,
      ⟨"resources group dscp-group d dscp", "npf-cfg add dscp-group:d 0 ", "ALL", .set⟩,
      ⟨"qos commit", "qos commit", "ALL", .set⟩] := by
  have hplan : (ofDocuments earlier later).operations
      = [.remove ⟨"b", .obj [("group-name", .str "b"), ("dscp", .arr [.int 1])], [1]⟩,
        .remove ⟨"c", .obj [("group-name", .str "c")], []⟩,
        .create ⟨"b",
          .obj [("group-name", .str "b"), ("dscp", .arr [.str "cs1", .int 1])], [8, 1]⟩,
        .create ⟨"d", .obj [("group-name", .str "d")], []⟩, .commit] := by
    rw [ofDocuments, inDocument_earlier, inDocument_later]
    rfl
  rw [hplan, create_b, create_d]
  decide

theorem replay_earlier_later :
    Inventory.ofDocument earlier = .ofList [("a", "8;46"), ("b", "1"), ("c", "")]
      ∧ Inventory.ofDocument later = .ofList [("a", "8;46"), ("b", "1;8"), ("d", "")]
      ∧ (ofDocuments earlier later).operations
        = [⟨"resources group dscp-group b", "npf-cfg delete dscp-group:b", "ALL", .delete⟩,
          ⟨"resources group dscp-group c", "npf-cfg delete dscp-group:c", "ALL", .delete⟩,
          ⟨"resources group dscp-group b dscp", "npf-cfg add dscp-group:b 0 1;8",
            "ALL", .set⟩,
          ⟨"resources group dscp-group d dscp", "npf-cfg add dscp-group:d 0 ", "ALL", .set⟩,
          ⟨"qos commit", "qos commit", "ALL", .set⟩]
      ∧ (Inventory.ofDocument earlier).replay (ofDocuments earlier later).operations
        = some (Inventory.ofDocument later)
      ∧ ∃ g h, (inDocument earlier).lookup "a" = some g
        ∧ (inDocument later).lookup "a" = some h
        ∧ g.same h = true ∧ Operation.create g = Operation.create h
        ∧ Operation.create h
          = ⟨"resources group dscp-group a dscp", "npf-cfg add dscp-group:a 0 8;46",
              "ALL", .set⟩ := by
  obtain ⟨hreplay, hskip⟩ := replay_ofDocuments keyed_earlier keyed_later
  have hg : (inDocument earlier).lookup "a"
      = some ⟨"a", .obj [("group-name", .str "a"), ("dscp", .arr [.str "8", .str "ef"])],
          [8, 46]⟩ := by cbv
  have hh : (inDocument later).lookup "a"
      = some ⟨"a", .obj [("dscp", .arr [.str "8", .str "ef"]), ("group-name", .str "a")],
          [8, 46]⟩ := by cbv
  exact ⟨ofDocument_earlier, ofDocument_later, ofDocuments_earlier_later, hreplay, _, _,
    hg, hh, rfl, hskip _ _ _ hg hh rfl, create_a _⟩

end Plan

end PacketClassifier
