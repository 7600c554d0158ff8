/-
What a plan consists of.

A plan between two documents removes what is replaced and then what disappears, adds what
is new or replaced, and ends with one commit. Each group stands in it at most once on
either side, what stays the same stands in it nowhere, and a document plans nothing but a
commit against itself.

* `Plan.operations_between`: the operations of a plan, one by one.
* `Plan.filterMap_removed?`, `Plan.filterMap_added?`: which names are removed and added.
* `Plan.not_mentioned_of_same`, `Plan.removed_before_added`: what becomes of a group that
  both documents have.
* `Plan.operations_ofDocuments`: all of this for documents.
-/
import PacketClassifier.Proofs.Json.Reordered
import PacketClassifier.Proofs.Provision.Plan
import PacketClassifier.Proofs.Provision.Retry

namespace PacketClassifier

/-- The name of the group that an effect removes. -/
def Effect.removed? : Effect → Option String
  | .remove name => some name
  | _ => none

/-- The name of the group that an effect adds. -/
def Effect.added? : Effect → Option String
  | .add name _ => some name
  | _ => none

namespace Operation

/-- The name of the group that an operation removes. -/
def removed? (o : Operation) : Option String := o.effect?.bind Effect.removed?

/-- The name of the group that an operation adds. -/
def added? (o : Operation) : Option String := o.effect?.bind Effect.added?

@[simp]
theorem removed?_remove (g : DscpGroup) : (remove g).removed? = some g.name := by
  rw [removed?, effect?_remove]
  rfl

@[simp]
theorem removed?_create (g : DscpGroup) : (create g).removed? = none := by
  rw [removed?, effect?_create]
  rfl

@[simp]
theorem added?_remove (g : DscpGroup) : (remove g).added? = none := by
  rw [added?, effect?_remove]
  rfl

@[simp]
theorem added?_create (g : DscpGroup) : (create g).added? = some g.name := by
  rw [added?, effect?_create]
  rfl

@[simp]
theorem removed?_commit : commit.removed? = none := by
  rw [removed?, effect?_commit]
  rfl

@[simp]
theorem added?_commit : commit.added? = none := by
  rw [added?, effect?_commit]
  rfl

/-- How a group is removed depends on its name only. -/
theorem remove_congr {g h : DscpGroup} (hname : g.name = h.name) : remove g = remove h := by
  rw [remove, remove, hname]

theorem mentions_remove {g : DscpGroup} {name : String} :
    (remove g).Mentions name ↔ g.name = name := by
  simp [Mentions, effect?_remove, Effect.name?]

theorem mentions_create {g : DscpGroup} {name : String} :
    (create g).Mentions name ↔ g.name = name := by
  simp [Mentions, effect?_create, Effect.name?]

theorem not_mentions_commit (name : String) : ¬ commit.Mentions name := by
  simp [Mentions, effect?_commit, Effect.name?]

end Operation

namespace Plan

open DscpGroup

variable {old new : Table}

/-- The new groups that stood in the old table with another object. -/
def replacing (old new : Table) : Table :=
  new.filter fun e => (old.lookup e.1).any fun g => !g.same e.2

/-- The old groups of whose name there is no new one. -/
def vanishing (old new : Table) : Table := old.filter fun e => (new.lookup e.1).isNone

/-- The new groups that did not stand in the old table with the same object. -/
def arriving (old new : Table) : Table :=
  new.filter fun e => (old.lookup e.1).all fun g => !g.same e.2

/-- Removing what is replaced and removing what replaces it is the same. -/
theorem remove_replaced (ho : old.Proper) {es : Table} (hnamed : ∀ e ∈ es, e.2.name = e.1) :
    ((es.map (·.2)).filterMap (replaced? old)).map Operation.remove
      = (replacing old es).map fun e => Operation.remove e.2 := by
  induction es with
  | nil => rfl
  | cons e es ih =>
    have hname := hnamed e List.mem_cons_self
    have hrest := ih fun e he => hnamed e (List.mem_cons_of_mem _ he)
    rw [List.map_cons, List.filterMap_cons, replacing, List.filter_cons, ← hname]
    cases hl : old.lookup e.2.name with
    | none =>
      have hr : replaced? old e.2 = none := by
        rw [replaced?, hl]
        rfl
      rw [hr]
      exact hrest
    | some before =>
      rw [Option.any_some]
      cases hs : before.same e.2 with
      | true =>
        have hr : replaced? old e.2 = none := by
          rw [replaced?, hl, Option.filter_some, hs]
          rfl
        rw [hr]
        exact hrest
      | false =>
        rw [replaced?_of_not_same hl hs]
        show Operation.remove before :: _ = Operation.remove e.2 :: _
        rw [hrest, Operation.remove_congr (ho.name_of_lookup hl)]
        rfl

theorem remove_vanished (ho : old.Proper) :
    ((old.map (·.2)).filter fun g => !Assoc.contains new g.name).map Operation.remove
      = (vanishing old new).map fun e => Operation.remove e.2 := by
  have hfilter : old.filter ((fun g => !Assoc.contains new g.name) ∘ (·.2))
      = vanishing old new := by
    refine List.filter_congr fun e he => ?_
    show (!(new.lookup e.2.name).isSome) = (new.lookup e.1).isNone
    rw [ho.named e he, Option.not_isSome]
  rw [List.filter_map, List.map_map, hfilter]
  rfl

theorem create_arrived (hn : new.Proper) :
    ((new.map (·.2)).filter fun g => !unchanged old g).map Operation.create
      = (arriving old new).map fun e => Operation.create e.2 := by
  have hfilter : new.filter ((fun g => !unchanged old g) ∘ (·.2)) = arriving old new := by
    refine List.filter_congr fun e he => ?_
    show (!unchanged old e.2) = (old.lookup e.1).all fun g => !g.same e.2
    rw [unchanged, hn.named e he]
    cases old.lookup e.1 with
    | none => rfl
    | some before => rfl
  rw [List.filter_map, List.map_map, hfilter]
  rfl

/-- The operations of a plan: what is replaced in the new order, what disappears in the
old order, what arrives in the new order, and a commit unless there is nothing on either
side. -/
theorem operations_between (ho : old.Proper) (hn : new.Proper) : (between old new).operations
    = (replacing old new).map (fun e => Operation.remove e.2)
        ++ (vanishing old new).map (fun e => Operation.remove e.2)
      ++ (arriving old new).map (fun e => Operation.create e.2)
      ++ (if old.isEmpty && new.isEmpty then [] else [Operation.commit]) := by
  have hcommits : (if (between old new).commits then [Operation.commit] else [])
      = if old.isEmpty && new.isEmpty then [] else [Operation.commit] := by
    show (if !(old.isEmpty && new.isEmpty) then [Operation.commit] else []) = _
    cases old.isEmpty && new.isEmpty with
    | true => rfl
    | false => rfl
  rw [operations, hcommits, ← remove_replaced ho hn.named, ← remove_vanished ho,
    ← create_arrived hn, ← List.map_append]
  rfl

theorem filterMap_removed? (p : Plan) :
    p.operations.filterMap Operation.removed? = p.removals.map name := by
  rw [operations]
  cases p.commits <;> simp [List.filterMap_map]

theorem filterMap_added? (p : Plan) :
    p.operations.filterMap Operation.added? = p.additions.map name := by
  rw [operations]
  cases p.commits <;> simp [List.filterMap_map]

/-- An operation of a plan that mentions a name removes or adds a group of that name. -/
theorem mentioned_iff {p : Plan} {n : String} :
    (∃ o ∈ p.operations, o.Mentions n) ↔ n ∈ p.removals.map name
      ∨ n ∈ p.additions.map name := by
  constructor
  · rintro ⟨o, ho, hm⟩
    rw [operations, List.mem_append, List.mem_append] at ho
    rcases ho with (ho | ho) | ho
    · obtain ⟨g, hg, rfl⟩ := List.mem_map.mp ho
      left
      exact List.mem_map.mpr ⟨g, hg, Operation.mentions_remove.mp hm⟩
    · obtain ⟨g, hg, rfl⟩ := List.mem_map.mp ho
      right
      exact List.mem_map.mpr ⟨g, hg, Operation.mentions_create.mp hm⟩
    · have hcommit : o = Operation.commit := by
        split at ho
        · exact List.mem_singleton.mp ho
        · cases ho
      rw [hcommit] at hm
      exact absurd hm (Operation.not_mentions_commit n)
  · rw [operations]
    rintro (h | h)
    · obtain ⟨g, hg, rfl⟩ := List.mem_map.mp h
      refine ⟨.remove g, ?_, Operation.mentions_remove.mpr rfl⟩
      exact List.mem_append_left _ (List.mem_append_left _ (List.mem_map_of_mem hg))
    · obtain ⟨g, hg, rfl⟩ := List.mem_map.mp h
      refine ⟨.create g, ?_, Operation.mentions_create.mpr rfl⟩
      exact List.mem_append_left _ (List.mem_append_right _ (List.mem_map_of_mem hg))

/-- A group that stays the same stands in no operation. -/
theorem not_mentioned_of_same (ho : old.Proper) (hn : new.Proper) {n : String}
    {before after : DscpGroup} (hb : old.lookup n = some before)
    (ha : new.lookup n = some after) (hs : before.same after = true) :
    ∀ o ∈ (between old new).operations, ¬ o.Mentions n := by
  intro o hmem hm
  rcases mentioned_iff.mp ⟨o, hmem, hm⟩ with h | h
  · have hd := (mem_names_removals ho hn hb).mp h after ha
    rw [hs] at hd
    cases hd
  · obtain ⟨g, hg, rfl⟩ := List.mem_map.mp h
    obtain ⟨hl, hu⟩ := (mem_additions_iff hn).mp hg
    obtain rfl := Option.some.inj (hl.symm.trans ha)
    rw [unchanged_iff.mpr ⟨before, hb, hs⟩] at hu
    cases hu

/-- A group that is replaced is first removed and then added. -/
theorem removed_before_added (ho : old.Proper) (hn : new.Proper) {n : String}
    {before after : DscpGroup} (hb : old.lookup n = some before)
    (ha : new.lookup n = some after) (hs : before.same after = false) :
    List.Sublist [Operation.remove before,
      Operation.create after] (between old new).operations := by
  have hremoved : before ∈ (between old new).removals := by
    rw [mem_removals_iff ho hn, ho.name_of_lookup hb]
    refine ⟨hb, fun g hg => ?_⟩
    rwa [← Option.some.inj (ha.symm.trans hg)]
  have hadded : after ∈ (between old new).additions := by
    rw [mem_additions_iff hn, hn.name_of_lookup ha, unchanged, hn.name_of_lookup ha, hb]
    exact ⟨ha, hs⟩
  have hboth :=
    (List.singleton_sublist.mpr (List.mem_map_of_mem (f := Operation.remove) hremoved)).append
    (List.singleton_sublist.mpr (List.mem_map_of_mem (f := Operation.create) hadded))
  exact hboth.trans (List.sublist_append_left _ _)

/-- Against itself a document has only a commit to plan. -/
theorem operations_self {t : Table} (h : t.Proper) :
    (between t t).operations = if t.isEmpty then [] else [Operation.commit] := by
  have hsame : ∀ e ∈ t, t.lookup e.1 = some e.2 ∧ e.2.same e.2 = true := by
    intro e he
    exact ⟨(Assoc.lookup_eq_some_iff_mem h.nodup).mpr he, (h.keyed e he).permuted.same⟩
  have hreplacing : replacing t t = [] := by
    refine List.filter_eq_nil_iff.mpr fun e he => ?_
    simp [hsame e he]
  have hvanishing : vanishing t t = [] := by
    refine List.filter_eq_nil_iff.mpr fun e he => ?_
    simp [hsame e he]
  have harriving : arriving t t = [] := by
    refine List.filter_eq_nil_iff.mpr fun e he => ?_
    simp [hsame e he]
  rw [operations_between h h, hreplacing, hvanishing, harriving, Bool.and_self]
  rfl

/-- **The operations of a plan between documents.** First everything that is replaced is
removed, in the new order, then everything that disappears, in the old order. Then
everything is added that is new or replaced, in the new order, and one commit ends it
unless neither document has a group. So no name is removed twice or added twice, a group
that is replaced is removed before it is added, and a group whose objects are equal, up to
the order of keys, is not mentioned. Against itself a document has at most a commit to
plan. -/
theorem operations_ofDocuments {before after : Json} (hb : before.Keyed) (ha : after.Keyed) :
    let old := inDocument before
    let new := inDocument after
    let ops := (ofDocuments before after).operations
    ops = (replacing old new).map (fun e => Operation.remove e.2)
        ++ (vanishing old new).map (fun e => Operation.remove e.2)
        ++ (arriving old new).map (fun e => Operation.create e.2)
        ++ (if old.isEmpty && new.isEmpty then [] else [Operation.commit])
      ∧ (ops.filterMap Operation.removed?).Nodup
      ∧ (ops.filterMap Operation.added?).Nodup
      ∧ (∀ name g h, old.lookup name = some g → new.lookup name = some h →
        (g.same h = false → List.Sublist [Operation.remove g, Operation.create h] ops)
          ∧ (g.same h = true → ∀ o ∈ ops, ¬ o.Mentions name)
          ∧ (Json.Permuted g.source h.source → g.same h = true))
      ∧ (ofDocuments before before).operations = if old.isEmpty then []
          else [Operation.commit] := by
  intro old new ops
  have ho : old.Proper := proper_inDocument hb
  have hn : new.Proper := proper_inDocument ha
  refine ⟨operations_between ho hn, ?_, ?_, ?_, operations_self ho⟩
  · show ((between old new).operations.filterMap Operation.removed?).Nodup
    rw [filterMap_removed?]
    exact nodup_names_removals ho hn
  · show ((between old new).operations.filterMap Operation.added?).Nodup
    rw [filterMap_added?]
    exact nodup_names_additions hn
  · intro name g h hg hh
    exact ⟨removed_before_added ho hn hg hh, not_mentioned_of_same ho hn hg hh,
      fun hp => hp.same⟩

theorem operations_earlier_later :
    earlier.Keyed ∧ later.Keyed
      ∧ (replacing (inDocument earlier) (inDocument later)).map (·.1) = ["b"]
      ∧ (vanishing (inDocument earlier) (inDocument later)).map (·.1) = ["c"]
      ∧ (arriving (inDocument earlier) (inDocument later)).map (·.1) = ["b", "d"]
      ∧ (ofDocuments earlier later).operations
        = [⟨"resources group dscp-group b", "npf-cfg delete dscp-group:b", "ALL", .delete⟩,
          ⟨"resources group dscp-group c", "npf-cfg delete dscp-group:c", "ALL", .delete⟩,
          ⟨"resources group dscp-group b dscp", "npf-cfg add dscp-group:b 0 1;8",
            "ALL", .set⟩,
          ⟨"resources group dscp-group d dscp", "npf-cfg add dscp-group:d 0 ", "ALL", .set⟩,
          ⟨"qos commit", "qos commit", "ALL", .set⟩]
      ∧ (∃ g h, (inDocument earlier).lookup "b" = some g
        ∧ (inDocument later).lookup "b" = some h
        ∧ Operation.remove g
          = ⟨"resources group dscp-group b", "npf-cfg delete dscp-group:b", "ALL", .delete⟩
        ∧ Operation.create h
          = ⟨"resources group dscp-group b dscp", "npf-cfg add dscp-group:b 0 1;8",
              "ALL", .set⟩
        ∧ List.Sublist [Operation.remove g, Operation.create h]
            (ofDocuments earlier later).operations)
      ∧ (∀ o ∈ (ofDocuments earlier later).operations, ¬ o.Mentions "a")
      ∧ (ofDocuments earlier earlier).operations
          = [⟨"qos commit", "qos commit", "ALL", .set⟩] := by
  obtain ⟨_, _, _, hboth, hself⟩ := operations_ofDocuments keyed_earlier keyed_later
  rw [inDocument_earlier, inDocument_later] at hboth
  rw [inDocument_earlier] at hself
  rw [inDocument_earlier, inDocument_later]
  refine ⟨keyed_earlier, keyed_later, rfl, rfl, rfl, ofDocuments_earlier_later, ?_, ?_, hself⟩
  · exact ⟨_, _, rfl, rfl, by decide, create_b _, (hboth "b" _ _ rfl rfl).1 rfl⟩
  · exact (hboth "a" _ _ rfl rfl).2.1 rfl

end Plan

end PacketClassifier
