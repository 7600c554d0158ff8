/-
Bad groups and bad values keep to themselves.

The items of a list are read one by one, and an item that configures no group leaves no
trace: wherever such items are put into the list, the table of groups stays the same
(`DscpGroup.ofItems_of_inserted`), and so do the plans from the document and to it. In the
same way an entry that has no value leaves the group as it was
(`DscpGroup.ofJson_of_inserted`).

* `DscpGroup.rejected_iff`: which items configure no group.
* `DscpGroup.keys_ofItems`, `DscpGroup.lookup_ofItems_iff`: names stand where they first
  occur, each for its last group.
* `DscpGroup.bad_items_isolated`: all of this for documents.
-/
import PacketClassifier.Proofs.DscpGroup
import PacketClassifier.Proofs.Provision.Plan

namespace PacketClassifier

/-- Whether a list comes from another one by elements of some kind that were put in, at
any places. -/
inductive Inserted {α : Type} (P : α → Prop) : List α → List α → Prop where
  | nil : Inserted P [] []
  | keep (x : α) {xs ys : List α} (h : Inserted P xs ys) : Inserted P (x :: xs) (x :: ys)
  | put {y : α} {xs ys : List α} (hy : P y) (h : Inserted P xs ys) : Inserted P xs (y :: ys)

/-- What is put in makes no difference if nothing comes of it. -/
theorem Inserted.filterMap_eq {α β : Type} {P : α → Prop} {f : α → Option β}
    (hf : ∀ x, P x → f x = none) {xs ys : List α} (h : Inserted P xs ys) :
    ys.filterMap f = xs.filterMap f := by
  induction h with
  | nil => rfl
  | keep x _ ih => rw [List.filterMap_cons, List.filterMap_cons, ih]
  | put hy _ ih => rw [List.filterMap_cons, hf _ hy, ih]

namespace DscpGroup

/-! ### Items that configure no group -/

/-- Whether an item configures no group. -/
def Rejected (item : Json) : Prop := ∃ e, ofJson item = .error e

theorem rejected_iff {item : Json} : Rejected item ↔
    (∀ name, item.get? "group-name" ≠ some (.str name))
      ∨ ∃ v, item.get? "dscp" = some v ∧ ∀ es, v ≠ .arr es := by
  constructor
  · rintro ⟨e, he⟩
    by_contra hnot
    rw [not_or] at hnot
    obtain ⟨hname, hlist⟩ := hnot
    push Not at hname hlist
    obtain ⟨name, hname⟩ := hname
    -- With a name, and a list or nothing under the other key, there is a group.
    have hentries : ∃ es, entries name item = .ok es := by
      rw [entries]
      cases hv : item.get? "dscp" with
      | none => exact ⟨[], rfl⟩
      | some v =>
        obtain ⟨es, rfl⟩ := hlist v hv
        exact ⟨es, rfl⟩
    obtain ⟨es, hes⟩ := hentries
    rw [ofJson_of_entries hname hes] at he
    cases he
  · intro h
    cases hg : ofJson item with
    | error e => exact ⟨e, hg⟩
    | ok g =>
      obtain ⟨_, hname, es, hes, _⟩ := ofJson_eq_ok hg
      rcases h with h | ⟨v, hv, hno⟩
      · exact absurd hname (h g.name)
      · rw [entries, hv] at hes
        cases v with
        | arr fs => exact absurd rfl (hno fs)
        | null | bool _ | int _ | real _ | str _ | obj _ => cases hes

/-- What the items of a list configure, as far as they configure anything. -/
def accepted (xs : List Json) : List DscpGroup :=
  xs.filterMap fun item => (ofJson item).toOption

theorem toOption_ofJson_eq_some_iff {item : Json} {g : DscpGroup} :
    (ofJson item).toOption = some g ↔ ofJson item = .ok g := by
  cases ofJson item with
  | error e => simp [Except.toOption]
  | ok h => simp [Except.toOption]

theorem accepted_of_inserted {xs ys : List Json} (h : Inserted Rejected xs ys) :
    accepted ys = accepted xs := by
  refine h.filterMap_eq fun item hitem => ?_
  obtain ⟨e, he⟩ := hitem
  rw [he]
  rfl

theorem ofItems_of_inserted {xs ys : List Json} (h : Inserted Rejected xs ys) :
    ofItems ys = ofItems xs :=
  congrArg (List.foldl Table.add []) (accepted_of_inserted h)

/-! ### The table -/

theorem ofItems_eq (xs : List Json) :
    ofItems xs = Assoc.ofList ((accepted xs).map fun g => (g.name, g)) := by
  rw [Assoc.ofList, List.foldl_map]
  rfl

/-- The names of a table are those of the groups, each where it first occurs. -/
theorem keys_ofItems (xs : List Json) :
    Assoc.keys (ofItems xs) = ((accepted xs).map name).eraseDups := by
  rw [ofItems_eq, Assoc.keys_ofList, Assoc.keys, List.map_map]
  rfl

/-- A name stands for the last group of this name. Items behind it may be bad, or have
other names. -/
theorem lookup_ofItems_iff {xs : List Json} {n : String} {g : DscpGroup} :
    (ofItems xs).lookup n = some g ↔
    ∃ front item back, xs = front ++ item :: back ∧ ofJson item = .ok g ∧ g.name = n
      ∧ ∀ j ∈ back, ∀ h, ofJson j = .ok h → h.name ≠ n := by
  have hkeys : ∀ gs : List DscpGroup, n ∉ Assoc.keys (gs.map fun g => (g.name, g))
      ↔ ∀ h ∈ gs, h.name ≠ n := by
    intro gs
    simp [Assoc.keys]
  rw [ofItems_eq, Assoc.lookup_ofList_iff]
  constructor
  · rintro ⟨before, behind, hsplit, hlast⟩
    obtain ⟨gs, hs, hgs, hbefore, hrest⟩ := List.map_eq_append_iff.mp hsplit
    obtain ⟨g', hs, rfl, hg, hbehind⟩ := List.map_eq_cons_iff.mp hrest
    obtain ⟨rfl, rfl⟩ := Prod.mk.inj hg
    obtain ⟨front, rest, rfl, hfront, hrest⟩ := List.filterMap_eq_append_iff.mp hgs
    obtain ⟨bad, item, back, rfl, hbad, hitem, hback⟩ := List.filterMap_eq_cons_iff.mp hrest
    refine ⟨front ++ bad, item, back, (List.append_assoc _ _ _).symm,
      toOption_ofJson_eq_some_iff.mp hitem, rfl, ?_⟩
    intro j hj h hok
    rw [← hbehind, hkeys] at hlast
    refine hlast h ?_
    rw [← hback]
    exact List.mem_filterMap.mpr ⟨j, hj, toOption_ofJson_eq_some_iff.mpr hok⟩
  · rintro ⟨front, item, back, rfl, hitem, rfl, hlast⟩
    have hsplit : accepted (front ++ item :: back)
        = accepted front ++ g :: accepted back := by
      rw [accepted, List.filterMap_append, List.filterMap_cons,
        toOption_ofJson_eq_some_iff.mpr hitem]
      rfl
    refine ⟨(accepted front).map fun g => (g.name, g),
      (accepted back).map fun g => (g.name, g), ?_, ?_⟩
    · rw [hsplit, List.map_append, List.map_cons]
    · rw [hkeys]
      intro h hh
      obtain ⟨j, hj, hok⟩ := List.mem_filterMap.mp hh
      exact hlast j hj h (toOption_ofJson_eq_some_iff.mp hok)

/-! ### Documents -/

/-- The list of groups of a document, if it has one. -/
def list? (doc : Json) : Option (List Json) :=
  (((doc.get? resourcesKey).bind (·.get? kindsKey)).bind (·.get? listKey)).bind Json.items?

/-- A document with another list of groups. -/
def withItems (doc : Json) (xs : List Json) : Json :=
  doc.setAt [resourcesKey, kindsKey, listKey] (.arr xs)

theorem items_eq_of_list? {doc : Json} {xs : List Json} (h : list? doc = some xs) :
    items doc = xs := by
  show (list? doc).getD [] = xs
  rw [h]
  rfl

theorem items_withItems {doc : Json} {xs : List Json} (h : list? doc = some xs)
    (ys : List Json) :
    items (withItems doc ys) = ys := by
  obtain ⟨list, hlist, _⟩ := Option.bind_eq_some_iff.mp h
  obtain ⟨kinds, hkinds, hl⟩ := Option.bind_eq_some_iff.mp hlist
  obtain ⟨resources, hr, hk⟩ := Option.bind_eq_some_iff.mp hkinds
  refine items_eq_of_list? ?_
  rw [list?, withItems, Json.get?_setAt_self, hr, Option.map_some, Option.bind_some,
    Json.get?_setAt_self, hk, Option.map_some, Option.bind_some, Json.get?_setAt_self, hl]
  rfl

theorem inDocument_of_inserted {doc : Json} {xs ys : List Json} (h : list? doc = some xs)
    (hi : Inserted Rejected xs ys) : inDocument (withItems doc ys) = inDocument doc := by
  rw [inDocument, inDocument, items_withItems h, items_eq_of_list? h, ofItems_of_inserted hi]

/-- Entries without a value leave the group as it was, up to the object that configures it. -/
theorem ofJson_of_inserted {source : Json} {g : DscpGroup} {es fs : List Json}
    (h : ofJson source = .ok g) (hlist : source.get? "dscp" = some (.arr es))
    (hi : Inserted (entryValue? · = none) es fs) :
    ofJson (withEntries source fs) = .ok { g with source := withEntries source fs } := by
  obtain ⟨hvalues, hok⟩ := ofJson_withEntries h hlist fs
  rw [hok, hi.filterMap_eq fun _ he => he, ← hvalues]

/-- **Bad groups and bad values keep to themselves.** An item configures no group if it
has no name that is a string, or something that is no list under the key of the values.
Wherever such items are put into the list of a document, its groups stay the same, and so
do the plans from the document and to it. The groups of a document have the names of the
items that are accepted, in the order of first occurrence, and each name stands for the
last accepted item that has it. Entries without a value, wherever they are put into the
list of a group, change neither its name nor its values, and it is created and removed by
the same operations. -/
theorem bad_items_isolated :
    (∀ item, Rejected item ↔ (∀ name, item.get? "group-name" ≠ some (.str name))
        ∨ ∃ v, item.get? "dscp" = some v ∧ ∀ es, v ≠ .arr es)
      ∧ (∀ doc xs ys, list? doc = some xs → Inserted Rejected xs ys →
        inDocument (withItems doc ys) = inDocument doc
          ∧ ∀ other, Plan.ofDocuments (withItems doc ys) other = Plan.ofDocuments doc other
            ∧ Plan.ofDocuments other (withItems doc ys) = Plan.ofDocuments other doc)
      ∧ (∀ doc, Assoc.keys (inDocument doc) = ((accepted (items doc)).map name).eraseDups
          ∧ ∀ n g, (inDocument doc).lookup n = some g ↔
            ∃ front item back, items doc = front ++ item :: back
              ∧ ofJson item = .ok g ∧ g.name = n
              ∧ ∀ j ∈ back, ∀ h, ofJson j = .ok h → h.name ≠ n)
      ∧ ∀ source g es fs, ofJson source = .ok g → source.get? "dscp" = some (.arr es) →
        Inserted (entryValue? · = none) es fs →
          ∃ g', ofJson (withEntries source fs) = .ok g' ∧ g'.name = g.name
            ∧ g'.values = g.values
            ∧ Operation.create g' = Operation.create g
            ∧ Operation.remove g' = Operation.remove g := by
  refine ⟨fun item => rejected_iff, ?_,
    fun doc => ⟨keys_ofItems _, fun n g => lookup_ofItems_iff⟩, ?_⟩
  · intro doc xs ys hlist hi
    have hdoc := inDocument_of_inserted hlist hi
    refine ⟨hdoc, fun other => ⟨?_, ?_⟩⟩
    · rw [Plan.ofDocuments, hdoc, Plan.ofDocuments]
    · rw [Plan.ofDocuments, hdoc, Plan.ofDocuments]
  · intro source g es fs hok hlist hi
    exact ⟨_, ofJson_of_inserted hok hlist hi, rfl, rfl, rfl, rfl⟩

/-- A name that stands twice. -/
def twice : List Json :=
  [.obj [("group-name", .str "a"), ("dscp", .arr [.str "ef"])],
    .obj [("group-name", .str "b")],
    .obj [("group-name", .str "a"), ("dscp", .arr [.int 1])]]

/-- The same with bad items, one of which has a name that stands there, too. -/
def twiceAmongBad : List Json :=
  [.null, .obj [("group-name", .str "a"), ("dscp", .arr [.str "ef"])],
    .obj [("group-name", .str "b")],
    .obj [("group-name", .str "a"), ("dscp", .arr [.int 1])],
    .obj [("group-name", .str "a"), ("dscp", .str "ef")]]

theorem bad_items_isolated_twice :
    Inserted Rejected twice twiceAmongBad
      ∧ inDocument (withItems (Plan.document twice) twiceAmongBad)
          = inDocument (Plan.document twice)
      ∧ Assoc.keys (inDocument (Plan.document twice)) = ["a", "b"]
      ∧ (∃ g, (inDocument (Plan.document twice)).lookup "a" = some g ∧ g.values = [1])
      ∧ ∃ g, ofJson (.obj [("group-name", .str "a"),
          ("dscp", .arr [.bool true, .int 1, .str "EF"])]) = .ok g
        ∧ g.name = "a" ∧ g.values = [1] := by
  obtain ⟨hrejected, hdocument, htable, hentries⟩ := bad_items_isolated
  have hnull : Rejected .null := (hrejected _).mpr (.inl fun _ h => nomatch h)
  have htext : Rejected (.obj [("group-name", .str "a"), ("dscp", .str "ef")]) :=
    (hrejected _).mpr (.inr ⟨.str "ef", rfl, fun _ h => nomatch h⟩)
  have hi : Inserted Rejected twice twiceAmongBad :=
    .put hnull (.keep _ (.keep _ (.keep _ (.put htext .nil))))
  obtain ⟨hkeys, hlookup⟩ := htable (Plan.document twice)
  have hlast : ofJson (.obj [("group-name", .str "a"), ("dscp", .arr [.int 1])])
      = .ok ⟨"a", .obj [("group-name", .str "a"), ("dscp", .arr [.int 1])], [1]⟩ := by cbv
  have hvalues : Inserted (entryValue? · = none) [.int 1] [.bool true, .int 1, .str "EF"] :=
    .put (by cbv) (.keep _ (.put (by cbv) .nil))
  obtain ⟨g, hg, hname, hsame, _⟩ := hentries _ _ _ _ hlast rfl hvalues
  refine ⟨hi, (hdocument _ _ _ rfl hi).1, hkeys.trans (by cbv), ?_, g, hg, hname, hsame⟩
  exact ⟨_, (hlookup _ _).mpr ⟨[_, _], _, [], rfl, hlast, rfl,
    fun _ h => absurd h List.not_mem_nil⟩, rfl⟩

end DscpGroup

end PacketClassifier
