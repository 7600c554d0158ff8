/-
What a document says about its groups, and what a store holds that holds them.

Nothing here mentions how a document is read. An entry of a list stands for a value if it
is a known name, writes a number, or is one (`DscpGroup.StandsFor`). An item configures a
group if it has a name and a list of entries, or no list at all (`DscpGroup.Configures`),
and a document has the group of the last item that configures one of its name
(`DscpGroup.Has`). A store holds the groups of a document if it holds for each name the
values in ascending order (`Inventory.Holds`).

* `DscpGroup.has_iff`: the groups that are read are those that the document has.
* `Inventory.holds_iff`: there is one inventory only that holds the groups of a document.
-/
import PacketClassifier.Proofs.DscpGroup.Creation
import PacketClassifier.Proofs.DscpGroup.Isolation

namespace PacketClassifier

namespace CodePoint

theorem named?_name (p : CodePoint) : Dscp.named? p.name = some p.value := by
  cases p <;> rfl

theorem name_of_ofName? {s : String} {p : CodePoint} (h : ofName? s = some p) :
    p.name = s := by
  have hname := List.find?_some h
  exact eq_of_beq hname

/-- No name of a code point writes a number. -/
theorem not_spells_name (p : CodePoint) {n : Nat} (h : n ≤ Numeral.max32) :
    ¬ Numeral.Spells p.name.toList n := by
  intro hs
  have hread := Numeral.unsigned?_eq_some_iff.mpr ⟨hs, h⟩
  have hnone : Numeral.unsigned? Numeral.max32 p.name.toList = none := by
    cases p <;> rfl
  rw [hnone] at hread
  cases hread

end CodePoint

/-- What a text stands for: the value of the code point that it names, or the number that
it writes. -/
theorem Dscp.value?_eq_some_iff {s : String} {v : UInt32} : value? s = some v ↔
    (∃ p : CodePoint, p.name = s ∧ p.value = v) ∨ Numeral.Spells s.toList v.toNat := by
  rw [value?, Option.or_eq_some_iff]
  constructor
  · rintro (h | ⟨_, h⟩)
    · obtain ⟨p, hp, hv⟩ := Option.map_eq_some_iff.mp h
      exact .inl ⟨p, CodePoint.name_of_ofName? hp, hv⟩
    · exact .inr (Numeral.word?_eq_some_iff.mp h)
  · rintro (⟨p, rfl, rfl⟩ | h)
    · exact .inl p.named?_name
    · right
      refine ⟨?_, Numeral.word?_eq_some_iff.mpr h⟩
      rw [named?]
      cases hp : CodePoint.ofName? s with
      | none => rfl
      | some p =>
        rw [← CodePoint.name_of_ofName? hp] at h
        exact absurd h (p.not_spells_name (Nat.le_of_lt_succ v.toNat_lt))

namespace DscpGroup

/-! ### Entries -/

/-- Whether an entry of a list stands for a value. -/
inductive StandsFor : Json → UInt32 → Prop where
  | name (p : CodePoint) : StandsFor (.str p.name) p.value
  | numeral {s : String} {v : UInt32} (h : Numeral.Spells s.toList v.toNat) :
      StandsFor (.str s) v
  | number (v : UInt32) : StandsFor (.int v.toNat) v

theorem entryValue?_int (n : Nat) (v : UInt32) :
    entryValue? (.int n) = some v ↔ n = v.toNat := by
  have hnone : Dscp.named? (String.ofList (Numeral.decimal n)) = none := by
    -- A numeral is read as a number, and no name is.
    rw [Dscp.named?, Option.map_eq_none_iff]
    refine List.find?_eq_none.mpr fun p _ he => ?_
    have hname : p.name.toList = Numeral.decimal n := by
      rw [eq_of_beq he, String.toList_ofList]
    have hread := congrArg Numeral.value? hname
    rw [Numeral.value?_decimal] at hread
    cases p <;> cases hread
  have htext : entryValue? (.int n) = (Dscp.named? (String.ofList (Numeral.decimal n))).or
      (Numeral.word? (String.ofList (Numeral.decimal n))) := rfl
  have hzeros : (String.ofList (Numeral.decimal n)).toList
      = List.replicate 0 '0' ++ Numeral.decimal n := String.toList_ofList
  rw [htext, hnone, Option.none_or, Numeral.word?_padded hzeros]
  have hmax : v.toNat ≤ Numeral.max32 := Nat.le_of_lt_succ v.toNat_lt
  constructor
  · intro h
    split at h
    · next hn =>
      rw [← Option.some.inj h, Nat.toUInt32, UInt32.toNat_ofNat']
      exact (Nat.mod_eq_of_lt (Nat.lt_succ_of_le hn)).symm
    · cases h
  · rintro rfl
    rw [if_pos hmax]
    exact congrArg some UInt32.ofNat_toNat

/-- An integer with a sign stands for nothing. -/
theorem entryValue?_negative (n : Nat) : entryValue? (.int (.negSucc n)) = none := by
  have hsign : '-' ∈ Numeral.integer (.negSucc n) := List.mem_cons_self
  exact Dscp.value?_eq_none hsign (by decide) hsign (by decide) (by decide)

/-- The values that are read off entries are those that they stand for. -/
theorem entryValue?_eq_some_iff {entry : Json} {v : UInt32} :
    entryValue? entry = some v ↔ StandsFor entry v := by
  constructor
  · intro h
    cases entry with
    | str s =>
      rcases Dscp.value?_eq_some_iff.mp h with ⟨p, rfl, rfl⟩ | h
      · exact .name p
      · exact .numeral h
    | int n =>
      cases n with
      | ofNat n =>
        obtain rfl := (entryValue?_int n v).mp h
        exact .number v
      | negSucc n =>
        rw [entryValue?_negative] at h
        cases h
    | null => cases h
    | bool b => cases b <;> cases h
    | real x =>
      rw [entryValue?_real] at h
      cases h
    | arr es =>
      rw [entryValue?_arr] at h
      cases h
    | obj ms =>
      rw [entryValue?_obj] at h
      cases h
  · intro h
    cases h with
    | name p => exact Dscp.value?_eq_some_iff.mpr (.inl ⟨p, rfl, rfl⟩)
    | numeral h => exact Dscp.value?_eq_some_iff.mpr (.inr h)
    | number v => exact (entryValue?_int _ v).mpr rfl

/-- Whether the entries of a list stand for values, in this order. Entries that stand for
nothing are passed over. -/
inductive Resolves : List Json → List UInt32 → Prop where
  | nil : Resolves [] []
  | value {entry : Json} {v : UInt32} {es : List Json} {vs : List UInt32}
      (hv : StandsFor entry v) (h : Resolves es vs) : Resolves (entry :: es) (v :: vs)
  | nothing {entry : Json} {es : List Json} {vs : List UInt32}
      (hn : ∀ v, ¬ StandsFor entry v) (h : Resolves es vs) : Resolves (entry :: es) vs

theorem resolves_iff {es : List Json} {vs : List UInt32} :
    Resolves es vs ↔ es.filterMap entryValue? = vs := by
  constructor
  · intro h
    induction h with
    | nil => rfl
    | value hv _ ih => rw [List.filterMap_cons, entryValue?_eq_some_iff.mpr hv, ih]
    | @nothing entry _ _ hn _ ih =>
      have hnone : entryValue? entry = none :=
        Option.eq_none_iff_forall_ne_some.mpr fun v hv => hn v (entryValue?_eq_some_iff.mp hv)
      rw [List.filterMap_cons, hnone, ih]
  · rintro rfl
    induction es with
    | nil => exact .nil
    | cons entry es ih =>
      rw [List.filterMap_cons]
      cases hv : entryValue? entry with
      | some v => exact .value (entryValue?_eq_some_iff.mp hv) ih
      | none =>
        refine .nothing (fun v h => ?_) ih
        rw [entryValue?_eq_some_iff.mpr h] at hv
        cases hv

/-! ### Items -/

/-- Whether an item of a list configures a group of a name with values: the name is a
string, and the entries are a list or missing. -/
def Configures (item : Json) (name : String) (vs : List UInt32) : Prop :=
  item.get? "group-name" = some (.str name)
    ∧ (item.get? "dscp" = none ∧ vs = []
      ∨ ∃ es, item.get? "dscp" = some (.arr es) ∧ Resolves es vs)

theorem configures_iff {item : Json} {name : String} {vs : List UInt32} :
    Configures item name vs ↔ ∃ g, ofJson item = .ok g ∧ g.name = name ∧ g.values = vs := by
  constructor
  · rintro ⟨hname, ⟨hnone, rfl⟩ | ⟨es, hlist, hvs⟩⟩
    · have hentries : entries name item = .ok [] := by rw [entries, hnone]
      exact ⟨_, ofJson_of_entries hname hentries, rfl, rfl⟩
    · have hentries : entries name item = .ok es := by rw [entries, hlist]
      exact ⟨_, ofJson_of_entries hname hentries, rfl, resolves_iff.mp hvs⟩
  · rintro ⟨g, hg, rfl, rfl⟩
    obtain ⟨_, hname, es, hes, hvalues⟩ := ofJson_eq_ok hg
    refine ⟨hname, ?_⟩
    rw [entries] at hes
    split at hes
    · next hnone =>
      obtain rfl := Except.ok.inj hes
      exact .inl ⟨hnone, hvalues⟩
    · next items hlist =>
      obtain rfl := Except.ok.inj hes
      exact .inr ⟨items, hlist, resolves_iff.mpr hvalues.symm⟩
    · cases hes

/-! ### Documents -/

/-- Whether a document has a list of groups. -/
def HasList (doc : Json) (groups : List Json) : Prop :=
  ∃ resources kinds, doc.get? "vyatta-resources-v1:resources" = some resources
    ∧ resources.get? "vyatta-resources-group-misc-v1:group" = some kinds
    ∧ kinds.get? "vyatta-resources-dscp-group-v1:dscp-group" = some (.arr groups)

/-- Whether a document has a group of a name with values: an item of its list configures
it, and no later one configures a group of this name. -/
def Has (doc : Json) (name : String) (vs : List UInt32) : Prop :=
  ∃ front item back, HasList doc (front ++ item :: back) ∧ Configures item name vs
    ∧ ∀ later ∈ back, ∀ ws, ¬ Configures later name ws

theorem hasList_iff {doc : Json} {groups : List Json} :
    HasList doc groups ↔ list? doc = some groups := by
  constructor
  · rintro ⟨resources, kinds, hr, hk, hl⟩
    have hkey : doc.get? resourcesKey = some resources := hr
    have hkinds : resources.get? kindsKey = some kinds := hk
    have hlist : kinds.get? listKey = some (.arr groups) := hl
    rw [list?, hkey, Option.bind_some, hkinds, Option.bind_some, hlist]
    rfl
  · intro h
    obtain ⟨list, hlist, hgroups⟩ := Option.bind_eq_some_iff.mp h
    obtain ⟨kinds, hkinds, hl⟩ := Option.bind_eq_some_iff.mp hlist
    obtain ⟨resources, hr, hk⟩ := Option.bind_eq_some_iff.mp hkinds
    refine ⟨resources, kinds, hr, hk, hl.trans ?_⟩
    cases list with
    | arr xs => rw [Option.some.inj hgroups]
    | null | bool _ | int _ | real _ | str _ | obj _ => cases hgroups

/-- The groups that are read are those that the document has. -/
theorem has_iff {doc : Json} {name : String} {vs : List UInt32} :
    Has doc name vs ↔ ∃ g, (inDocument doc).lookup name = some g ∧ g.values = vs := by
  constructor
  · rintro ⟨front, item, back, hlist, hitem, hlast⟩
    obtain ⟨g, hg, hname, hvalues⟩ := configures_iff.mp hitem
    refine ⟨g, ?_, hvalues⟩
    rw [inDocument, items_eq_of_list? (hasList_iff.mp hlist)]
    refine lookup_ofItems_iff.mpr ⟨front, item, back, rfl, hg, hname, fun j hj h hh he => ?_⟩
    exact hlast j hj h.values (configures_iff.mpr ⟨h, hh, he, rfl⟩)
  · rintro ⟨g, hg, rfl⟩
    obtain ⟨front, item, back, hitems, hok, hname, hlast⟩ := lookup_ofItems_iff.mp hg
    have hlist : list? doc = some (front ++ item :: back) := by
      rw [← hitems]
      show _ = some ((list? doc).getD [])
      cases hl : list? doc with
      | some xs => rfl
      | none =>
        -- A document without the list has no items at all.
        have hnil : items doc = [] := congrArg (Option.getD · []) hl
        simp [hnil] at hitems
    refine ⟨front, item, back, hasList_iff.mpr hlist,
      configures_iff.mpr ⟨g, hok, hname, rfl⟩, fun j hj ws hj' => ?_⟩
    obtain ⟨h, hh, he, _⟩ := configures_iff.mp hj'
    exact hlast j hj h hh he

/-- Whether a text lists values: in ascending order, with semicolons between their
numerals. -/
def Lists (text : String) (vs : List UInt32) : Prop :=
  ∃ ws : List UInt32, ws.Perm vs ∧ ws.Pairwise (· ≤ ·)
    ∧ text.toList = Text.join [';'] (ws.map fun v => Numeral.decimal v.toNat)

theorem lists_iff {text : String} {g : DscpGroup} :
    Lists text g.values ↔ g.valueList = text := by
  constructor
  · rintro ⟨ws, hperm, hsorted, htext⟩
    have hws : ws = g.ascending :=
      (hperm.trans g.ascending_perm.symm).eq_of_pairwise' hsorted g.pairwise_ascending
    rw [← String.toList_inj, toList_valueList, htext, hws, listing]
  · rintro rfl
    exact ⟨g.ascending, g.ascending_perm, g.pairwise_ascending, toList_valueList g⟩

end DscpGroup

namespace Inventory

/-- Whether what is held are the groups of a document: for each name the list of its
values, if the document has a group of this name, and nothing otherwise. -/
def Holds (held : Inventory) (doc : Json) : Prop :=
  ∀ name text, held name = some text
    ↔ ∃ vs, DscpGroup.Has doc name vs ∧ DscpGroup.Lists text vs

theorem holds_ofDocument (doc : Json) : (ofDocument doc).Holds doc := by
  intro name text
  rw [ofDocument, ofTable, Option.map_eq_some_iff]
  constructor
  · rintro ⟨g, hg, htext⟩
    exact ⟨g.values, DscpGroup.has_iff.mpr ⟨g, hg, rfl⟩, DscpGroup.lists_iff.mpr htext⟩
  · rintro ⟨vs, hhas, hlists⟩
    obtain ⟨g, hg, rfl⟩ := DscpGroup.has_iff.mp hhas
    exact ⟨g, hg, DscpGroup.lists_iff.mp hlists⟩

/-- One inventory only holds the groups of a document. -/
theorem holds_iff {held : Inventory} {doc : Json} :
    held.Holds doc ↔ held = ofDocument doc := by
  constructor
  · intro h
    funext name
    refine Option.ext fun text => ?_
    rw [h name text, holds_ofDocument doc name text]
  · rintro rfl
    exact holds_ofDocument doc

end Inventory

end PacketClassifier
