/-
Groups of code points whose objects are equal are equal in all that matters.

Equality of documents passes over the order of keys and over the sign of zero, and the
text of a document shows both. But a text that shows them is never a value: an entry that
is no string and no integer has none (`DscpGroup.entryValue?_of_same`). So equal objects
configure groups of equal names and values (`DscpGroup.eq_of_same`).

`Table.Proper` says what is true of every table that was read from a document
(`DscpGroup.proper_inDocument`).
-/
import PacketClassifier.DscpGroup
import PacketClassifier.Proofs.Json.Parallel
import PacketClassifier.Proofs.Except
import PacketClassifier.Proofs.Text.Numeral

namespace PacketClassifier

/-! ### Texts that are no value -/

/-- A text is no value if one of its characters stands in no name and one in no number. -/
theorem Dscp.value?_eq_none {cs : List Char} {c d : Char} (hc : c ∈ cs)
    (hname : ∀ p ∈ CodePoint.all, c ∉ p.name.toList) (hd : d ∈ cs)
    (hdigit : Numeral.isDigit d = false) (hplus : d ≠ '+') :
    Dscp.value? (String.ofList cs) = none := by
  -- The one character rules out a name, the other one a number.
  have hn : CodePoint.ofName? (String.ofList cs) = none := by
    refine List.find?_eq_none.mpr fun p hp he => hname p hp ?_
    rw [eq_of_beq he, String.toList_ofList]
    exact hc
  rw [Dscp.value?, Dscp.named?, hn, Numeral.word?_eq_none hd hdigit hplus]
  rfl

namespace Binary64

/-- Whether a text has a point or a signed exponent in it. -/
def Marked (cs : List Char) : Prop := '.' ∈ cs ∨ 'e' ∈ cs ∧ ('+' ∈ cs ∨ '-' ∈ cs)

theorem Marked.cons {cs : List Char} (c : Char) (h : Marked cs) : Marked (c :: cs) := by
  rcases h with h | ⟨he, hs⟩
  · exact .inl (List.mem_cons_of_mem _ h)
  · exact .inr ⟨List.mem_cons_of_mem _ he,
      hs.imp (List.mem_cons_of_mem _) (List.mem_cons_of_mem _)⟩

/-- Digits in positional notation have a point among them, in scientific notation a signed
exponent behind them. -/
theorem marked_layout (digits : List Char) (place : Int) : Marked (layout digits place) := by
  by_cases he : place + digits.length - 1 < -5 ∨ 16 ≤ place + digits.length - 1
  · right
    simp only [layout, if_pos he]
    refine ⟨List.mem_append_right _ List.mem_cons_self, ?_⟩
    by_cases hn : place + digits.length - 1 < 0
    · right
      rw [if_pos hn]
      exact List.mem_append_right _ (List.mem_cons_of_mem _ List.mem_cons_self)
    · left
      rw [if_neg hn]
      exact List.mem_append_right _ (List.mem_cons_of_mem _ List.mem_cons_self)
  · left
    simp only [layout, if_neg he]
    split
    · simp
    · split <;> simp

theorem marked_decimal (x : Binary64) : Marked x.decimal := by
  have hbody : Marked (if x.isZero then ['0', '.', '0']
      else layout (Numeral.decimal x.shortest.1) x.shortest.2) := by
    split
    · exact .inl (by decide)
    · exact marked_layout _ _
  rw [decimal]
  split
  · exact hbody.cons '-'
  · exact hbody

end Binary64

namespace DscpGroup

/-! ### Equal entries have equal values -/

theorem entryValue?_real (x : Binary64) : entryValue? (.real x) = none := by
  have htext : entryText (.real x) = String.ofList x.decimal := rfl
  rw [entryValue?, htext]
  rcases x.marked_decimal with h | ⟨he, h | h⟩
  · exact Dscp.value?_eq_none h (by decide) h (by decide) (by decide)
  · exact Dscp.value?_eq_none h (by decide) he (by decide) (by decide)
  · exact Dscp.value?_eq_none h (by decide) he (by decide) (by decide)

theorem entryValue?_arr (xs : List Json) : entryValue? (.arr xs) = none := by
  have hopen : '[' ∈ Json.write .compact 0 (.arr xs) := by
    cases xs <;> simp [Json.write]
  exact Dscp.value?_eq_none hopen (by decide) hopen (by decide) (by decide)

theorem entryValue?_obj (ms : Json.Members) : entryValue? (.obj ms) = none := by
  have hopen : '\x7b' ∈ Json.write .compact 0 (.obj ms) := by
    cases ms <;> simp [Json.write]
  exact Dscp.value?_eq_none hopen (by decide) hopen (by decide) (by decide)

/-- Equal entries have equal values, though their texts may differ. -/
theorem entryValue?_of_same {a b : Json} (h : a.same b = true) :
    entryValue? a = entryValue? b := by
  -- Documents of different forms are never equal, so seven cases are left. In four of
  -- them the documents are the same.
  cases a <;> cases b <;> simp only [Json.same, beq_iff_eq, Bool.false_eq_true] at h
  case null.null => rfl
  case bool.bool => rw [h]
  case int.int => rw [h]
  case str.str => rw [h]
  case real.real => rw [entryValue?_real, entryValue?_real]
  case arr.arr => rw [entryValue?_arr, entryValue?_arr]
  case obj.obj => rw [entryValue?_obj, entryValue?_obj]

theorem filterMap_entryValue?_of_same {as bs : List Json} (h : Json.sameItems as bs = true) :
    as.filterMap entryValue? = bs.filterMap entryValue? := by
  induction as generalizing bs with
  | nil =>
    cases bs with
    | nil => rfl
    | cons b bs => simp [Json.sameItems] at h
  | cons a as ih =>
    cases bs with
    | nil => simp [Json.sameItems] at h
    | cons b bs =>
      rw [Json.sameItems, Bool.and_eq_true] at h
      rw [List.filterMap_cons, List.filterMap_cons, entryValue?_of_same h.1, ih h.2]

/-! ### Equal objects configure equal groups -/

/-- What a group that was read has to do with the object that configures it. -/
theorem ofJson_eq_ok {source : Json} {g : DscpGroup} (h : ofJson source = .ok g) :
    g.source = source ∧ source.get? "group-name" = some (.str g.name)
      ∧ ∃ es, entries g.name source = .ok es ∧ g.values = es.filterMap entryValue? := by
  rw [ofJson] at h
  cases hn : (source.get? "group-name").bind Json.string? with
  | none => simp [hn] at h
  | some name =>
    simp only [hn] at h
    cases he : entries name source with
    | error e => simp [he] at h
    | ok es =>
      rw [he, Steps.ok_bind] at h
      obtain rfl := Except.ok.inj h
      refine ⟨rfl, ?_, es, he, rfl⟩
      obtain ⟨v, hv, hs⟩ := Option.bind_eq_some_iff.mp hn
      cases v <;> simp [Json.string?] at hs
      rw [hv, hs]

/-- An object with a name and a list of entries configures a group. -/
theorem ofJson_of_entries {source : Json} {name : String} {es : List Json}
    (hn : source.get? "group-name" = some (.str name)) (he : entries name source = .ok es) :
    ofJson source = .ok ⟨name, source, es.filterMap entryValue?⟩ := by
  rw [ofJson, hn, Option.bind_some]
  show (entries name source >>= _) = _
  rw [he]
  rfl

/-- The object of a group with another list of entries. -/
def withEntries (source : Json) (es : List Json) : Json := source.setAt ["dscp"] (.arr es)

/-- A group keeps its name when it is given other entries. -/
theorem ofJson_withEntries {source : Json} {g : DscpGroup} {es : List Json}
    (h : ofJson source = .ok g) (hlist : source.get? "dscp" = some (.arr es))
    (es' : List Json) :
    g.values = es.filterMap entryValue?
      ∧ ofJson (withEntries source es') = .ok ⟨g.name, withEntries source es',
          es'.filterMap entryValue?⟩ := by
  obtain ⟨_, hname, fs, hfs, hvalues⟩ := ofJson_eq_ok h
  rw [entries, hlist] at hfs
  obtain rfl := Except.ok.inj hfs
  have hname' : (withEntries source es').get? "group-name" = some (.str g.name) := by
    rw [withEntries, Json.get?_setAt_of_ne (by decide), hname]
  have hentries : entries g.name (withEntries source es') = .ok es' := by
    rw [entries, withEntries, Json.get?_setAt_self, hlist]
    rfl
  exact ⟨hvalues, ofJson_of_entries hname' hentries⟩

theorem entries_of_same {a b : Json} {n m : String} {as bs : List Json} (hk : a.Keyed)
    (h : a.same b = true) (ha : entries n a = .ok as) (hb : entries m b = .ok bs) :
    as.filterMap entryValue? = bs.filterMap entryValue? := by
  rcases Json.get?_of_same hk h "dscp" with ⟨hna, hnb⟩ | ⟨v, w, hv, hw, hs⟩
  · rw [entries, hna] at ha
    rw [entries, hnb] at hb
    rw [← Except.ok.inj ha, ← Except.ok.inj hb]
  · rw [entries, hv] at ha
    rw [entries, hw] at hb
    cases v <;> cases w
      <;> simp only [Json.same, Bool.false_eq_true, reduceCtorEq] at hs ha hb
    rw [← Except.ok.inj ha, ← Except.ok.inj hb]
    exact filterMap_entryValue?_of_same hs

/-- Groups that were read from equal objects have the same name and the same values. -/
theorem eq_of_same {a b : DscpGroup} (ha : ofJson a.source = .ok a)
    (hb : ofJson b.source = .ok b) (hk : a.source.Keyed) (h : a.same b = true) :
    a.name = b.name ∧ a.values = b.values := by
  obtain ⟨_, hna, as, hea, hva⟩ := ofJson_eq_ok ha
  obtain ⟨_, hnb, bs, heb, hvb⟩ := ofJson_eq_ok hb
  refine ⟨?_, ?_⟩
  · rcases Json.get?_of_same hk h "group-name" with ⟨hn, _⟩ | ⟨v, w, hv, hw, hs⟩
    · rw [hn] at hna
      cases hna
    · obtain rfl := Option.some.inj (hv.symm.trans hna)
      obtain rfl := Option.some.inj (hw.symm.trans hnb)
      rwa [Json.same, beq_iff_eq] at hs
  · rw [hva, hvb]
    exact entries_of_same hk h hea heb

/-! ### Tables that were read from documents -/

/-- Whether a table may have been read from a document: no name stands twice, each group
stands under its own name, and each is what its object configures. -/
structure Table.Proper (t : Table) : Prop where
  /-- No name stands twice. -/
  nodup : (Assoc.keys t).Nodup
  /-- Each group stands under its own name. -/
  named : ∀ e ∈ t, e.2.name = e.1
  /-- Each group is what its object configures. -/
  read : ∀ e ∈ t, ofJson e.2.source = .ok e.2
  /-- No object has a key twice. -/
  keyed : ∀ e ∈ t, e.2.source.Keyed

theorem proper_nil : Table.Proper [] :=
  ⟨List.nodup_nil, fun _ h => absurd h List.not_mem_nil, fun _ h => absurd h List.not_mem_nil,
    fun _ h => absurd h List.not_mem_nil⟩

/-- Adding a group that was read leaves a table proper. -/
theorem Table.Proper.add {t : Table} (h : t.Proper) {g : DscpGroup}
    (hg : ofJson g.source = .ok g) (hk : g.source.Keyed) : (t.add g).Proper := by
  have hmem : ∀ e ∈ t.add g, e = (g.name, g) ∨ e ∈ t := fun e he => Assoc.mem_insert he
  refine ⟨Assoc.nodup_keys_insert g h.nodup, fun e he => ?_, fun e he => ?_, fun e he => ?_⟩
  · rcases hmem e he with rfl | he
    · rfl
    · exact h.named e he
  · rcases hmem e he with rfl | he
    · exact hg
    · exact h.read e he
  · rcases hmem e he with rfl | he
    · exact hk
    · exact h.keyed e he

theorem Table.Proper.foldl_add {gs : List DscpGroup}
    (hg : ∀ g ∈ gs, ofJson g.source = .ok g ∧ g.source.Keyed) :
    ∀ {t : Table}, t.Proper → (gs.foldl Table.add t).Proper := by
  induction gs with
  | nil => exact fun h => h
  | cons g gs ih =>
    intro t h
    have hhead := hg g List.mem_cons_self
    exact ih (fun g hm => hg g (List.mem_cons_of_mem _ hm)) (h.add hhead.1 hhead.2)

theorem proper_ofItems {items : List Json} (h : ∀ item ∈ items, item.Keyed) :
    (ofItems items).Proper := by
  refine Table.Proper.foldl_add (fun g hg => ?_) proper_nil
  obtain ⟨item, hi, hok⟩ := List.mem_filterMap.mp hg
  cases hr : ofJson item with
  | error e => simp [hr, Except.toOption] at hok
  | ok g' =>
    rw [hr] at hok
    obtain rfl : g' = g := Option.some.inj hok
    obtain ⟨hs, _⟩ := ofJson_eq_ok hr
    rw [hs]
    exact ⟨hr, h item hi⟩

theorem keyed_items {doc : Json} (h : doc.Keyed) : ∀ item ∈ items doc, item.Keyed := by
  -- One step down along the path to the list.
  have hstep : ∀ {o : Option Json} {key : String}, (∀ j, o = some j → j.Keyed) →
      ∀ j, o.bind (·.get? key) = some j → j.Keyed := by
    intro o key ho j hj
    obtain ⟨i, hi, hij⟩ := Option.bind_eq_some_iff.mp hj
    exact (ho i hi).get? hij
  intro item hm
  rw [items] at hm
  cases hl : ((doc.get? resourcesKey).bind (·.get? kindsKey)).bind (·.get? listKey) with
  | none => simp [hl] at hm
  | some list =>
    have hlist : list.Keyed := hstep (hstep fun j hj => h.get? hj) list hl
    cases list <;> simp [hl, Json.items?] at hm
    exact Json.keyed_arr.mp hlist item hm

theorem proper_inDocument {doc : Json} (h : doc.Keyed) : (inDocument doc).Proper :=
  proper_ofItems (keyed_items h)

end DscpGroup

end PacketClassifier
