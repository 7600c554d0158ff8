/-
What entries are compiled from a match.

An entry belongs to the kind of predicate that it is compiled from
(`Match.kind_of_mem_entries`), and it is well formed: its network is canonical, its port
is one, and its code is not the number that means every code
(`Match.wellFormed_of_predicateOf`). For the networks this rests on their texts, which
give no length that does not fit; for ports and codes it rests on the way they are
compiled.

* `Match.entries_by_kind`: the entries of a match, kind by kind.
* `Match.pairwise_flatMap_kinds`, `Match.countP_flatMap_kinds`: what follows for the list
  of all entries.
-/
import PacketClassifier.Proofs.Address.Network
import PacketClassifier.Proofs.Match.Kinds

namespace PacketClassifier

namespace Entry

/-- The kind of predicate that an entry is compiled from. Classes of messages belong to
the newer version. -/
def kind : Entry → Match.Kind
  | sourceNetwork _ => .source
  | destinationNetwork _ => .destination
  | sourcePort _ => .source
  | destinationPort _ => .destination
  | baseProtocol _ => .protocol
  | finalProtocol _ => .protocol
  | dscp _ => .dscp
  | ttl _ => .ttl
  | fragment _ => .fragment
  | icmpV4 _ => .icmp
  | icmpV6 _ => .icmpv6
  | icmpV6Class _ => .icmpv6

/-- Whether a network has no bit set behind its length, a port has 16 bits, and a code is
not the number that means every code. -/
def WellFormed : Entry → Prop
  | sourceNetwork n => n.Canonical
  | destinationNetwork n => n.Canonical
  | sourcePort p => p.toNat ≤ 65535
  | destinationPort p => p.toNat ≤ 65535
  | icmpV4 t => t.code ≠ some 256
  | icmpV6 t => t.code ≠ some 256
  | _ => True

end Entry

namespace Match

open Json (Members)

/-! ### Kinds of entries -/

/-- The kind of predicates about an end. -/
def End.kind : End → Kind
  | source => .source
  | destination => .destination

theorem EndpointItem.kind_of_mem {side : End} {item : EndpointItem} {e : Entry}
    (h : e ∈ item.entries side) :
    e.kind = side.kind := by
  rcases item with l | _ | p <;> cases side
  · obtain rfl := List.mem_singleton.mp h
    rfl
  · obtain rfl := List.mem_singleton.mp h
    rfl
  · exact absurd h List.not_mem_nil
  · exact absurd h List.not_mem_nil
  · obtain rfl := List.mem_singleton.mp h
    rfl
  · obtain rfl := List.mem_singleton.mp h
    rfl

/-- The kind of predicates about messages of a version. -/
def familyKind : Icmp.Family → Kind
  | .v4 => .icmp
  | .v6 => .icmpv6

theorem kind_icmpEntry (family : Icmp.Family) (t : IcmpType) :
    (icmpEntry family t).kind = familyKind family := by
  cases family with
  | v4 => rfl
  | v6 => rfl

theorem IcmpSelector.kind_of_mem {family : Icmp.Family} {selector : IcmpSelector} {e : Entry}
    (h : e ∈ selector.entries family) : e.kind = familyKind family := by
  cases selector with
  | class_ c =>
    -- The older version has no entries for classes.
    cases family with
    | v4 => exact absurd h List.not_mem_nil
    | v6 =>
      obtain rfl := List.mem_singleton.mp h
      rfl
  | name s =>
    obtain rfl := List.mem_singleton.mp h
    exact kind_icmpEntry _ _
  | type t =>
    obtain rfl := List.mem_singleton.mp h
    exact kind_icmpEntry _ _

theorem kind_protocolEntry (v : Layer × ProtocolValue) :
    (protocolEntry v).kind = .protocol := by
  obtain ⟨layer, v⟩ := v
  cases layer with
  | base => rfl
  | final => rfl

/-- An entry belongs to the kind of the predicate that it is compiled from. -/
theorem kind_of_mem_entries {p : Predicate} {e : Entry} (h : e ∈ p.entries) :
    e.kind = p.kind := by
  cases p with
  | destination items =>
    obtain ⟨item, -, h⟩ := List.mem_flatMap.mp h
    exact EndpointItem.kind_of_mem h
  | source items =>
    obtain ⟨item, -, h⟩ := List.mem_flatMap.mp h
    exact EndpointItem.kind_of_mem h
  | icmp selectors =>
    obtain ⟨selector, -, h⟩ := List.mem_flatMap.mp h
    exact IcmpSelector.kind_of_mem h
  | icmpv6 selectors =>
    obtain ⟨selector, -, h⟩ := List.mem_flatMap.mp h
    exact IcmpSelector.kind_of_mem h
  | protocol values =>
    obtain ⟨v, -, rfl⟩ := List.mem_map.mp h
    exact kind_protocolEntry v
  | dscp v | fragment f | ttl v =>
    obtain rfl := List.mem_singleton.mp h
    rfl

/-- The kinds whose predicates compile to one entry. -/
def Kind.singles : List Kind := [dscp, fragment, ttl]

theorem length_entries_of_single {p : Predicate} (h : p.kind ∈ Kind.singles) :
    p.entries.length = 1 := by
  cases p with
  | dscp v | fragment f | ttl v => rfl
  | destination _ | icmp _ | icmpv6 _ | protocol _ | source _ =>
    simp [Predicate.kind, Kind.singles] at h

/-! ### Networks, ports and codes -/

/-- Whether the length of a network fits its address. -/
def Location.Fits : Location → Prop
  | host _ => True
  | network n => n.length.toNat ≤ n.address.width

/-- Whether this holds of the location in an item, if it is one. -/
def EndpointItem.Fits : EndpointItem → Prop
  | location l => l.Fits
  | port _ => True

/-- Whether this holds of all locations in a predicate. -/
def Predicate.Fits : Predicate → Prop
  | destination items => ∀ item ∈ items, item.Fits
  | source items => ∀ item ∈ items, item.Fits
  | _ => True

theorem fits_location {key : String} {j : Json} {l : Location} (h : location key j = .ok l) :
    l.Fits := by
  rw [location] at h
  cases hs : string j with
  | error fault =>
    rw [hs] at h
    cases h
  | ok text =>
    rw [hs, Steps.ok_bind] at h
    split at h
    · split at h
      · obtain rfl := Except.ok.inj h
        trivial
      · cases h
    · split at h
      · rename_i hn
        obtain rfl := Except.ok.inj h
        exact Network.length_le_of_ofText? hn
      · cases h

theorem fits_endpointField {field : String × Json} {items : List EndpointItem}
    (h : endpointField field = .ok items) :
    ∀ item ∈ items, item.Fits := by
  rw [endpointField] at h
  cases hms : members field.2 with
  | error fault =>
    rw [hms] at h
    cases h
  | ok ms =>
    rw [hms, Steps.ok_bind] at h
    intro item hitem
    split at h
    · obtain ⟨m, -, hm⟩ := Steps.exists_of_mem_mapM h hitem
      obtain ⟨l, hl, rfl⟩ := Steps.bind_pure_eq_ok_iff.mp hm
      exact fits_location hl
    · obtain ⟨m, -, hm⟩ := Steps.exists_of_mem_mapM h hitem
      obtain ⟨p, -, rfl⟩ := Steps.bind_pure_eq_ok_iff.mp hm
      trivial

theorem fits_endpoint {j : Json} {items : List EndpointItem} (h : endpoint j = .ok items) :
    ∀ item ∈ items, item.Fits := by
  rw [endpoint] at h
  cases hms : members j with
  | error fault =>
    rw [hms] at h
    cases h
  | ok ms =>
    rw [hms, Steps.ok_bind, Steps.bind_pure_eq_ok_iff] at h
    obtain ⟨fields, hfields, rfl⟩ := h
    intro item hitem
    obtain ⟨items, hitems, hitem⟩ := List.mem_flatten.mp hitem
    obtain ⟨field, -, hfield⟩ := Steps.exists_of_mem_mapM hfields hitems
    exact fits_endpointField hfield item hitem

/-- What is read has networks that fit. -/
theorem fits_of_predicateOf {kind : Kind} {j : Json} {p : Predicate}
    (h : predicateOf kind j = .ok (some p)) :
    p.Fits := by
  have hkind := kind_of_predicateOf h
  cases p with
  | destination items =>
    obtain rfl : Kind.destination = kind := hkind
    obtain ⟨items', hitems, he⟩ := Steps.bind_pure_eq_ok_iff.mp h
    obtain rfl := Predicate.destination.inj (Option.some.inj he)
    exact fits_endpoint hitems
  | source items =>
    obtain rfl : Kind.source = kind := hkind
    obtain ⟨items', hitems, he⟩ := Steps.bind_pure_eq_ok_iff.mp h
    obtain rfl := Predicate.source.inj (Option.some.inj he)
    exact fits_endpoint hitems
  | dscp _ | fragment _ | icmp _ | icmpv6 _ | protocol _ | ttl _ => trivial

theorem Location.canonical_compiled {l : Location} (h : l.Fits) : l.compiled.Canonical := by
  cases l with
  | host a => exact Network.canonical_host a
  | network n => exact Network.canonical_masked h

theorem EndpointItem.wellFormed_of_mem {side : End} {item : EndpointItem} (hf : item.Fits)
    {e : Entry} (h : e ∈ item.entries side) : e.WellFormed := by
  have hport : ∀ p : UInt16, p.toUInt32.toNat ≤ 65535 := by
    intro p
    have hlt := p.toNat_lt
    rw [UInt16.toNat_toUInt32]
    omega
  rcases item with l | _ | p <;> cases side
  · obtain rfl := List.mem_singleton.mp h
    exact Location.canonical_compiled hf
  · obtain rfl := List.mem_singleton.mp h
    exact Location.canonical_compiled hf
  · exact absurd h List.not_mem_nil
  · exact absurd h List.not_mem_nil
  · obtain rfl := List.mem_singleton.mp h
    exact hport p
  · obtain rfl := List.mem_singleton.mp h
    exact hport p

/-- No name stands for the code that means every code. -/
theorem code_of_named? {family : Icmp.Family} {name : String} {t : IcmpType}
    (h : Icmp.named? family name = some t) :
    t.code ≠ some 256 := by
  obtain ⟨⟨type, code⟩, hl, rfl⟩ := Option.map_eq_some_iff.mp h
  have htable : ∀ family : Icmp.Family, ∀ entry ∈ family.names, entry.2.2 ≠ some 256 := by
    intro family
    cases family with
    | v4 => decide
    | v6 => decide
  exact htable family _ (Assoc.mem_of_lookup_eq_some hl)

theorem code_of_code? (code : Option UInt32) : Icmp.code? code ≠ some 256 := by
  intro h
  rw [Icmp.code?, Option.filter_eq_some_iff] at h
  exact absurd h.2 (by decide)

theorem wellFormed_icmpEntry (family : Icmp.Family) {t : IcmpType} (h : t.code ≠ some 256) :
    (icmpEntry family t).WellFormed := by
  cases family with
  | v4 => exact h
  | v6 => exact h

theorem IcmpSelector.wellFormed_of_mem {family : Icmp.Family} {selector : IcmpSelector}
    {e : Entry} (h : e ∈ selector.entries family) : e.WellFormed := by
  cases selector with
  | class_ c =>
    cases family with
    | v4 => exact absurd h List.not_mem_nil
    | v6 =>
      obtain rfl := List.mem_singleton.mp h
      trivial
  | name s =>
    obtain rfl := List.mem_singleton.mp h
    apply wellFormed_icmpEntry
    cases hs : Icmp.named? family s with
    | none => exact fun h => nomatch h
    | some t => exact code_of_named? hs
  | type t =>
    obtain rfl := List.mem_singleton.mp h
    exact wellFormed_icmpEntry _ (code_of_code? t.code)

theorem wellFormed_of_fits {p : Predicate} (hf : p.Fits) {e : Entry} (h : e ∈ p.entries) :
    e.WellFormed := by
  cases p with
  | destination items =>
    obtain ⟨item, hitem, h⟩ := List.mem_flatMap.mp h
    exact EndpointItem.wellFormed_of_mem (hf item hitem) h
  | source items =>
    obtain ⟨item, hitem, h⟩ := List.mem_flatMap.mp h
    exact EndpointItem.wellFormed_of_mem (hf item hitem) h
  | icmp selectors =>
    obtain ⟨selector, -, h⟩ := List.mem_flatMap.mp h
    exact IcmpSelector.wellFormed_of_mem h
  | icmpv6 selectors =>
    obtain ⟨selector, -, h⟩ := List.mem_flatMap.mp h
    exact IcmpSelector.wellFormed_of_mem h
  | protocol values =>
    obtain ⟨⟨layer, v⟩, -, rfl⟩ := List.mem_map.mp h
    cases layer with
    | base => trivial
    | final => trivial
  | dscp v | fragment f | ttl v =>
    obtain rfl := List.mem_singleton.mp h
    trivial

/-- The entries of what is read are well formed. -/
theorem wellFormed_of_predicateOf {kind : Kind} {j : Json} {p : Predicate}
    (h : predicateOf kind j = .ok (some p)) {e : Entry} (he : e ∈ p.entries) : e.WellFormed :=
  wellFormed_of_fits (fits_of_predicateOf h) he

/-- All entries of a match are well formed. -/
theorem wellFormed_of_mem_entries {ms : Members} {es : List Entry} (h : entries ms = .ok es)
    {e : Entry} (he : e ∈ es) :
    e.WellFormed := by
  obtain ⟨ps, hps, rfl⟩ := Steps.bind_pure_eq_ok_iff.mp h
  obtain ⟨qs, hqs, rfl⟩ := predicates_eq_ok_iff.mp hps
  obtain ⟨p, hp, hep⟩ := List.mem_flatMap.mp he
  rw [read_eq, Steps.bind_pure_eq_ok_iff] at hqs
  obtain ⟨asked, hasked, rfl⟩ := hqs
  -- Sorting keeps the predicates, and each one was read from a member.
  obtain ⟨q, hq, hpq⟩ := List.mem_flatMap.mp (List.mem_mergeSort.mp hp)
  obtain ⟨m, -, hm⟩ := Steps.exists_of_mem_mapM hasked hq
  obtain rfl := Option.mem_toList.mp hpq
  rw [predicate?] at hm
  split at hm
  · exact wellFormed_of_predicateOf hm hep
  · cases hm

/-! ### Kind by kind -/

/-- What entries a kind may compile to: well-formed ones of this kind, and one at most for
some kinds. -/
structure Kind.Yields (kind : Kind) (es : List Entry) : Prop where
  kind_eq : ∀ e ∈ es, e.kind = kind
  wellFormed : ∀ e ∈ es, e.WellFormed
  length_le : kind ∈ Kind.singles → es.length ≤ 1

theorem Kind.yields_nil (kind : Kind) : kind.Yields [] :=
  ⟨fun _ h => absurd h List.not_mem_nil, fun _ h => absurd h List.not_mem_nil,
    fun _ => Nat.zero_le 1⟩

theorem yields_of_entries_singleton {kind : Kind} {j : Json} {es : List Entry}
    (h : entries [(kind.name, j)] = .ok es) : kind.Yields es := by
  have hread : ∃ q, predicateOf kind j = .ok q ∧ q.toList.flatMap Predicate.entries = es := by
    rw [entries, predicates_singleton, predicate?, kind.ofName?_name] at h
    obtain ⟨ps, hps, rfl⟩ := Steps.bind_pure_eq_ok_iff.mp h
    obtain ⟨q, hq, rfl⟩ := Steps.bind_pure_eq_ok_iff.mp hps
    exact ⟨q, hq, rfl⟩
  obtain ⟨_ | p, hq, rfl⟩ := hread
  · exact kind.yields_nil
  · have hkind := kind_of_predicateOf hq
    rw [Option.toList_some, List.flatMap_singleton]
    constructor
    · intro e he
      rw [kind_of_mem_entries he, hkind]
    · intro e he
      exact wellFormed_of_predicateOf hq he
    · intro hsingle
      exact Nat.le_of_eq (length_entries_of_single (hkind ▸ hsingle))

/-- The entries of a match, kind by kind. -/
theorem entries_by_kind {ms : Members} (hn : (Assoc.keys ms).Nodup) {es : List Entry}
    (h : entries ms = .ok es) :
    ∃ alone : Kind → List Entry, es = Kind.all.flatMap alone
      ∧ (∀ (kind : Kind) (j : Json), ms.get? kind.name = some j →
          entries [(kind.name, j)] = .ok (alone kind))
      ∧ (∀ kind : Kind, ms.get? kind.name = none → alone kind = [])
      ∧ ∀ kind : Kind, kind.Yields (alone kind) := by
  obtain ⟨ps, hps, rfl⟩ := Steps.bind_pure_eq_ok_iff.mp h
  obtain ⟨alone, heq, hpresent, habsent⟩ := entries_eq hn hps
  refine ⟨alone, heq, hpresent, habsent, fun kind => ?_⟩
  cases hj : ms.get? kind.name with
  | none =>
    rw [habsent kind hj]
    exact kind.yields_nil
  | some j => exact yields_of_entries_singleton (hpresent kind j hj)

variable {alone : Kind → List Entry}

/-- Entries that come kind by kind are in the order of their kinds. -/
theorem pairwise_flatMap_kinds (h : ∀ kind : Kind, kind.Yields (alone kind)) :
    (Kind.all.flatMap alone).Pairwise fun e f => e.kind.rank ≤ f.kind.rank := by
  have hranks : Kind.all.Pairwise fun k l => k.rank ≤ l.rank := by decide
  refine List.pairwise_flatMap.mpr ⟨fun kind _ => ?_, hranks.imp ?_⟩
  · refine List.pairwise_of_forall_mem_list fun e he f hf => Nat.le_of_eq ?_
    rw [(h kind).kind_eq e he, (h kind).kind_eq f hf]
  · intro k l hkl e he f hf
    rw [(h k).kind_eq e he, (h l).kind_eq f hf]
    exact hkl

/-- The entries of one kind are those that this kind yields. -/
theorem countP_flatMap_kinds (h : ∀ kind : Kind, kind.Yields (alone kind)) (kind : Kind) :
    (Kind.all.flatMap alone).countP (fun e => e.kind = kind) = (alone kind).length := by
  have hcount : (List.countP fun e : Entry => decide (e.kind = kind)) ∘ alone
      = fun k => if k = kind then (alone k).length else 0 := by
    funext k
    rw [Function.comp_apply]
    split
    · rename_i hk
      rw [List.countP_eq_length]
      intro e he
      exact decide_eq_true (((h k).kind_eq e he).trans hk)
    · rename_i hk
      rw [List.countP_eq_zero]
      intro e he
      rw [decide_eq_true_eq, (h k).kind_eq e he]
      exact hk
  rw [List.countP_flatMap, hcount]
  cases kind <;> simp [Kind.all]

end Match

end PacketClassifier
