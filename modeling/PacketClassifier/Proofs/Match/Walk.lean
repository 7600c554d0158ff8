/-
One walk over a match, for two documents at a time.

Reading looks at a document in a few ways only: as a string, as a number, as an object,
and at the first item of a list. Two documents look alike if what is seen in these ways is
related (`Match.Strings`, `Match.Words`, `Match.Opens`, `Match.Firsts`), and
`Kind.LooksAlike` puts this together along the way on which the values of a kind are read.
Values that look alike are read as predicates of the same kind and the same entries
(`Match.alike_predicateOf`), and so are whole matches (`Match.alike_read`).

So whatever makes no difference to a match, be it the order of keys or the spelling of
values, has to be followed only to the places where readers look.
-/
import PacketClassifier.Match.Reader
import PacketClassifier.Proofs.Except
import PacketClassifier.Proofs.Json.Parallel

namespace PacketClassifier

namespace Match

open Json (Members)
open Steps (Alike)

/-! ### What compiles alike -/

/-- Whether two locations compile to the same network. -/
def Location.Same (l l' : Location) : Prop := l.compiled = l'.compiled

/-- Whether two items of an endpoint compile to the same entries on either side. -/
def EndpointItem.Same (a b : EndpointItem) : Prop := ∀ side, a.entries side = b.entries side

/-- Whether two selectors compile to the same entries in either version. -/
def IcmpSelector.Same (c d : IcmpSelector) : Prop :=
  ∀ family, c.entries family = d.entries family

/-- Whether two predicates have the same kind and compile to the same entries. -/
structure Predicate.Same (p q : Predicate) : Prop where
  kind : p.kind = q.kind
  entries : p.entries = q.entries

theorem Predicate.Same.refl (p : Predicate) : p.Same p := ⟨rfl, rfl⟩

/-- Predicates that compile alike do so in the order of their kinds, too. -/
theorem entries_sort_eq {ps qs : List Predicate} (h : List.Forall₂ Predicate.Same ps qs) :
    (Predicate.sort ps).flatMap Predicate.entries
      = (Predicate.sort qs).flatMap Predicate.entries := by
  have hsorted : List.Forall₂ Predicate.Same (Predicate.sort ps) (Predicate.sort qs) := by
    refine forall₂_mergeSort h fun p q p' q' hp hp' => ?_
    rw [hp.kind, hp'.kind]
  exact flatMap_eq_of_forall₂ hsorted fun _ _ h => h.entries

/-! ### How documents are looked at -/

/-- Whether two documents are the same string, or neither is a string. -/
def Strings (i j : Json) : Prop := Alike Eq (string i) (string j)

/-- Whether two documents are the same number, or neither is a number. -/
def Words (i j : Json) : Prop := Alike Eq (word i) (word j)

/-- Whether the first items of two lists are related. A document that is no list is its
own first item. -/
def Firsts (R : Json → Json → Prop) (i j : Json) : Prop := Option.Rel R (first? i) (first? j)

/-- Whether two lists of members have related values under each key, and in ascending
order of the keys one by one. -/
structure Aligned (V : String → Json → Json → Prop) (ms ns : Members) : Prop where
  get? : ∀ key, Option.Rel (V key) (ms.get? key) (ns.get? key)
  sorted : Members.Parallel V ms.sorted ns.sorted

/-- Whether two documents are objects with related members, or neither is an object. -/
def Opens (V : String → Json → Json → Prop) (i j : Json) : Prop :=
  Alike (Aligned V) (members i) (members j)

/-- Whether two values under a key are read as locations that compile alike. -/
def Locations (key : String) (i j : Json) : Prop :=
  Alike Location.Same (location key i) (location key j)

/-- Whether two documents are read as message types that compile alike. -/
def Messages (i j : Json) : Prop :=
  Alike (fun t u => IcmpSelector.Same (.type t) (.type u)) (icmpType i) (icmpType j)

/-- How the fields of an endpoint are looked at. -/
def fieldValues (field : String) : Json → Json → Prop :=
  if field = "ipv4" ∨ field = "ipv6" then Opens Locations else Opens fun _ => Firsts Words

/-- How the protocol of a layer is looked at. -/
def protocolValues (key : String) (i j : Json) : Prop :=
  (key = "name" → Strings i j) ∧ (key = "number" → Words i j)

/-- How a code point is looked at. -/
def dscpValues (key : String) (i j : Json) : Prop := (key = "name" → Strings i j) ∧ Words i j

/-- How a message type is looked at. -/
def messageValues (key : String) (i j : Json) : Prop :=
  key = "type-number" ∨ key = "code" → Words i j

/-- How selectors of messages are looked at. -/
def selectorValues (key : String) (i j : Json) : Prop :=
  (key = "class" ∨ key = "name" → Strings i j) ∧ (key = "type" → Firsts Messages i j)

/-- How a time to live is looked at. -/
def ttlValues (key : String) (i j : Json) : Prop := key = "equals" → Words i j

/-- Whether two values of a kind look alike wherever they are looked at. -/
def Kind.LooksAlike : Kind → Json → Json → Prop
  | destination | source => Opens fieldValues
  | protocol => Opens fun _ => Opens protocolValues
  | dscp => Opens dscpValues
  | fragment => Strings
  | icmp | icmpv6 => Opens selectorValues
  | ttl => Opens ttlValues

/-! ### The walk -/

variable {i j : Json} {ms ns : Members} {V : String → Json → Json → Prop}

theorem Aligned.of_parallel (h : Members.Parallel V ms ns) : Aligned V ms ns :=
  ⟨h.get?, h.sorted⟩

/-- Related members are walked with related results. -/
theorem Aligned.walk {α : Type} {R : α → α → Prop} {read : String × Json → Except Fault α}
    (h : Aligned V ms ns)
    (hread : ∀ key i j, V key i j → Alike R (read (key, i)) (read (key, j))) :
    Alike (List.Forall₂ R) (ms.sorted.mapM read) (ns.sorted.mapM read) := by
  refine Steps.Related.mapM h.sorted ?_
  rintro ⟨key, i⟩ ⟨_, j⟩ ⟨rfl, hij⟩
  exact hread key i j hij

theorem alike_optional {α : Type} {S : α → α → Prop} {R : Json → Json → Prop}
    {read : Json → Except Fault α} {o p : Option Json} (hop : Option.Rel R o p)
    (h : ∀ i j, R i j → Alike S (read i) (read j)) :
    Alike (Option.Rel S) (optional read o) (optional read p) := by
  cases hop with
  | none => exact .ok .none
  | some hij => exact (h _ _ hij).map fun _ _ hab => .some hab

theorem alike_optional_word {o p : Option Json} (hop : Option.Rel Words o p) :
    Alike Eq (optional word o) (optional word p) :=
  (alike_optional hop fun _ _ hij => hij).imp fun _ _ => eq_of_rel

theorem alike_port (h : Words i j) : Alike Eq (port i) (port j) := by
  refine Steps.Related.bind h ?_
  rintro n _ rfl
  split
  · exact .ok rfl
  · exact .error trivial

theorem locations_of_strings (key : String) (h : Strings i j) : Locations key i j := by
  have hrefl : ∀ l : Location, l.Same l := fun _ => rfl
  refine Steps.Related.bind h ?_
  rintro text _ rfl
  exact Alike.refl hrefl _

theorem alike_endpointField {field : String} (h : fieldValues field i j) :
    Alike (List.Forall₂ EndpointItem.Same) (endpointField (field, i))
      (endpointField (field, j)) := by
  rw [fieldValues] at h
  rw [endpointField, endpointField]
  by_cases hfield : field = "ipv4" ∨ field = "ipv6"
  · simp only [if_pos hfield] at h ⊢
    refine Steps.Related.bind h fun ms ns hms => hms.walk fun key i j hij => ?_
    refine Steps.Related.map hij fun l l' hl side => ?_
    cases side with
    | source => exact congrArg (fun n => [Entry.sourceNetwork n]) hl
    | destination => exact congrArg (fun n => [Entry.destinationNetwork n]) hl
  · simp only [if_neg hfield] at h ⊢
    refine Steps.Related.bind h fun ms ns hms => hms.walk fun key i j hij => ?_
    refine (alike_optional hij fun _ _ => alike_port).map fun p q hpq side => ?_
    rw [eq_of_rel hpq]

theorem alike_endpoint (h : Opens fieldValues i j) :
    Alike (List.Forall₂ EndpointItem.Same) (endpoint i) (endpoint j) :=
  Steps.Related.bind h fun _ _ hms =>
    (hms.walk fun _ _ _ => alike_endpointField).map fun _ _ hf => List.rel_flatten hf

theorem alike_protocolValue (h : Aligned protocolValues ms ns) :
    Alike Eq (protocolValue ms) (protocolValue ns) := by
  have hname := h.get? "name"
  have hnumber := h.get? "number"
  rw [protocolValue, protocolValue]
  generalize ms.get? "name" = o, ns.get? "name" = p at hname ⊢
  generalize ms.get? "number" = o', ns.get? "number" = p' at hnumber ⊢
  cases hname with
  | some hij => exact Steps.Related.map_eq (hij.1 rfl) _
  | none =>
    cases hnumber with
    | some hij => exact Steps.Related.map_eq (hij.2 rfl) _
    | none => exact .ok rfl

theorem alike_protocol (h : Opens (fun _ => Opens protocolValues) i j) :
    Alike Eq (protocol i) (protocol j) := by
  refine Steps.Related.bind h fun layers layers' hlayers => ?_
  have hwalk : Alike (List.Forall₂ Eq) (layers.sorted.mapM layer)
      (layers'.sorted.mapM layer) := by
    refine hlayers.walk fun key i j hij => ?_
    exact Steps.Related.bind hij fun ms ns hms => (alike_protocolValue hms).map_eq _
  rwa [List.forall₂_eq_eq_eq] at hwalk

theorem alike_dscp (h : Opens dscpValues i j) : Alike Eq (dscp i) (dscp j) := by
  refine Steps.Related.bind h fun ms ns hms => ?_
  have hname := hms.get? "name"
  have hsorted := hms.sorted
  generalize ms.get? "name" = o, ns.get? "name" = p at hname ⊢
  generalize ms.sorted = es, ns.sorted = ds at hsorted ⊢
  cases hname with
  | some hij => exact Steps.Related.map_eq (hij.1 rfl) _
  | none =>
    cases hsorted with
    | nil => exact .ok rfl
    | cons hmn _ => exact Steps.Related.map_eq hmn.2.2 _

theorem messages_of_opens (h : Opens messageValues i j) : Messages i j := by
  refine Steps.Related.bind h fun ms ns hms => ?_
  have htype : Option.Rel Words (ms.get? "type-number") (ns.get? "type-number") :=
    rel_imp (hms.get? "type-number") fun _ _ hij => hij (.inl rfl)
  have hcode : Option.Rel Words (ms.get? "code") (ns.get? "code") :=
    rel_imp (hms.get? "code") fun _ _ hij => hij (.inr rfl)
  refine (alike_optional_word htype).bind ?_
  rintro type _ rfl
  refine (alike_optional_word hcode).map ?_
  rintro code _ rfl family
  rfl

theorem alike_icmpSelector {key : String} (h : selectorValues key i j) :
    Alike (Option.Rel IcmpSelector.Same) (icmpSelector (key, i)) (icmpSelector (key, j)) := by
  have hrefl : ∀ o : Option IcmpSelector, Option.Rel IcmpSelector.Same o o :=
    rel_refl fun _ _ => rfl
  rw [icmpSelector, icmpSelector]
  by_cases hclass : key = "class"
  · rw [if_pos hclass, if_pos hclass]
    exact Steps.Related.map (h.1 (.inl hclass)) fun _ _ hs => hs ▸ hrefl _
  by_cases hname : key = "name"
  · rw [if_neg hclass, if_neg hclass, if_pos hname, if_pos hname]
    exact Steps.Related.map (h.1 (.inr hname)) fun _ _ hs => hs ▸ hrefl _
  by_cases htype : key = "type"
  · rw [if_neg hclass, if_neg hclass, if_neg hname, if_neg hname, if_pos htype, if_pos htype]
    refine (alike_optional (h.2 htype) fun _ _ hij => hij).map fun t u htu => ?_
    cases htu with
    | none => exact .none
    | some htu => exact .some htu
  · rw [if_neg hclass, if_neg hclass, if_neg hname, if_neg hname, if_neg htype, if_neg htype]
    exact .ok .none

theorem alike_icmp (h : Opens selectorValues i j) :
    Alike (List.Forall₂ IcmpSelector.Same) (icmp i) (icmp j) :=
  Steps.Related.bind h fun _ _ hms =>
    (hms.walk fun _ _ _ => alike_icmpSelector).map fun _ _ hcs =>
      List.rel_filterMap (fun _ _ h => h) hcs

theorem alike_ttl (h : Opens ttlValues i j) : Alike Eq (ttl i) (ttl j) :=
  Steps.Related.bind h fun _ _ hms =>
    alike_optional_word (rel_imp (hms.get? "equals") fun _ _ hij => hij rfl)

/-- Values of a kind that look alike ask for predicates that compile alike. -/
theorem alike_predicateOf (kind : Kind) (h : kind.LooksAlike i j) :
    Alike (Option.Rel Predicate.Same) (predicateOf kind i) (predicateOf kind j) := by
  have hrefl : ∀ o : Option Predicate, Option.Rel Predicate.Same o o := rel_refl .refl
  cases kind with
  | destination =>
    exact (alike_endpoint h).map fun _ _ hab =>
      .some ⟨rfl, flatMap_eq_of_forall₂ hab fun _ _ hab => hab .destination⟩
  | source =>
    exact (alike_endpoint h).map fun _ _ hab =>
      .some ⟨rfl, flatMap_eq_of_forall₂ hab fun _ _ hab => hab .source⟩
  | protocol => exact (alike_protocol h).map fun _ _ hv => hv ▸ hrefl _
  | dscp => exact (alike_dscp h).map fun _ _ hv => hv ▸ hrefl _
  | fragment => exact Steps.Related.map h fun _ _ hs => hs ▸ hrefl _
  | icmp =>
    exact (alike_icmp h).map fun _ _ hab =>
      .some ⟨rfl, flatMap_eq_of_forall₂ hab fun _ _ hab => hab .v4⟩
  | icmpv6 =>
    exact (alike_icmp h).map fun _ _ hab =>
      .some ⟨rfl, flatMap_eq_of_forall₂ hab fun _ _ hab => hab .v6⟩
  | ttl => exact (alike_ttl h).map fun _ _ hv => hv ▸ hrefl _

/-- Matches with values that look alike, key by key, are read as predicates that compile
alike. -/
theorem alike_read
    (h : Members.Parallel (fun key i j => ∀ kind, Kind.ofName? key = some kind →
      kind.LooksAlike i j) ms ns) :
    Alike (List.Forall₂ Predicate.Same) (read ms) (read ns) := by
  induction h with
  | nil => exact .ok .nil
  | @cons m n ms ns hm _ ih =>
    obtain ⟨hkey, hvalue⟩ := hm
    -- Equal keys ask for the same kind of predicate.
    have hp : Alike (Option.Rel Predicate.Same) (predicate? m) (predicate? n) := by
      rw [predicate?, predicate?, ← hkey]
      cases hk : Kind.ofName? m.1 with
      | none => exact .ok .none
      | some kind => exact alike_predicateOf kind (hvalue kind hk)
    rw [read, read]
    refine hp.bind fun p q hpq => ih.map fun ps qs hps => ?_
    cases hpq with
    | none => exact hps
    | some hpq => exact .cons hpq hps

end Match

end PacketClassifier
