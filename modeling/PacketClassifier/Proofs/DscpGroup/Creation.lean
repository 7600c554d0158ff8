/-
What the addition of a group says.

The addition of a group states its values behind the last space, in ascending order and
with semicolons between them (`DscpGroup.lastPiece_create`), so it does not show in which
order they were configured. No numeral has a space or a semicolon in it. So a command can
be read in one way only, whatever characters the name of the group has: it tells the name
and how often each value stands in the group (`DscpGroup.command_create_inj`).

* `DscpGroup.creation_canonical`: all of this for groups that were read.
-/
import PacketClassifier.Proofs.Provision.Inventory
import Mathlib.Data.List.Sort

namespace PacketClassifier

namespace Text

/-- What stands behind the last occurrence of a character. -/
def lastPiece (sep : Char) (cs : List Char) : List Char :=
  (splitOn sep cs).getLast (splitOn_ne_nil sep cs)

theorem lastPiece_append_cons {sep : Char} (front : List Char) {back : List Char}
    (h : sep ∉ back) :
    lastPiece sep (front ++ sep :: back) = back := by
  have hsplit : splitOn sep (front ++ sep :: back) = splitOn sep front ++ [back] := by
    rw [splitOn_append_cons, splitOn_of_not_mem h]
  simp only [lastPiece, hsplit, List.getLast_append_singleton]

end Text

theorem Numeral.decimal_injective : Function.Injective decimal := by
  intro m n h
  have hread := congrArg value? h
  rw [value?_decimal, value?_decimal] at hread
  exact Option.some.inj hread

namespace DscpGroup

/-! ### The list of values -/

theorem ascending_perm (g : DscpGroup) : g.ascending.Perm g.values := List.mergeSort_perm _ _

theorem pairwise_ascending (g : DscpGroup) : g.ascending.Pairwise (· ≤ ·) :=
  List.pairwise_mergeSort' (· ≤ ·) g.values

/-- In ascending order only the values themselves matter. -/
theorem ascending_eq_iff {g h : DscpGroup} :
    g.ascending = h.ascending ↔ g.values.Perm h.values := by
  constructor
  · intro heq
    exact g.ascending_perm.symm.trans (heq ▸ h.ascending_perm)
  · intro hp
    have hperm : g.ascending.Perm h.ascending :=
      g.ascending_perm.trans (hp.trans h.ascending_perm.symm)
    exact hperm.eq_of_pairwise' g.pairwise_ascending h.pairwise_ascending

/-- The numerals of values, with semicolons between them. -/
def listing (vs : List UInt32) : List Char :=
  Text.join [';'] (vs.map fun v => Numeral.decimal v.toNat)

theorem toList_valueList (g : DscpGroup) : g.valueList.toList = listing g.ascending :=
  String.toList_ofList

/-- A numeral is a piece: there is something of it, and it has no semicolon in it. -/
theorem piece_of_mem {vs : List UInt32} {p : List Char}
    (h : p ∈ vs.map fun v => Numeral.decimal v.toNat) :
    p ≠ [] ∧ ';' ∉ p := by
  obtain ⟨v, -, rfl⟩ := List.mem_map.mp h
  exact ⟨Numeral.decimal_ne_nil _,
    fun hm => absurd (Numeral.isDigit_of_mem_decimal hm) (by decide)⟩

theorem listing_injective : Function.Injective listing := by
  intro vs ws h
  have hnumerals := Text.eq_of_join (fun _ => piece_of_mem) (fun _ => piece_of_mem) h
  exact List.map_injective_iff.mpr
    (Numeral.decimal_injective.comp fun _ _ => UInt32.toNat_inj.mp) hnumerals

theorem listing_eq_nil_iff {vs : List UInt32} : listing vs = [] ↔ vs = [] := by
  rw [listing, Text.join_eq_nil_iff fun _ hp => (piece_of_mem hp).1, List.map_eq_nil_iff]

theorem valueList_eq_iff {g h : DscpGroup} :
    g.valueList = h.valueList ↔ g.values.Perm h.values := by
  rw [← String.toList_inj, toList_valueList, toList_valueList, listing_injective.eq_iff,
    ascending_eq_iff]

/-! ### The command -/

/-- The values stand behind the last space. -/
theorem lastPiece_create (g : DscpGroup) :
    Text.lastPiece ' ' (Operation.create g).command.toList = listing g.ascending := by
  have hsplit : (Operation.create g).command.toList
      = (Operation.additionWords ++ g.name.toList ++ [' ', '0'])
          ++ ' ' :: g.valueList.toList := by
    rw [Operation.command_create, Operation.middleWord]
    simp
  rw [hsplit, Text.lastPiece_append_cons _ (Operation.space_not_mem_valueList g),
    toList_valueList]

/-- Whatever the names are, equal commands add groups of the same name and the same values. -/
theorem command_create_inj {g h : DscpGroup} :
    (Operation.create g).command = (Operation.create h).command
      ↔ g.name = h.name ∧ g.values.Perm h.values := by
  rw [← valueList_eq_iff]
  constructor
  · intro heq
    have hread := Operation.nameAndValues?_create g
    rw [heq, Operation.nameAndValues?_create h] at hread
    exact Prod.mk.inj (Option.some.inj hread).symm
  · rintro ⟨hname, hvalues⟩
    rw [Operation.create, Operation.create, hname, hvalues]

theorem create_of_perm {g h : DscpGroup} (hname : g.name = h.name)
    (hp : g.values.Perm h.values) :
    Operation.create g = Operation.create h := by
  rw [Operation.create, Operation.create, hname, valueList_eq_iff.mpr hp]

/-- **The addition of a group says what its values are, whatever its name is.** The text
behind the last space of the command lists the values of all entries that have one, in
ascending order, and it is empty only if there are none. In another order the same entries
configure a group that is added by the same operation. Groups are added by the same
command only if they have the same name, whatever characters are in it, and the same
values, each of them as often. -/
theorem creation_canonical :
    (∀ source g, ofJson source = .ok g → ∃ (es : List Json) (vs : List UInt32),
      entries g.name source = .ok es
        ∧ g.values = es.filterMap entryValue? ∧ vs.Perm g.values ∧ vs.Pairwise (· ≤ ·)
        ∧ Text.lastPiece ' ' (Operation.create g).command.toList
          = Text.join [';'] (vs.map fun v => Numeral.decimal v.toNat)
        ∧ (Text.lastPiece ' ' (Operation.create g).command.toList = [] ↔ g.values = []))
      ∧ (∀ source g es fs, ofJson source = .ok g →
        source.get? "dscp" = some (.arr es) → es.Perm fs →
        ∃ g', ofJson (withEntries source fs) = .ok g'
          ∧ Operation.create g' = Operation.create g)
      ∧ ∀ g h, (Operation.create g).command = (Operation.create h).command
          ↔ g.name = h.name ∧ g.values.Perm h.values := by
  refine ⟨?_, ?_, fun g h => command_create_inj⟩
  · intro source g hok
    obtain ⟨-, -, es, hentries, hvalues⟩ := ofJson_eq_ok hok
    refine ⟨es, g.ascending, hentries, hvalues, g.ascending_perm, g.pairwise_ascending,
      lastPiece_create g, ?_⟩
    rw [lastPiece_create, listing_eq_nil_iff, ← List.length_eq_zero_iff,
      g.ascending_perm.length_eq, List.length_eq_zero_iff]
  · intro source g es fs hok hlist hp
    obtain ⟨hvalues, hok'⟩ := ofJson_withEntries hok hlist fs
    refine ⟨_, hok', create_of_perm rfl ?_⟩
    rw [hvalues]
    exact (hp.filterMap entryValue?).symm

/-- A group whose name reads like another group with a value. -/
def spaced : Json :=
  .obj [("group-name", .str "a 0 1"),
    ("dscp", .arr [.str "ef", .str "010", .str "none", .str "1", .str "10"])]

theorem creation_canonical_spaced :
    (∃ (g : DscpGroup) (vs : List UInt32), ofJson spaced = .ok g
        ∧ g.values = [46, 10, 1, 10] ∧ vs.Perm g.values ∧ vs.Pairwise (· ≤ ·)
        ∧ Text.lastPiece ' ' (Operation.create g).command.toList
          = Text.join [';'] (vs.map fun v => Numeral.decimal v.toNat)
        ∧ ∃ g', ofJson (withEntries spaced [.str "10", .str "1", .str "none", .str "010",
            .str "ef"]) = .ok g'
          ∧ Operation.create g' = Operation.create g)
      ∧ (Operation.create ⟨"a 0 1", .null, []⟩).command
          ≠ (Operation.create ⟨"a", .null, [1]⟩).command := by
  obtain ⟨hlisted, hordered, hcommand⟩ := creation_canonical
  have hok : ofJson spaced = .ok ⟨"a 0 1", spaced, [46, 10, 1, 10]⟩ := rfl
  obtain ⟨_, vs, -, -, hp, hsorted, htext, -⟩ := hlisted _ _ hok
  have hreverse := hordered _ _ _ _ hok rfl (List.reverse_perm _).symm
  refine ⟨⟨_, vs, hok, rfl, hp, hsorted, htext, hreverse⟩, fun h => ?_⟩
  exact absurd ((hcommand _ _).mp h).1 (by decide)

end DscpGroup

end PacketClassifier
