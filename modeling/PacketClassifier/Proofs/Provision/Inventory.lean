/-
What a store holds, and what operations make of it.

An operation is only text to a store. `Operation.effect?` reads off it which group is
added, with which list of values, or which one is removed, and `Inventory.replay` carries
out operations one after another, as long as only groups that are there are removed and
only groups that are not there are added.

* `Inventory.replay_removals`, `Inventory.replay_additions`: what many removals and many
  additions come to.
-/
import PacketClassifier.Proofs.DscpGroup
import PacketClassifier.Proofs.Text.Pieces
import PacketClassifier.Provision.Plan

namespace PacketClassifier

/-- What an operation asks a store to do. -/
inductive Effect where
  | add (name values : String)
  | remove (name : String)
  /-- Puts into effect what was asked before; nothing is added or removed. -/
  | settle
  deriving DecidableEq, Repr

namespace Operation

/-- The words in front of a group that is added. -/
def additionWords : List Char := "npf-cfg add dscp-group:".toList

/-- The words in front of a group that is removed. -/
def removalWords : List Char := "npf-cfg delete dscp-group:".toList

/-- The word between the name and the values of a group that is added. -/
def middleWord : List Char := " 0 ".toList

/-- What follows some words, if a text starts with them. -/
def after? (words cs : List Char) : Option (List Char) :=
  if words.isPrefixOf cs then some (cs.drop words.length) else none

/-- A name and a list of values, which stands behind the last space. A name may hold any
characters. -/
def nameAndValues? (cs : List Char) : Option (String × String) :=
  let front := (cs.reverse.dropWhile (· != ' ')).reverse
  let values := (cs.reverse.takeWhile (· != ' ')).reverse
  if middleWord.isSuffixOf front then
    some (String.ofList (front.take (front.length - middleWord.length)), String.ofList values)
  else none

/-- What the text of an operation asks for. -/
def effect? (o : Operation) : Option Effect :=
  match o.verb with
  | .delete => (after? removalWords o.command.toList).map fun cs => .remove (String.ofList cs)
  | .set =>
    if o = commit then some .settle
    else ((after? additionWords o.command.toList).bind nameAndValues?).map
      fun (name, values) => .add name values

theorem after?_append (words cs : List Char) : after? words (words ++ cs) = some cs := by
  rw [after?, if_pos (List.isPrefixOf_iff_prefix.mpr (List.prefix_append words cs)),
    List.drop_left]

theorem space_not_mem_valueList (g : DscpGroup) : ' ' ∉ g.valueList.toList := by
  rw [DscpGroup.valueList, String.toList_ofList]
  intro h
  rcases Text.mem_of_mem_join h with h | ⟨p, hp, h⟩
  · exact absurd h (by decide)
  · obtain ⟨v, _, rfl⟩ := List.mem_map.mp hp
    exact absurd (Numeral.isDigit_of_mem_decimal h) (by decide)

/-- The name and the values are told apart whatever the name is. -/
theorem nameAndValues?_append (name values : String) (h : ' ' ∉ values.toList) :
    nameAndValues? (name.toList ++ middleWord ++ values.toList) = some (name, values) := by
  have hv : ∀ c ∈ values.toList.reverse, (c != ' ') = true := by
    intro c hc
    rw [bne_iff_ne]
    rintro rfl
    exact h (List.mem_reverse.mp hc)
  -- Seen from the end, the values come first, and the space in front of them is the first
  -- one.
  have hr : (name.toList ++ middleWord ++ values.toList).reverse
      = values.toList.reverse ++ ' ' :: '0' :: ' ' :: name.toList.reverse := by
    rw [List.reverse_append, List.reverse_append]
    rfl
  have hspace : ∀ c, (' ' :: '0' :: ' ' :: name.toList.reverse).head? = some c →
      (c != ' ') = false := by
    rintro _ ⟨⟩
    rfl
  have htake : (name.toList ++ middleWord ++ values.toList).reverse.takeWhile (· != ' ')
      = values.toList.reverse := by
    rw [hr, Text.takeWhile_append hv hspace]
  have hdrop :
      ((name.toList ++ middleWord ++ values.toList).reverse.dropWhile (· != ' ')).reverse
        = name.toList ++ middleWord := by
    rw [hr, Text.dropWhile_append hv hspace]
    simp [middleWord]
  have hlen : (name.toList ++ middleWord).length - middleWord.length
      = name.toList.length := by
    rw [List.length_append, Nat.add_sub_cancel]
  rw [nameAndValues?, htake, hdrop,
    if_pos (List.isSuffixOf_iff_suffix.mpr (List.suffix_append _ _)), hlen, List.take_left,
    List.reverse_reverse, String.ofList_toList, String.ofList_toList]

theorem effect?_set (path command : String) :
    (set path command).effect? = if set path command = commit then some .settle
      else ((after? additionWords command.toList).bind nameAndValues?).map
        fun (name, values) => .add name values :=
  rfl

theorem effect?_remove (g : DscpGroup) : (remove g).effect? = some (.remove g.name) := by
  have hc : (remove g).command.toList = removalWords ++ g.name.toList := String.toList_append
  show (after? removalWords (remove g).command.toList).map _ = _
  rw [hc, after?_append, Option.map_some, String.ofList_toList]

theorem create_ne_commit (g : DscpGroup) : create g ≠ commit := by
  intro h
  have hc := congrArg (fun o : Operation => o.command.toList.head?) h
  simp [create, commit, set, String.toList_append] at hc

theorem command_create (g : DscpGroup) :
    (create g).command.toList
      = additionWords ++ (g.name.toList ++ middleWord ++ g.valueList.toList) := by
  show ("npf-cfg add dscp-group:" ++ g.name ++ " 0 " ++ g.valueList).toList = _
  rw [String.toList_append, String.toList_append, String.toList_append, List.append_assoc,
    List.append_assoc, List.append_assoc]
  rfl

/-- The command tells the name and the list of values apart. -/
theorem nameAndValues?_create (g : DscpGroup) :
    (after? additionWords (create g).command.toList).bind nameAndValues?
      = some (g.name, g.valueList) := by
  rw [command_create, after?_append, Option.bind_some,
    nameAndValues?_append _ _ (space_not_mem_valueList g)]

theorem effect?_create (g : DscpGroup) :
    (create g).effect? = some (.add g.name g.valueList) := by
  have hset : (create g).effect? = if create g = commit then some .settle
      else ((after? additionWords (create g).command.toList).bind nameAndValues?).map
        fun (name, values) => .add name values := effect?_set _ _
  rw [hset, if_neg (create_ne_commit g), nameAndValues?_create, Option.map_some]

theorem effect?_commit : commit.effect? = some .settle := by
  rw [commit, effect?_set]
  exact if_pos rfl

end Operation

/-- What a store holds: for each name the list of values of the group, if there is one. -/
abbrev Inventory := String → Option String

namespace Inventory

/-- The groups of a table. -/
def ofTable (t : DscpGroup.Table) : Inventory :=
  fun name => (t.lookup name).map DscpGroup.valueList

/-- The groups that are read from a document. -/
def ofDocument (doc : Json) : Inventory := ofTable (DscpGroup.inDocument doc)

/-- Names with their lists of values, and nothing else. -/
def ofList (entries : List (String × String)) : Inventory := fun name => entries.lookup name

theorem ofTable_eq_ofList (t : DscpGroup.Table) :
    ofTable t = ofList (t.map fun e => (e.1, e.2.valueList)) := by
  funext name
  induction t with
  | nil => rfl
  | cons e t ih =>
    rw [ofTable, ofList] at ih ⊢
    rw [List.map_cons, List.lookup_cons, List.lookup_cons, ← ih]
    split <;> rfl

/-- Holds something else under a name, or nothing any more. -/
def set (held : Inventory) (name : String) (values : Option String) : Inventory :=
  fun n => if n = name then values else held n

/-- Whether an effect meets what it expects: a group to be added must not be there, and
one to be removed must. -/
def admits (held : Inventory) : Effect → Bool
  | .add name _ => (held name).isNone
  | .remove name => (held name).isSome
  | .settle => true

/-- What an effect makes of what is held. -/
def after (held : Inventory) : Effect → Inventory
  | .add name values => held.set name (some values)
  | .remove name => held.set name none
  | .settle => held

/-- Carries out one operation, unless it cannot be read or does not meet what it expects. -/
def apply (held : Inventory) (o : Operation) : Option Inventory :=
  o.effect?.bind fun e => if held.admits e then some (held.after e) else none

/-- Carries out operations one after another. -/
def replay (held : Inventory) (os : List Operation) : Option Inventory := os.foldlM apply held

theorem replay_nil (held : Inventory) : held.replay [] = some held := rfl

theorem replay_cons (held : Inventory) (o : Operation) (os : List Operation) :
    held.replay (o :: os) = (held.apply o).bind fun h => h.replay os := rfl

theorem replay_append (held : Inventory) (os ps : List Operation) :
    held.replay (os ++ ps) = (held.replay os).bind fun h => h.replay ps := by
  rw [replay, List.foldlM_append]
  rfl

/-- Removals of different groups that are all there leave the rest. -/
theorem replay_removals {gs : List DscpGroup} :
    ∀ {held : Inventory}, (gs.map DscpGroup.name).Nodup →
      (∀ g ∈ gs, (held g.name).isSome = true) →
      held.replay (gs.map Operation.remove)
        = some fun n => if n ∈ gs.map DscpGroup.name then none else held n := by
  induction gs with
  | nil =>
    intro held _ _
    rw [List.map_nil, replay_nil]
    simp
  | cons g gs ih =>
    intro held hn hp
    rw [List.map_cons, List.nodup_cons] at hn
    have hstep : held.apply (.remove g) = some (held.set g.name none) := by
      rw [apply, Operation.effect?_remove, Option.bind_some, admits,
        if_pos (hp g List.mem_cons_self), after]
    -- The other groups have other names, so they are still there.
    have hrest : ∀ g' ∈ gs, (held.set g.name none g'.name).isSome = true := by
      intro g' hg
      have hne : g'.name ≠ g.name := fun e => hn.1 (e ▸ List.mem_map_of_mem hg)
      rw [set, if_neg hne]
      exact hp g' (List.mem_cons_of_mem _ hg)
    rw [List.map_cons, replay_cons, hstep, Option.bind_some, ih hn.2 hrest]
    congr 1
    funext n
    by_cases h : n = g.name <;> by_cases hm : n ∈ gs.map DscpGroup.name <;> simp [set, h, hm]

/-- Additions of different groups none of which is there hold all of them besides what was
held. -/
theorem replay_additions {gs : List DscpGroup} :
    ∀ {held : Inventory}, (gs.map DscpGroup.name).Nodup → (∀ g ∈ gs, held g.name = none) →
      held.replay (gs.map Operation.create)
        = some fun n => ((gs.map fun g => (g.name, g.valueList)).lookup n).or (held n) := by
  induction gs with
  | nil =>
    intro held _ _
    rw [List.map_nil, replay_nil]
    rfl
  | cons g gs ih =>
    intro held hn hp
    rw [List.map_cons, List.nodup_cons] at hn
    have hstep : held.apply (.create g) = some (held.set g.name (some g.valueList)) := by
      rw [apply, Operation.effect?_create, Option.bind_some, admits,
        hp g List.mem_cons_self, after]
      rfl
    -- The other groups have other names, so they are still missing.
    have hrest : ∀ g' ∈ gs, held.set g.name (some g.valueList) g'.name = none := by
      intro g' hg
      have hne : g'.name ≠ g.name := fun e => hn.1 (e ▸ List.mem_map_of_mem hg)
      rw [set, if_neg hne]
      exact hp g' (List.mem_cons_of_mem _ hg)
    rw [List.map_cons, replay_cons, hstep, Option.bind_some, ih hn.2 hrest]
    congr 1
    funext n
    by_cases h : n = g.name
    · subst h
      have hnone : (gs.map fun g => (g.name, g.valueList)).lookup g.name = none := by
        rw [Assoc.lookup_eq_none_iff_not_mem_keys, Assoc.keys, List.map_map]
        exact hn.1
      rw [hnone, List.map_cons, List.lookup_cons_self, set, if_pos rfl]
      rfl
    · rw [List.map_cons, List.lookup_cons, beq_false_of_ne h, set, if_neg h]

end Inventory

end PacketClassifier
