/-
Operations that are carried out again.

A store does not mind when an operation was carried out before: where there is nothing a
removal changes nothing, and an addition takes the place of what is there
(`Inventory.obey`). So what is held under a name after a list of operations depends on
what was held before only if no operation mentions the name, and a list that was broken
off and is carried out from its start comes to the same as the list alone
(`Inventory.obeyAll_again`).
-/
import PacketClassifier.Proofs.Provision.Inventory

namespace PacketClassifier

/-- The name whose group an effect changes. -/
def Effect.name? : Effect → Option String
  | .add name _ => some name
  | .remove name => some name
  | .settle => none

/-- Whether an operation changes the group of a name. -/
def Operation.Mentions (o : Operation) (name : String) : Prop :=
  ∃ e, o.effect? = some e ∧ e.name? = some name

namespace Inventory

variable {held other : Inventory} {o : Operation} {os : List Operation} {n : String}

/-- What a store makes of an operation that it takes. -/
def obey (held : Inventory) (o : Operation) : Inventory :=
  match o.effect? with
  | some e => held.after e
  | none => held

/-- What a store makes of operations that it takes one after another. -/
def obeyAll (held : Inventory) (os : List Operation) : Inventory := os.foldl obey held

theorem obeyAll_append (held : Inventory) (os ps : List Operation) :
    held.obeyAll (os ++ ps) = (held.obeyAll os).obeyAll ps := List.foldl_append

/-- Where nothing stands in the way of an operation it is simply carried out. -/
theorem obeyAll_of_replay {after : Inventory} (h : held.replay os = some after) :
    held.obeyAll os = after := by
  induction os generalizing held with
  | nil => exact Option.some.inj h
  | cons o os ih =>
    rw [replay_cons] at h
    obtain ⟨next, hnext, hrest⟩ := Option.bind_eq_some_iff.mp h
    have hobey : held.obey o = next := by
      obtain ⟨e, he, hadmits⟩ := Option.bind_eq_some_iff.mp hnext
      rw [obey, he]
      split at hadmits
      · exact Option.some.inj hadmits
      · cases hadmits
    show (held.obey o).obeyAll os = after
    rw [hobey]
    exact ih hrest

theorem obey_of_mentions (h : o.Mentions n) : held.obey o n = other.obey o n := by
  obtain ⟨e, he, hn⟩ := h
  rw [obey, obey, he]
  cases e with
  | add name values =>
    obtain rfl := Option.some.inj hn
    exact (if_pos rfl).trans (if_pos rfl).symm
  | remove name =>
    obtain rfl := Option.some.inj hn
    exact (if_pos rfl).trans (if_pos rfl).symm
  | settle => cases hn

theorem obey_of_not_mentions (h : ¬ o.Mentions n) : held.obey o n = held n := by
  rw [obey]
  cases he : o.effect? with
  | none => rfl
  | some e =>
    have hn : e.name? ≠ some n := fun hn => h ⟨e, he, hn⟩
    cases e with
    | add name values => exact if_neg fun hname => hn (congrArg some hname.symm)
    | remove name => exact if_neg fun hname => hn (congrArg some hname.symm)
    | settle => rfl

theorem obeyAll_of_not_mentioned (h : ∀ o ∈ os, ¬ o.Mentions n) :
    held.obeyAll os n = held n := by
  induction os generalizing held with
  | nil => rfl
  | cons o os ih =>
    show (held.obey o).obeyAll os n = held n
    rw [ih fun o ho => h o (List.mem_cons_of_mem _ ho),
      obey_of_not_mentions (h o List.mem_cons_self)]

/-- What is held under a name that is mentioned does not depend on what was held before. -/
theorem obeyAll_congr (h : held n = other n ∨ ∃ o ∈ os, o.Mentions n) :
    held.obeyAll os n = other.obeyAll os n := by
  induction os generalizing held other with
  | nil =>
    rcases h with h | ⟨o, ho, _⟩
    · exact h
    · cases ho
  | cons o os ih =>
    show (held.obey o).obeyAll os n = (other.obey o).obeyAll os n
    apply ih
    by_cases ho : o.Mentions n
    · left
      exact obey_of_mentions ho
    · rcases h with h | ⟨p, hp, hm⟩
      · left
        rw [obey_of_not_mentions ho, obey_of_not_mentions ho, h]
      · right
        rcases List.mem_cons.mp hp with rfl | hp
        · exact absurd hm ho
        · exact ⟨p, hp, hm⟩

/-- **Starting again.** Operations that were carried out before, any of them and in any
order, make no difference to a list that contains them all. -/
theorem obeyAll_again {taken : List Operation} (held : Inventory) (h : ∀ o ∈ taken, o ∈ os) :
    (held.obeyAll taken).obeyAll os = held.obeyAll os := by
  funext n
  apply obeyAll_congr
  by_cases hm : ∃ o ∈ os, o.Mentions n
  · right
    exact hm
  · left
    exact obeyAll_of_not_mentioned fun o ho hn => hm ⟨o, h o ho, hn⟩

end Inventory

end PacketClassifier
