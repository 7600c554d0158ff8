/-
How a delivery goes.

A store may answer as it likes, and its answer may depend on everything that it was
offered before. `Store.journaled` is the same store with a journal of what it was offered
and what it answered, and `Offers` describes the journals there can be: one operation
after another is offered, and the first one that is refused is the last one offered.

* `exists_offers`, `deliver_of_offers`: every delivery goes that way, and the answers of
  the store decide how it ends.
* `deliver_journaled`: nothing of this changes when a journal is kept.
* `Offers.offered_prefix`, `Offers.accepted_prefix`: what is offered and what is accepted
  are first parts of the list.
* `Offers.ok_iff`, `Offers.error_iff`: a delivery succeeds if everything was accepted, and
  else it ends with the answer of the store.
* `Offers.accepted_before`: what is offered comes after everything in front of it was
  accepted.
-/
import PacketClassifier.Proofs.Provision.Inventory
import PacketClassifier.Provision.Delivery

namespace PacketClassifier

namespace Store

variable {σ : Type}

/-- What was offered to a store, each operation with the answer to it. -/
abbrev Journal := List (Operation × Except StoreFault Unit)

/-- The same store; what it is offered is written down together with the answer. -/
def journaled (store : Store (StateM σ)) : Store (StateM (σ × Journal)) :=
  fun o (world, journal) =>
  match store o world with
  | (answer, world) => (answer, world, journal ++ [(o, answer)])

namespace Journal

/-- What was offered, whatever the answers were. -/
def offered (j : Journal) : List Operation := j.map (·.1)

/-- What was taken. -/
def accepted (j : Journal) : List Operation := j.filterMap fun
  | (o, .ok ()) => some o
  | (_, .error _) => none

end Journal

/-- How a store answers: each operation in the world that the answer before it left behind. -/
inductive Answers (store : Store (StateM σ)) : σ → Journal → σ → Prop where
  | nothing (world : σ) : Answers store world [] world
  | next {o : Operation} {answer : Except StoreFault Unit} {j : Journal}
      {world between after : σ} (ho : store o world = (answer, between))
      (h : Answers store between j after) :
      Answers store world ((o, answer) :: j) after

/-- Writing down something about every answer changes no answer. -/
theorem Answers.noted {τ : Type} (note : Operation × Except StoreFault Unit → τ)
    {store : Store (StateM σ)} {noting : Store (StateM (σ × List τ))}
    (hn : ∀ o world notes, noting o (world, notes)
      = ((store o world).1, (store o world).2, notes ++ [note (o, (store o world).1)]))
    {world after : σ} {j : Journal} (h : store.Answers world j after) (notes : List τ) :
    noting.Answers (world, notes) j (after, notes ++ j.map note) := by
  induction h generalizing notes with
  | nothing world =>
    rw [List.map_nil, List.append_nil]
    exact .nothing _
  | @next o answer j world between after ho _ ih =>
    have hone := hn o world notes
    rw [ho] at hone
    have hrest := ih (notes ++ [note (o, answer)])
    rw [List.append_assoc] at hrest
    exact .next hone hrest

theorem Answers.journaled {store : Store (StateM σ)} {world after : σ} {j : Journal}
    (h : store.Answers world j after) (journal : Journal) :
    store.journaled.Answers (world, journal) j (after, journal ++ j) := by
  have hnoted : store.journaled.Answers (world, journal) j (after, journal ++ j.map id) :=
    h.noted id (fun _ _ _ => rfl) journal
  rwa [List.map_id] at hnoted

end Store

open Store (Journal)

/-- How operations are offered: one after another, until one is refused. -/
inductive Offers : List Operation → Journal → Except StoreFault Unit → Prop where
  | done : Offers [] [] (.ok ())
  | accepted {o : Operation} {os : List Operation} {j : Journal}
      {result : Except StoreFault Unit} (h : Offers os j result) :
      Offers (o :: os) ((o, .ok ()) :: j) result
  | refused (o : Operation) (os : List Operation) (fault : StoreFault) :
      Offers (o :: os) [(o, .error fault)] (.error fault)

namespace Offers

variable {os : List Operation} {j : Journal} {result : Except StoreFault Unit}

theorem offered_prefix (h : Offers os j result) : j.offered <+: os := by
  induction h with
  | done => exact List.prefix_rfl
  | accepted _ ih => exact (List.prefix_cons_inj _).mpr ih
  | refused o os fault => exact ⟨os, rfl⟩

theorem accepted_prefix (h : Offers os j result) : j.accepted <+: os := by
  induction h with
  | done => exact List.prefix_rfl
  | accepted _ ih => exact (List.prefix_cons_inj _).mpr ih
  | refused o os fault => exact List.nil_prefix

/-- The first refusal ends a delivery. -/
theorem refusal_is_last (h : Offers os j result) {before behind : Journal} {o : Operation}
    {fault : StoreFault} (hj : j = before ++ (o, .error fault) :: behind) :
    behind = [] ∧ result = .error fault := by
  induction h generalizing before with
  | done => simp at hj
  | accepted _ ih =>
    cases before with
    | nil => cases hj
    | cons _ before => exact ih (List.cons.inj hj).2
  | refused _ _ _ =>
    cases before with
    | nil =>
      cases hj
      exact ⟨rfl, rfl⟩
    | cons _ before => simp at hj

/-- A delivery succeeds exactly if everything was accepted. -/
theorem ok_iff (h : Offers os j result) : result = .ok () ↔ j.accepted = os := by
  induction h with
  | done => exact iff_of_true rfl rfl
  | @accepted o os j result _ ih =>
    show result = .ok () ↔ o :: j.accepted = o :: os
    rw [List.cons.injEq, ih]
    exact (and_iff_right rfl).symm
  | refused o os fault => exact iff_of_false (fun hr => nomatch hr) fun hj => nomatch hj

theorem offered_eq (h : Offers os j result) (hr : result = .ok ()) : j.offered = os := by
  induction h with
  | done => rfl
  | @accepted o _ _ _ _ ih => exact congrArg (o :: ·) (ih hr)
  | refused _ _ _ => cases hr

/-- A delivery fails exactly if the store refused what it was offered last, and then with
the answer of the store. -/
theorem error_iff (h : Offers os j result) (fault : StoreFault) :
    result = .error fault ↔ ∃ before o, j = before ++ [(o, .error fault)] := by
  constructor
  · intro hr
    induction h with
    | done => cases hr
    | accepted _ ih =>
      obtain ⟨before, o, rfl⟩ := ih hr
      exact ⟨_ :: before, o, rfl⟩
    | refused o _ _ =>
      cases hr
      exact ⟨[], o, rfl⟩
  · rintro ⟨before, o, hj⟩
    exact (h.refusal_is_last hj).2

/-- An operation that stands behind others is offered only if they were all accepted. -/
theorem accepted_before {front back : List Operation} {o : Operation} (ho : o ∉ front)
    (h : Offers (front ++ back) j result) (hj : o ∈ j.offered) : front <+: j.accepted := by
  induction front generalizing j with
  | nil => exact List.nil_prefix
  | cons p front ih =>
    rw [List.mem_cons, not_or] at ho
    cases h with
    | accepted h =>
      -- The operation is not the first one, so it was offered later.
      have hlater := (List.mem_cons.mp hj).resolve_left ho.1
      exact (List.prefix_cons_inj p).mpr (ih ho.2 h hlater)
    | refused _ _ _ => exact absurd (List.mem_singleton.mp hj) ho.1

end Offers

variable {σ : Type} {store : Store (StateM σ)} {os : List Operation} {journal : Journal}
  {world after : σ} {result : Except StoreFault Unit}

/-- Operations can be offered to any store. -/
theorem exists_offers (store : Store (StateM σ)) (os : List Operation) (world : σ) :
    ∃ journal result after, Offers os journal result ∧ store.Answers world journal after := by
  induction os generalizing world with
  | nil => exact ⟨[], .ok (), world, .done, .nothing world⟩
  | cons o os ih =>
    cases hs : store o world with
    | mk answer between =>
      cases answer with
      | error fault => exact ⟨_, _, _, .refused o os fault, .next hs (.nothing between)⟩
      | ok _ =>
        obtain ⟨journal, result, after, hoffers, hanswers⟩ := ih between
        exact ⟨_, _, _, .accepted hoffers, .next hs hanswers⟩

/-- What a delivery comes to is decided by the answers of the store. -/
theorem deliver_of_offers (h : Offers os journal result)
    (ha : store.Answers world journal after) :
    deliver store os world = (result, after) := by
  induction h generalizing world with
  | done =>
    cases ha
    rfl
  | accepted _ ih =>
    cases ha with
    | next ho ha =>
      simp only [deliver, bind, StateT.bind, ho]
      exact ih ha
  | refused _ _ _ =>
    cases ha with
    | next ho ha =>
      cases ha
      simp only [deliver, bind, StateT.bind, ho]
      rfl

/-- A delivery goes the same way when nobody keeps a journal. -/
theorem deliver_journaled (store : Store (StateM σ)) (os : List Operation) (journal : Journal)
    (world : σ) :
    ∃ result after new, deliver store os world = (result, after)
      ∧ deliver store.journaled os (world, journal) = (result, after, journal ++ new)
      ∧ Offers os new result := by
  obtain ⟨new, result, after, hoffers, hanswers⟩ := exists_offers store os world
  exact ⟨result, after, new, deliver_of_offers hoffers hanswers,
    deliver_of_offers hoffers (hanswers.journaled journal), hoffers⟩

namespace Plan

theorem deliver_eq {p : Plan}
    (h : PacketClassifier.deliver store p.operations world = (result, after)) :
    p.deliver store world = (result.map fun _ => p.operations.length, after) := by
  simp only [deliver, bind, StateT.bind, h]
  rfl

theorem commit_not_mem_changes (p : Plan) :
    Operation.commit ∉ p.removals.map Operation.remove
      ++ p.additions.map Operation.create := by
  intro h
  rcases List.mem_append.mp h with h | h
  · obtain ⟨g, _, hg⟩ := List.mem_map.mp h
    have hverb : Verb.delete = Verb.set := congrArg Operation.verb hg
    cases hverb
  · obtain ⟨g, _, hg⟩ := List.mem_map.mp h
    exact Operation.create_ne_commit g hg

end Plan

end PacketClassifier
