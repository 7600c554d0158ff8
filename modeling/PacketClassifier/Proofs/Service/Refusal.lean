/-
A store that refuses leaves the service as it was.

Whatever a store answers, it is offered the operations of a plan in order, and the first
refusal ends it. The service then counts on the same document as before
(`GroupService.commit_refused`), even if it had not read that document until this attempt:
from then on it remembers it, whatever becomes of the file.

* `GroupService.refusal_changes_nothing`: both, for any store.
-/
import PacketClassifier.Proofs.Provision.Delivery
import PacketClassifier.Proofs.Service.Retry

namespace PacketClassifier

open Store (Journal)

namespace GroupService

variable {σ : Type} {store : Store (StateM σ)} {s s' : GroupService}
  {files files' : Files} {doc : Json} {world after : σ} {fault : StoreFault}

/-- What a service counts on it remembers, so that the plan to any other document stays
the same. -/
theorem plan_remember (s : GroupService) (files later : Files) (doc : Json) :
    (s.remember files).plan later doc = s.plan files doc := rfl

/-- A store error is the answer of the store, and nothing was kept. -/
theorem commit_refused
    (h : s.commit store files doc world = ((.error (.store fault), s', files'), after)) :
    (s.plan files doc).deliver store world = (.error fault, after) ∧ s' = s.remember files
      ∧ files' = files := by
  rw [commit_run] at h
  cases hd : (s.plan files doc).deliver store world with
  | mk result next =>
    rw [hd] at h
    cases result with
    | error e =>
      cases h
      exact ⟨rfl, rfl, rfl⟩
    | ok count =>
      -- Everything was accepted, and then only the file can fail.
      have hsave := Baseline.save_ne_store_error files s.path doc fault
      cases hs : Baseline.save files s.path doc with
      | mk saved placed =>
        rw [hs] at hsave
        simp only [hs] at h
        cases saved with
        | error e =>
          cases h
          exact absurd rfl hsave
        | ok _ => cases h

/-- **A refusal changes nothing.** Any store is offered the operations of a plan in order,
and nothing more once it has refused one. So what it accepted is a first part of the plan,
the last operation that puts everything into effect is offered only when all removals and
additions were accepted, and the result is the number of operations if all of them were
accepted, and else the store's own error. If a service is told such an error, the files
are what they were, and so is the plan to any document, whatever becomes of the files
later. -/
theorem refusal_changes_nothing (store : Store (StateM σ)) (world : σ) :
    (∀ p : Plan, ∃ result after journal,
      p.deliver store world = (result, after)
        ∧ p.deliver store.journaled (world, []) = (result, after, journal)
        ∧ journal.offered <+: p.operations
        ∧ journal.accepted <+: p.operations
        ∧ (∀ before o fault behind,
            journal = before ++ (o, .error fault) :: behind → behind = [])
        ∧ (Operation.commit ∈ journal.offered →
            p.removals.map Operation.remove ++ p.additions.map Operation.create
              <+: journal.accepted)
        ∧ (result = .ok p.operations.length ↔ journal.accepted = p.operations)
        ∧ ∀ fault, result = .error fault
            ↔ ∃ before o, journal = before ++ [(o, .error fault)])
      ∧ ∀ (s : GroupService) (files : Files) (doc : Json) (fault : StoreFault)
          (s' : GroupService) (files' : Files) (after : σ),
          s.commit store files doc world = ((.error (.store fault), s', files'), after) →
          (s.plan files doc).deliver store world = (.error fault, after)
            ∧ files' = files ∧ ∀ later d, s'.plan later d = s.plan files d := by
  constructor
  · intro p
    obtain ⟨result, after, journal, hbare, hjournaled, hoffers⟩ :=
      deliver_journaled store p.operations [] world
    refine ⟨result.map fun _ => p.operations.length, after, journal, Plan.deliver_eq hbare,
      Plan.deliver_eq hjournaled, hoffers.offered_prefix, hoffers.accepted_prefix,
      ?_, ?_, ?_, ?_⟩
    · intro before o fault behind hj
      exact (hoffers.refusal_is_last hj).1
    · exact hoffers.accepted_before p.commit_not_mem_changes
    · rw [← hoffers.ok_iff]
      cases result with
      | ok _ => exact iff_of_true rfl rfl
      | error e => exact iff_of_false (fun h => nomatch h) fun h => nomatch h
    · intro fault
      rw [← hoffers.error_iff fault]
      cases result with
      | ok _ => exact iff_of_false (fun h => nomatch h) fun h => nomatch h
      | error e => simp [Except.map]
  · intro s files doc fault s' files' after h
    obtain ⟨hdeliver, rfl, rfl⟩ := commit_refused h
    refine ⟨hdeliver, rfl, ?_⟩
    intro later d
    exact plan_remember s files' later d

/-- Adds the group that stays the same in both documents. -/
def createA : Operation :=
  ⟨"resources group dscp-group a dscp", "npf-cfg add dscp-group:a 0 8;46", "ALL", .set⟩

theorem operations_from_nothing :
    ((ofPath Deployment.firstPath).plan .empty Plan.later).operations
      = [createA, Deployment.createB, Deployment.createD, .commit] := by
  have hload : Baseline.load .empty Deployment.firstPath = .empty := by cbv
  have hnone : DscpGroup.inDocument .empty = [] := by cbv
  show (Plan.ofDocuments (Baseline.load _ Deployment.firstPath) Plan.later).operations = _
  rw [hload, Plan.ofDocuments, hnone, Plan.operations_between_nil, Plan.inDocument_later,
    List.map_cons, List.map_cons, List.map_cons, Plan.create_a, Plan.create_b, Plan.create_d]
  rfl

theorem refusal_changes_nothing_at_commit :
    let store := Store.limited 3 Deployment.refuse
    let s := ofPath Deployment.firstPath
    let p := s.plan .empty Plan.later
    let told := s.commit store .empty Plan.later []
    told.1.1 = .error (.store (Deployment.refuse .commit)) ∧ told.1.2.2 = .empty
      ∧ (∀ later d, told.1.2.1.plan later d = s.plan .empty d)
      ∧ ∃ journal, p.deliver store.journaled ([], [])
          = (.error (Deployment.refuse .commit),
              [createA, Deployment.createB, Deployment.createD], journal)
        ∧ Operation.commit ∈ Journal.offered journal
        ∧ p.removals.map Operation.remove ++ p.additions.map Operation.create
            <+: Journal.accepted journal := by
  intro store s p told
  have htaken : deliver store p.operations []
      = (.error (Deployment.refuse .commit),
          [createA, Deployment.createB, Deployment.createD]) := by
    rw [operations_from_nothing]
    rfl
  have hnoted : deliver store.journaled p.operations ([], [])
      = (.error (Deployment.refuse .commit),
          [createA, Deployment.createB, Deployment.createD],
          [(createA, .ok ()), (Deployment.createB, .ok ()), (Deployment.createD, .ok ()),
            (.commit, .error (Deployment.refuse .commit))]) := by
    rw [operations_from_nothing]
    rfl
  have htold : told
      = ((.error (.store (Deployment.refuse .commit)), s.remember .empty, .empty),
        [createA, Deployment.createB, Deployment.createD]) := by
    show s.commit store .empty Plan.later [] = _
    rw [commit_run, Plan.deliver_eq htaken]
    rfl
  obtain ⟨hall, hkept⟩ := refusal_changes_nothing store []
  obtain ⟨_, _, hplan⟩ := hkept s .empty Plan.later _ _ _ _ htold
  obtain ⟨result, after, journal, _, hjournaled, _, _, _, hcommit, _⟩ := hall p
  -- The journal that the theorem speaks of is the one above, in which the commit stands last.
  rw [Plan.deliver_eq hnoted] at hjournaled
  cases hjournaled
  have hoffered : Operation.commit ∈ Journal.offered
      [(createA, .ok ()), (Deployment.createB, .ok ()), (Deployment.createD, .ok ()),
        (.commit, .error (Deployment.refuse .commit))] := by
    simp [Journal.offered]
  refine ⟨congrArg (·.1.1) htold, congrArg (·.1.2.2) htold, ?_, _, Plan.deliver_eq hnoted,
    hoffered, hcommit hoffered⟩
  rw [htold]
  exact hplan

end GroupService

end PacketClassifier
