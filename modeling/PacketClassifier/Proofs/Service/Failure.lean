/-
What is left behind when a service cannot take over a document.

A service that puts groups into effect delivers first and keeps the document afterwards. A
document that is no object is refused only then, so the store has lost its groups while
the service still counts on them (`Deployment.commit_of_no_object`). What stands in the
file, on the other hand, changes only where a checksum cannot be written
(`Baseline.load_after_failure`).
-/
import PacketClassifier.Proofs.Baseline.Failure
import PacketClassifier.Proofs.Service.Model

namespace PacketClassifier

/-! ### The file -/

section

variable {files after : Files} {doc : Json} {e : Error}

/-- A failing commit touches the file only by trying to keep the document. -/
theorem GroupService.files_of_commit_error {σ : Type} {store : Store (StateM σ)}
    {s t : GroupService} {world world' : σ}
    (h : s.commit store files doc world = ((.error e, t, after), world')) :
    after = files ∨ Baseline.save files s.path doc = (.error e, after) := by
  rw [commit_run] at h
  cases hdeliver : (s.plan files doc).deliver store world with
  | mk result between =>
    rw [hdeliver] at h
    cases result with
    | error fault => exact .inl (congrArg (fun r => r.1.2.2) h).symm
    | ok count =>
      cases hs : Baseline.save files s.path doc with
      | mk result saved =>
        rw [hs] at h
        cases result with
        | ok _ => cases h
        | error fault =>
          cases h
          exact .inr rfl

/-- A service that cannot take over a document touches the file only by trying to keep it. -/
theorem ModelService.files_of_set_error {s t : ModelService}
    (h : s.set files doc = (.error e, t, after)) :
    after = files ∨ Baseline.save files s.path doc = (.error e, after) := by
  rw [set_eq] at h
  cases hb : Model.build doc (some (s.document files)) with
  | error fault =>
    rw [hb] at h
    exact .inl (congrArg (fun r => r.2.2) h).symm
  | ok model =>
    rw [hb] at h
    cases hs : Baseline.save files s.path doc with
    | mk result saved =>
      rw [hs] at h
      cases result with
      | ok _ => cases h
      | error fault =>
        cases h
        exact .inr rfl

end

namespace Baseline

/-- **Failures and the file.** Where keeping a document, putting it into effect or taking
it over fails, the same document is loaded afterwards as before, unless it was the
checksum that could not be written. Then the new document stands in the file, although
keeping it has failed. -/
theorem load_after_failure {σ : Type} (store : Store (StateM σ)) (files : Files) (path : Path)
    (doc : Json) :
    (¬ Unsealed files path doc →
      (∀ e after, save files path doc = (.error e, after) → load after path = load files path)
        ∧ (∀ applied world e s after world',
          (GroupService.mk path applied).commit store files doc world
            = ((.error e, s, after), world') →
            load after path = load files path)
        ∧ ∀ current compiled loaded e s after,
          (ModelService.mk path current compiled loaded).set files doc
            = (.error e, s, after) →
            load after path = load files path)
      ∧ (Unsealed files path doc → ∃ fault placed,
          save files path doc = (.error (.io fault), placed)
        ∧ placed.read path = .ok (content doc)
        ∧ (doc.Storable → load placed path = doc)) := by
  constructor
  · intro hu
    have hsave : ∀ e after, save files path doc = (.error e, after) →
        load after path = load files path :=
      fun e after h => load_of_save_error h hu
    refine ⟨hsave, ?_, ?_⟩
    · intro applied world e s after world' h
      rcases GroupService.files_of_commit_error h with rfl | hs
      · rfl
      · exact hsave e after hs
    · intro current compiled loaded e s after h
      rcases ModelService.files_of_set_error h with rfl | hs
      · rfl
      · exact hsave e after hs
  · intro hu
    obtain ⟨fault, placed, hs, hread⟩ := save_of_unsealed hu
    exact ⟨fault, placed, hs, hread, fun hd => load_of_read hread hu.1 hd⟩

/-- A path whose directory, once it is made, stands where the checksum should stand. -/
def blockedPath : Path := ⟨false, ["p.sha256", "..", "p"]⟩

/-- A document with something in it. -/
def oneKey : Json := .obj [("k", .arr [.int 1])]

theorem storable_oneKey : oneKey.Storable := by decide

theorem unsealed_blockedPath : Unsealed .empty blockedPath oneKey := by
  have hm : Files.empty.makeDirectories blockedPath.parent
      = (.ok (), ⟨.directory 0 [("p.sha256", .directory 1 [])], [], 2⟩) := by cbv
  have hr : ∀ bs,
      Files.replace ⟨.directory 0 [("p.sha256", .directory 1 [])], [], 2⟩ blockedPath bs
        = .ok ⟨.directory 0 [("p.sha256", .directory 1 []), ("p", .file bs 2)], [], 3⟩ := by
    intro bs
    cbv
  have hw : ∀ bs bs',
      Files.write ⟨.directory 0 [("p.sha256", .directory 1 []), ("p", .file bs 2)], [], 3⟩
        (checksumPath blockedPath) bs' = .error .isDirectory := by
    intro bs bs'
    cbv
  exact ⟨rfl, _, _, _, hm, hr _, hw _ _⟩

/-- A directory that holds a directory. -/
def occupied : Files := ⟨.directory 0 [("d", .directory 1 [])], [], 2⟩

theorem load_after_failure_either_way :
    (¬ Unsealed occupied ⟨false, ["d"]⟩ oneKey ∧ ∃ fault after,
        save occupied ⟨false, ["d"]⟩ oneKey = (.error (.io fault), after)
          ∧ load after ⟨false, ["d"]⟩ = load occupied ⟨false, ["d"]⟩)
      ∧ Unsealed .empty blockedPath oneKey ∧ oneKey.Storable ∧ ∃ fault placed,
        save .empty blockedPath oneKey = (.error (.io fault), placed)
          ∧ load placed blockedPath = oneKey := by
  have hm : occupied.makeDirectories (Path.mk false ["d"]).parent
    = (.ok (), occupied) := by cbv
  have hr : ∀ bs, occupied.replace ⟨false, ["d"]⟩ bs = .error .isDirectory := by
    intro bs
    cbv
  constructor
  · have hsealed : ¬ Unsealed occupied ⟨false, ["d"]⟩ oneKey := by
      rintro ⟨_, made, placed, fault, hmade, hplaced, _⟩
      obtain rfl := (Prod.mk.inj (hm.symm.trans hmade)).2
      rw [hr] at hplaced
      cases hplaced
    have hsave : save occupied ⟨false, ["d"]⟩ oneKey
        = (.error (.io .isDirectory), occupied) := by
      rw [save, if_pos (show oneKey.isObject = true from rfl), hm]
      simp only [write, hr]
      rfl
    obtain ⟨hload, _⟩ :=
      (load_after_failure Deployment.counting occupied ⟨false, ["d"]⟩ oneKey).1 hsealed
    exact ⟨hsealed, .isDirectory, occupied, hsave, hload _ _ hsave⟩
  · obtain ⟨fault, placed, hs, _, hload⟩ :=
      (load_after_failure Deployment.counting .empty blockedPath oneKey).2
        unsealed_blockedPath
    exact ⟨unsealed_blockedPath, storable_oneKey, fault, placed, hs, hload storable_oneKey⟩

/-- An attempt that fails, although what is loaded changes. -/
theorem loads_what_was_refused :
    ∃ fault placed, save .empty blockedPath oneKey = (.error (.io fault), placed)
      ∧ load .empty blockedPath = .empty ∧ load placed blockedPath = oneKey
      ∧ oneKey ≠ .empty := by
  obtain ⟨fault, placed, hs, hread⟩ := save_of_unsealed unsealed_blockedPath
  exact ⟨fault, placed, hs,
    by cbv, load_of_read hread rfl storable_oneKey, by simp [oneKey, Json.empty]⟩

end Baseline

/-! ### The store -/

theorem DscpGroup.inDocument_of_no_object {doc : Json} (h : doc.isObject = false) :
    inDocument doc = [] := by
  have hget : doc.get? resourcesKey = none := by
    rw [Json.get?]
    cases hm : doc.members? with
    | none => rfl
    | some ms =>
      rw [Json.isObject, hm] at h
      cases h
  rw [inDocument, items, hget]
  rfl

theorem Plan.operations_eq_nil_iff {old new : DscpGroup.Table} :
    (between old new).operations = [] ↔ old = [] ∧ new = [] := by
  constructor
  · intro h
    have hcommit := (List.append_eq_nil_iff.mp h).2
    -- Only a plan between nothing and nothing ends without a commit.
    have hnone : (between old new).commits = false := by
      by_contra hc
      rw [if_pos (Bool.not_eq_false _ ▸ hc)] at hcommit
      cases hcommit
    rw [between, Bool.not_eq_false', Bool.and_eq_true, List.isEmpty_iff,
      List.isEmpty_iff] at hnone
    exact hnone
  · rintro ⟨rfl, rfl⟩
    rfl

theorem Inventory.ofTable_eq_ofTable_nil {t : DscpGroup.Table} :
    ofTable [] = ofTable t ↔ t = [] := by
  constructor
  · intro h
    cases t with
    | nil => rfl
    | cons entry t =>
      have hn := congrFun h entry.1
      rw [ofTable, ofTable, List.lookup_cons_self] at hn
      cases hn
  · rintro rfl
    rfl

namespace Deployment

variable {σ : Type} {store : Store (StateM σ)}

/-- **A document that is no object.** A store that takes everything is told to remove
every group before the document is refused. Nothing was sent exactly if there was no
group, and the store still holds the groups that the service counts on exactly if there
was none. -/
theorem commit_of_no_object (hw : store.Willing) (d : Deployment σ)
    (hk : (d.service.previous d.files).Keyed) {doc : Json} (hd : doc.isObject = false) :
    ∃ after, d.commit store doc = (.error .notAnObject, after)
      ∧ after.files = d.files ∧ after.service.previous after.files
          = d.service.previous d.files
      ∧ (after.sent = d.sent ↔ DscpGroup.inDocument (d.service.previous d.files) = [])
      ∧ ∀ held : Inventory, held.replay d.sent
          = some (Inventory.ofDocument (d.service.previous d.files)) →
        held.replay after.sent = some (Inventory.ofTable [])
        ∧ (held.replay after.sent = some (Inventory.ofDocument (d.service.previous d.files))
          ↔ DscpGroup.inDocument (d.service.previous d.files) = []) := by
  obtain ⟨world, hcommit⟩ := commit_sends hw d doc
  have hsave : Baseline.save d.files d.service.path doc = (.error .notAnObject, d.files) := by
    rw [Baseline.save, if_neg (hd ▸ Bool.false_ne_true)]
  rw [hsave] at hcommit
  -- Seen from the groups, the document is empty.
  have hplan : d.service.plan d.files doc
      = Plan.between (DscpGroup.inDocument (d.service.previous d.files)) [] := by
    rw [GroupService.plan, Plan.ofDocuments, DscpGroup.inDocument_of_no_object hd]
  refine ⟨_, hcommit, rfl, rfl, ?_, fun held hheld => ?_⟩
  · rw [List.append_right_eq_self, hplan, Plan.operations_eq_nil_iff]
    exact and_iff_left rfl
  · have hlost : held.replay (d.sent ++ (d.service.plan d.files doc).operations)
        = some (Inventory.ofTable []) := by
      rw [Inventory.replay_append, hheld, Option.bind_some, hplan]
      exact Plan.replay_between (DscpGroup.proper_inDocument hk) DscpGroup.proper_nil
    refine ⟨hlost, ?_⟩
    rw [hlost, Option.some.injEq]
    exact Inventory.ofTable_eq_ofTable_nil

/-- A service that counts on a group. -/
def counted : Deployment Nat :=
  ⟨⟨firstPath, some (Plan.document
    [.obj [("group-name", .str "a"), ("dscp", .arr [.str "1"])]])⟩, .empty, 0, []⟩

theorem inDocument_counted :
    DscpGroup.inDocument (counted.service.previous counted.files)
      = [("a", ⟨"a",
          .obj [("group-name", .str "a"), ("dscp", .arr [.str "1"])], [1]⟩)] := by cbv

theorem commit_of_no_object_counted :
    counting.Willing ∧ (counted.service.previous counted.files).Keyed
      ∧ ∃ after, counted.commit counting (.arr []) = (.error .notAnObject, after)
          ∧ after.sent ≠ counted.sent := by
  have hw : counting.Willing := fun _ _ => rfl
  have hk : (counted.service.previous counted.files).Keyed := by decide
  have hd : (Json.arr []).isObject = false := rfl
  obtain ⟨after, hcommit, _, _, hsent, _⟩ := commit_of_no_object hw counted hk hd
  refine ⟨hw, hk, after, hcommit, fun h => ?_⟩
  have hempty := hsent.mp h
  rw [inDocument_counted] at hempty
  cases hempty

/-- What a store is sent for a document that is refused. -/
theorem sent_before_refusal :
    ∃ after, counted.commit counting (.arr []) = (.error .notAnObject, after)
      ∧ after.sent = [.delete "resources group dscp-group a" "npf-cfg delete dscp-group:a",
          .commit] := by
  have hw : counting.Willing := fun _ _ => rfl
  obtain ⟨world, hcommit⟩ := commit_sends hw counted (.arr [])
  have hplan : (counted.service.plan counted.files (.arr [])).operations
      = [.delete "resources group dscp-group a" "npf-cfg delete dscp-group:a", .commit] := by
    rw [GroupService.plan, Plan.ofDocuments, inDocument_counted,
      DscpGroup.inDocument_of_no_object rfl]
    decide
  rw [hplan] at hcommit
  exact ⟨_, hcommit, rfl⟩

end Deployment

end PacketClassifier
