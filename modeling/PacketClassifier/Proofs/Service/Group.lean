/-
Commits keep the store, the service and the file in step.

A service remembers the document that it put into effect last, the file keeps it, and the
store holds its groups (`Inventory.Holds`). One commit carries all three over to the next
document (`Deployment.commit_in_step`), and giving up the memory changes nothing
(`Deployment.restart_in_step`), so this holds after any number of commits, however often
the service is replaced by a fresh one (`Deployment.run_in_step`). The store is any that
takes every operation; all that is known about it is what was sent to it.
-/
import PacketClassifier.Proofs.Baseline
import PacketClassifier.Proofs.Provision.Delivery
import PacketClassifier.Proofs.Provision.Holds
import PacketClassifier.Proofs.Provision.Plan
import PacketClassifier.Service.Group

namespace PacketClassifier

namespace Store

variable {σ : Type}

/-- Whether a store takes every operation, whatever it does with it. -/
def Willing (store : Store (StateM σ)) : Prop := ∀ o world, (store o world).1 = .ok ()

/-- The same store; what is offered to it is written down. -/
def watched (store : Store (StateM σ)) : Store (StateM (σ × List Operation)) :=
  fun o (world, sent) =>
  match store o world with
  | (answer, world) => (answer, world, sent ++ [o])

variable {store : Store (StateM σ)} {world after : σ} {j : Journal}

theorem Answers.watched (h : store.Answers world j after) (sent : List Operation) :
    store.watched.Answers (world, sent) j (after, sent ++ j.offered) :=
  h.noted Prod.fst (fun _ _ _ => rfl) sent

theorem Answers.of_willing (h : store.Willing) (ha : store.Answers world j after) :
    ∀ e ∈ j, e.2 = .ok () := by
  induction ha with
  | nothing _ => exact fun _ he => absurd he List.not_mem_nil
  | @next o answer j world between after ho _ ih =>
    intro e he
    rcases List.mem_cons.mp he with rfl | he
    · exact (congrArg Prod.fst ho).symm.trans (h o world)
    · exact ih e he

/-- A willing store is offered everything, in order. -/
theorem deliver_watched (h : store.Willing) (os sent : List Operation) (world : σ) :
    ∃ world', deliver store.watched os (world, sent) = (.ok (), world', sent ++ os) := by
  obtain ⟨j, result, after, hoffers, hanswers⟩ := exists_offers store os world
  have hresult : result = .ok () := by
    cases result with
    | ok _ => rfl
    | error fault =>
      obtain ⟨before, o, rfl⟩ := (hoffers.error_iff fault).mp rfl
      cases Answers.of_willing h hanswers (o, .error fault) (by simp)
  refine ⟨after, ?_⟩
  rw [deliver_of_offers hoffers (hanswers.watched sent), hoffers.offered_eq hresult, hresult]

end Store

/-- What a commit does, for any store: delivery first, and the document is kept only if
all was taken. -/
theorem GroupService.commit_run {σ : Type} (store : Store (StateM σ)) (s : GroupService)
    (files : Files) (doc : Json) (world : σ) : s.commit store files doc world =
      match (s.plan files doc).deliver store world with
      | (.error fault, world) => ((.error (.store fault), s.remember files, files), world)
      | (.ok count, world) =>
        match Baseline.save files s.path doc with
        | (.error e, saved) => ((.error e, s.remember files, saved), world)
        | (.ok (), saved) => ((.ok count, { s with applied := some doc }, saved), world) := by
  -- Remembering the last document changes neither the plan nor the path.
  have hplan : (s.remember files).plan files doc = s.plan files doc := by
    cases ha : s.applied <;> simp [plan, previous, remember, ha]
  have hpath : (s.remember files).path = s.path := rfl
  simp only [commit, bind, StateT.bind, hplan, keep, hpath]
  cases (s.plan files doc).deliver store world with
  | mk result world =>
    cases result with
    | error fault => rfl
    | ok count =>
      cases Baseline.save files s.path doc with
      | mk result saved =>
        cases result with
        | error e => rfl
        | ok _ => rfl

/-- A service with the files that it works on, the world that its store lives in, and
everything that was sent to the store. -/
structure Deployment (σ : Type) where
  service : GroupService
  files : Files
  world : σ
  sent : List Operation

namespace Deployment

variable {σ : Type}

/-- A fresh service; nothing was sent yet. -/
def start (files : Files) (path : Path) (world : σ) : Deployment σ :=
  ⟨.ofPath path, files, world, []⟩

/-- A fresh service in the place of the old one. -/
def restart (d : Deployment σ) : Deployment σ := { d with service := .ofPath d.service.path }

/-- Puts a document into effect; what is offered to the store is written down. -/
def commit (store : Store (StateM σ)) (d : Deployment σ) (doc : Json) :
    Except Error Nat × Deployment σ :=
  match d.service.commit store.watched d.files doc (d.world, d.sent) with
  | ((result, service, files), world, sent) => (result, ⟨service, files, world, sent⟩)

/-- Puts a document into effect, by a fresh service if this is wanted. -/
def next (store : Store (StateM σ)) (fresh : Bool) (d : Deployment σ) (doc : Json) :
    Except Error Nat × Deployment σ :=
  (if fresh then d.restart else d).commit store doc

/-- Puts documents into effect one after another, each by a fresh service if this is
wanted. -/
def run (store : Store (StateM σ)) (fresh : Bool) (d : Deployment σ) (docs : List Json) :
    Deployment σ :=
  docs.foldl (fun d doc => (d.next store fresh doc).2) d

/-- The operations that lead from a document through others. -/
def operations (before : Json) : List Json → List Operation
  | [] => []
  | doc :: docs => (Plan.ofDocuments before doc).operations ++ operations doc docs

variable {store : Store (StateM σ)} {d : Deployment σ}

/-- A willing store is sent the whole plan before anybody asks whether the document can be
kept. -/
theorem commit_sends (hw : store.Willing) (d : Deployment σ) (doc : Json) :
    ∃ world, d.commit store doc =
      match Baseline.save d.files d.service.path doc with
      | (.ok (), files) => (.ok (d.service.plan d.files doc).operations.length,
          ⟨{ d.service with applied := some doc }, files, world,
            d.sent ++ (d.service.plan d.files doc).operations⟩)
      | (.error e, files) => (.error e,
          ⟨d.service.remember d.files, files, world,
            d.sent ++ (d.service.plan d.files doc).operations⟩) := by
  obtain ⟨world, hall⟩ :=
    Store.deliver_watched hw (d.service.plan d.files doc).operations d.sent d.world
  have hdeliver : (d.service.plan d.files doc).deliver store.watched (d.world, d.sent)
      = (.ok (d.service.plan d.files doc).operations.length, world,
          d.sent ++ (d.service.plan d.files doc).operations) := Plan.deliver_eq hall
  refine ⟨world, ?_⟩
  rw [commit, GroupService.commit_run, hdeliver]
  cases Baseline.save d.files d.service.path doc with
  | mk result saved =>
    cases result with
    | error e => rfl
    | ok _ => rfl

theorem commit_eq (hw : store.Willing) {doc : Json} {saved : Files}
    (h : Baseline.save d.files d.service.path doc = (.ok (), saved)) :
    ∃ world, d.commit store doc = (.ok (d.service.plan d.files doc).operations.length,
      ⟨{ d.service with applied := some doc }, saved, world,
        d.sent ++ (d.service.plan d.files doc).operations⟩) := by
  obtain ⟨world, hc⟩ := commit_sends hw d doc
  rw [h] at hc
  exact ⟨world, hc⟩

/-- Whether a deployment is in step with a document: what was sent leads from what the
store held at first to the groups of the document, the file keeps the document, and the
service remembers no other one. -/
structure InStep (held : Inventory) (path : Path) (d : Deployment σ) (doc : Json) : Prop where
  path_eq : d.service.path = path
  /-- The service remembers no other document. -/
  remembered : ∀ c, d.service.applied = some c → c = doc
  /-- The file keeps the document. -/
  loaded : Baseline.load d.files path = doc
  /-- The store holds the groups of the document. -/
  replayed : held.replay d.sent = some (Inventory.ofDocument doc)
  keyed : doc.Keyed
  /-- The file can keep the next document. -/
  keeps : Baseline.Keeps d.files path

variable {held : Inventory} {path : Path} {before doc : Json}

theorem InStep.previous_eq (h : InStep held path d doc) :
    d.service.previous d.files = doc := by
  rw [GroupService.previous, h.path_eq]
  cases ha : d.service.applied with
  | none => exact h.loaded
  | some c => exact h.remembered c ha

/-- A fresh service is in step where the old one was. -/
theorem restart_in_step (h : InStep held path d doc) : InStep held path d.restart doc :=
  ⟨h.path_eq, fun _ hc => (nomatch hc), h.loaded, h.replayed, h.keyed, h.keeps⟩

/-- One commit carries everything over to the next document. -/
theorem commit_in_step (hw : store.Willing) (h : InStep held path d before)
    (hd : doc.isObject = true ∧ doc.Storable) :
    ∃ after, d.commit store doc = (.ok (Plan.ofDocuments before doc).operations.length, after)
      ∧ after.sent = d.sent ++ (Plan.ofDocuments before doc).operations
      ∧ after.service.applied = some doc ∧ InStep held path after doc := by
  -- The plan starts from the document that the invariant speaks of, wherever the service
  -- takes it from.
  obtain ⟨saved, hsave, hkeeps, hread⟩ := Baseline.save_of_keeps h.keeps hd.1
  obtain ⟨world, hcommit⟩ := commit_eq (d := d) hw (h.path_eq ▸ hsave)
  rw [GroupService.plan, h.previous_eq] at hcommit
  refine ⟨_, hcommit, rfl, rfl, h.path_eq, fun c hc => (Option.some.inj hc).symm,
    Baseline.load_of_read hread hd.1 hd.2, ?_, hd.2.keyed, hkeeps⟩
  show held.replay (d.sent ++ _) = _
  rw [Inventory.replay_append, h.replayed, Option.bind_some]
  exact Plan.replay_between (DscpGroup.proper_inDocument h.keyed)
    (DscpGroup.proper_inDocument hd.2.keyed)

theorem next_in_step (hw : store.Willing) (fresh : Bool) (h : InStep held path d before)
    (hd : doc.isObject = true ∧ doc.Storable) :
    ∃ after, d.next store fresh doc
      = (.ok (Plan.ofDocuments before doc).operations.length, after)
      ∧ after.sent = d.sent ++ (Plan.ofDocuments before doc).operations
      ∧ after.service.applied = some doc ∧ InStep held path after doc := by
  cases fresh with
  | false => exact commit_in_step hw h hd
  | true => exact commit_in_step hw (restart_in_step h) hd

/-- Any number of commits carry everything over to the last document, and what they send
depends on the documents alone. -/
theorem run_in_step (hw : store.Willing) (fresh : Bool) {docs : List Json} :
    ∀ {d : Deployment σ} {before : Json}, InStep held path d before →
      (∀ doc ∈ docs, doc.isObject = true ∧ doc.Storable) →
      InStep held path (d.run store fresh docs) (docs.getLast?.getD before)
        ∧ (d.run store fresh docs).sent = d.sent ++ operations before docs := by
  induction docs with
  | nil => exact fun h _ => ⟨h, (List.append_nil _).symm⟩
  | cons doc docs ih =>
    intro d before h hd
    obtain ⟨after, hnext, hsent, _, hstep⟩ :=
      next_in_step hw fresh h (hd doc List.mem_cons_self)
    have hrun : d.run store fresh (doc :: docs) = after.run store fresh docs := by
      rw [run, List.foldl_cons, hnext]
      rfl
    obtain ⟨hlast, hall⟩ := ih hstep fun doc hm => hd doc (List.mem_cons_of_mem _ hm)
    rw [hrun, hall, hsent, List.append_assoc, List.getLast?_cons, Option.getD_some]
    exact ⟨hlast, rfl⟩

theorem start_in_step {files : Files} (h : Baseline.Keeps files path) (world : σ) :
    InStep (Inventory.ofDocument (Baseline.load files path)) path (start files path world)
      (Baseline.load files path) :=
  ⟨rfl, fun _ hc => (nomatch hc), rfl, rfl, Baseline.keyed_load files path, h⟩

/-- **Commits keep everything in step.** Whatever the file is at first, if the store holds
the groups of the document that it loads to and takes every operation, then after any
number of commits the next commit succeeds, sends the plan from the last document to the
new one, and gives the number of operations in it. What was sent until then leads the
store to the groups of the document, the service remembers the document, and a fresh
service loads it. It makes no difference whether one service or a fresh one each time puts
the documents into effect. -/
theorem commits_in_step (hw : store.Willing) (world : σ) {files : Files} {path : Path}
    (hk : Baseline.Keeps files path) {held : Inventory}
    (hheld : held.Holds (Baseline.load files path)) (docs : List Json) (doc : Json)
    (hd : ∀ e ∈ docs ++ [doc], e.isObject = true ∧ e.Storable) (fresh : Bool) :
    let plan := Plan.ofDocuments (docs.getLast?.getD (Baseline.load files path)) doc
    ∃ after now, ((start files path world).run store fresh docs).next store fresh doc
        = (.ok plan.operations.length, after)
      ∧ after.sent = ((start files path world).run store fresh docs).sent ++ plan.operations
      ∧ held.replay after.sent = some now ∧ now.Holds doc
      ∧ after.service.applied = some doc
      ∧ (GroupService.ofPath path).previous after.files = doc
      ∧ after.sent = ((start files path world).run store (!fresh) (docs ++ [doc])).sent := by
  intro plan
  have hdocs : ∀ e ∈ docs, e.isObject = true ∧ e.Storable :=
    fun e he => hd e (List.mem_append_left _ he)
  have hdoc : doc.isObject = true ∧ doc.Storable :=
    hd doc (List.mem_append_right _ List.mem_cons_self)
  -- One inventory only holds the groups of the document that is loaded.
  obtain rfl := Inventory.holds_iff.mp hheld
  obtain ⟨hstep, _⟩ := run_in_step hw fresh (start_in_step hk world) hdocs
  obtain ⟨after, hnext, hsent, happlied, hafter⟩ := next_in_step hw fresh hstep hdoc
  have hrun : (start files path world).run store fresh (docs ++ [doc]) = after := by
    rw [run, List.foldl_append, List.foldl_cons, List.foldl_nil]
    exact congrArg Prod.snd hnext
  -- Both ways of running send the operations that the documents alone decide.
  have hthis := (run_in_step hw fresh (start_in_step hk world) hd).2
  have hother := (run_in_step hw (!fresh) (start_in_step hk world) hd).2
  refine ⟨after, _, hnext, hsent, hafter.replayed, Inventory.holds_ofDocument doc, happlied,
    hafter.loaded, ?_⟩
  rw [← hrun, hthis, hother]

/-- A path whose directory is still to be made. -/
def firstPath : Path := ⟨false, ["etc", "groups.json"]⟩

theorem keeps_firstPath : Baseline.Keeps .empty firstPath := by
  have hm : Files.empty.makeDirectories firstPath.parent
      = (.ok (), ⟨.directory 0 [("etc", .directory 1 [])], [], 2⟩) := by cbv
  have hends : firstPath.endsInDots = false ∧ firstPath.endsInSlash = false
      ∧ (Baseline.checksumPath firstPath).endsInSlash = false := ⟨by cbv, by cbv, by cbv⟩
  have hpieces : firstPath.pieces = ["etc"] ++ ["groups.json"] := rfl
  have hpieces' : (Baseline.checksumPath firstPath).pieces
      = ["etc"] ++ ["groups.json" ++ ".sha256"] := rfl
  obtain ⟨hstays, hup⟩ := Baseline.checksum_name_stays "groups.json"
  have hroom : Baseline.Room ⟨.directory 0 [("etc", .directory 1 [])], [], 2⟩
      firstPath ["etc"] "groups.json" := by
    refine ⟨hends, ?_, ?_, 1, [], rfl, ?_, ?_⟩
    · exact (Files.locateEntry_iff hpieces (by decide) (by decide)).mpr
        ⟨by cbv, by decide, ["etc"], by cbv, ⟨1, [], rfl⟩, rfl⟩
    · exact (Files.locateEntry_iff hpieces' hstays hup).mpr
        ⟨by cbv, by decide, ["etc"], by cbv, ⟨1, [], rfl⟩, rfl⟩
    · intro n hn
      cases hn
    · intro n hn
      cases hn
  exact Baseline.keeps_of_room hm hroom

/-- A store that counts what it is offered. -/
def counting : Store (StateM Nat) := fun _ n => (.ok (), n + 1)

/-- What leads from nothing to the earlier document. -/
theorem ofDocuments_empty_earlier : (Plan.ofDocuments .empty Plan.earlier).operations
    = [⟨"resources group dscp-group a dscp", "npf-cfg add dscp-group:a 0 8;46", "ALL", .set⟩,
      ⟨"resources group dscp-group b dscp", "npf-cfg add dscp-group:b 0 1", "ALL", .set⟩,
      ⟨"resources group dscp-group c dscp", "npf-cfg add dscp-group:c 0 ", "ALL", .set⟩,
      ⟨"qos commit", "qos commit", "ALL", .set⟩] := by
  have hb : ∀ source, DscpGroup.valueList ⟨"b", source, [1]⟩ = "1" := fun _ => by cbv
  have hc : ∀ source, DscpGroup.valueList ⟨"c", source, []⟩ = "" := fun _ => by cbv
  have hnone : DscpGroup.inDocument .empty = [] := by cbv
  rw [Plan.ofDocuments, hnone, Plan.operations_between_nil, Plan.inDocument_earlier,
    List.map_cons, Plan.create_a]
  simp only [List.map_cons, List.map_nil, Operation.create, hb, hc]
  decide

theorem commits_in_step_from_nothing :
    counting.Willing ∧ Baseline.Keeps .empty firstPath
      ∧ Inventory.Holds (.ofList []) (Baseline.load .empty firstPath)
      ∧ Plan.earlier.Storable ∧ Plan.later.Storable
      ∧ ∃ after now,
        ((start .empty firstPath 0).run counting true [Plan.earlier]).next
            counting true Plan.later
          = (.ok 5, after)
        ∧ after.sent
          = [⟨"resources group dscp-group a dscp", "npf-cfg add dscp-group:a 0 8;46",
              "ALL", .set⟩,
            ⟨"resources group dscp-group b dscp", "npf-cfg add dscp-group:b 0 1",
              "ALL", .set⟩,
            ⟨"resources group dscp-group c dscp", "npf-cfg add dscp-group:c 0 ", "ALL", .set⟩,
            ⟨"qos commit", "qos commit", "ALL", .set⟩,
            ⟨"resources group dscp-group b", "npf-cfg delete dscp-group:b", "ALL", .delete⟩,
            ⟨"resources group dscp-group c", "npf-cfg delete dscp-group:c", "ALL", .delete⟩,
            ⟨"resources group dscp-group b dscp", "npf-cfg add dscp-group:b 0 1;8",
              "ALL", .set⟩,
            ⟨"resources group dscp-group d dscp", "npf-cfg add dscp-group:d 0 ", "ALL", .set⟩,
            ⟨"qos commit", "qos commit", "ALL", .set⟩]
        ∧ Inventory.replay (.ofList []) after.sent = some now ∧ now.Holds Plan.later
        ∧ now = .ofList [("a", "8;46"), ("b", "1;8"), ("d", "")]
        ∧ after.service.applied = some Plan.later
        ∧ (GroupService.ofPath firstPath).previous after.files = Plan.later
        ∧ after.sent = ((start .empty firstPath 0).run counting false
            [Plan.earlier, Plan.later]).sent := by
  have hb : Plan.earlier.Storable := by decide
  have ha : Plan.later.Storable := by decide
  have hw : counting.Willing := fun _ _ => rfl
  have hload : Baseline.load .empty firstPath = .empty := by cbv
  have hheld : Inventory.Holds (.ofList []) (Baseline.load .empty firstPath) := by
    rw [hload]
    exact Inventory.holds_iff.mpr rfl
  -- The first of the two commits is what was run before.
  obtain ⟨_, _, hfirst, hsentFirst, _⟩ :=
    commits_in_step hw 0 keeps_firstPath hheld [] Plan.earlier
      (by simpa using ⟨rfl, hb⟩) true
  obtain ⟨after, now, hnext, hsent, hreplay, hholds, happlied, hprevious, hother⟩ :=
    commits_in_step hw 0 keeps_firstPath hheld [Plan.earlier] Plan.later
      (by simpa using ⟨⟨rfl, hb⟩, rfl, ha⟩) true
  have hrun : (start .empty firstPath 0).run counting true [Plan.earlier]
      = (((start .empty firstPath 0).run counting true []).next counting true
          Plan.earlier).2 := rfl
  have hbefore : ((start .empty firstPath 0).run counting true [Plan.earlier]).sent
      = (Plan.ofDocuments .empty Plan.earlier).operations := by
    rw [hrun, hfirst, hsentFirst, ← hload]
    rfl
  have hplan : Plan.ofDocuments
      ([Plan.earlier].getLast?.getD (Baseline.load .empty firstPath)) Plan.later
        = Plan.ofDocuments Plan.earlier Plan.later := rfl
  rw [hplan, Plan.ofDocuments_earlier_later] at hnext hsent
  rw [hbefore, ofDocuments_empty_earlier] at hsent
  exact ⟨hw, keeps_firstPath, hheld, hb, ha, after, now, hnext, hsent, hreplay, hholds,
    (Inventory.holds_iff.mp hholds).trans Plan.ofDocument_later, happlied, hprevious, hother⟩

end Deployment

end PacketClassifier
