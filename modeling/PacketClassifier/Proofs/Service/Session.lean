/-
What a service has been through.

A service is asked one thing after another, and nobody else writes its file. The document
that it shows, the one in the file and the model in use move apart: a document that is
refused is shown all the same, an empty one gives way to the one in the file, and only a
document that is taken over comes into use. `Session` notes beside the service which
documents it was given and which of them it took over.

* `Session.Settled`: these notes tell everything that the service and its file hold,
* `Session.serve_settled`, `Session.run_settled`: no request breaks this, and so no run does,
* `Session.outcome_of_run`: what can be seen after a run.
-/
import PacketClassifier.Proofs.Model.Entries
import PacketClassifier.Proofs.Service.Model

namespace PacketClassifier

namespace Model

/-- What is compiled from a document. An earlier document has no part in it. -/
def tables (m : Model) : List (String × Classifier) × List (String × Classifier) :=
  (m.groups, m.classifiers)

theorem tables_of_build (doc : Json) (old : Option Json) :
    (build doc old).toOption.map tables = (build doc none).toOption.map tables := by
  rw [build_eq doc old]
  cases build doc none with
  | error e => rfl
  | ok m => rfl

end Model

namespace ModelService

variable {s : ModelService} {files : Files} {doc : Json}

theorem set_ok_iff (hk : Baseline.Keeps files s.path) :
    (s.set files doc).1 = .ok () ↔ TakesOver doc := by
  constructor
  · intro h
    by_contra ha
    obtain ⟨e, hset⟩ := set_of_not_takesOver s files ha
    rw [hset] at h
    cases h
  · intro ha
    obtain ⟨saved, _, hsave, _⟩ := Baseline.save_stamped hk ha.2
    obtain ⟨model, hb⟩ := (Model.compiles_iff (some (s.document files))).mp ha.1
    rw [set_eq, hb, hsave]

/-- What a service shows it goes on to show. -/
theorem document_get (s : ModelService) (files : Files) :
    (s.get files).2.document files = s.document files := by
  show ((some (s.document files)).filter fun doc => !doc.isEmptyDocument).getD _
    = s.document files
  by_cases hempty : (s.document files).isEmptyDocument = true
  · rw [Option.filter_some, hempty]
    rw [document] at hempty ⊢
    cases hcurrent : s.current? with
    | none => rfl
    | some doc =>
      have hdoc := (Option.filter_eq_some_iff.mp hcurrent).2
      rw [hcurrent, Option.getD_some] at hempty
      rw [hempty] at hdoc
      cases hdoc
  · rw [Option.filter_some, Bool.eq_false_of_not_eq_true hempty]
    rfl

/-- What a service can be asked. -/
inductive Request where
  | set (doc : Json)
  | get
  | check (doc : Json)
  | lookup (name : String)

/-- A document that was taken over, and what the service showed just before. -/
structure Takeover where
  doc : Json
  shown : Json

end ModelService

open ModelService

/-- A service with its file, and what happened so far. -/
structure Session where
  service : ModelService
  files : Files
  /-- All documents that the service was given. -/
  given : List Json
  /-- Those that it took over. -/
  taken : List Takeover

namespace Session

/-- A service that has read its file, before anything is asked of it. -/
def start (files : Files) (path : Path) : Session := ⟨.start files path, files, [], []⟩

/-- One request, with what comes of it. -/
def serve (s : Session) : Request → Session
  | .set doc =>
    let (result, service, files) := s.service.set s.files doc
    { service, files
      given := s.given ++ [doc]
      taken := match result with
        | .ok () => s.taken ++ [⟨doc, (s.service.get s.files).1⟩]
        | .error _ => s.taken }
  | .get => { s with service := (s.service.get s.files).2 }
  | .check _ => s
  | .lookup name => { s with service := (s.service.lookup s.files name).2 }

/-- Requests one after another. -/
def run (s : Session) (rs : List Request) : Session := rs.foldl serve s

/-- Whether what happened so far tells everything about a service and its file. -/
structure Settled (path : Path) (initial : Json) (s : Session) : Prop where
  path_eq : s.service.path = path
  keeps : Baseline.Keeps s.files path
  /-- Nobody else has written the file. -/
  fresh : s.service.isStale s.files = false
  loaded : Baseline.load s.files path = (s.taken.getLast?.map Takeover.doc).getD initial
  compiled : s.service.compiled
    = (Model.build (Baseline.load s.files path)
        (s.taken.getLast?.map Takeover.shown)).toOption
  compiles : ∀ t, s.taken.getLast? = some t → Model.Compiles t.doc
  shows : s.service.document s.files
    = (s.given.getLast?.filter fun doc => !doc.isEmptyDocument).getD
        (Baseline.load s.files path)

variable {path : Path} {initial : Json} {s : Session} {doc : Json}

theorem start_settled {files : Files} (hk : Baseline.Keeps files path) :
    Settled path (Baseline.load files path) (start files path) := by
  refine ⟨rfl, hk, isStale_reload _ files none, rfl, ?_, fun _ h => (nomatch h), ?_⟩
  · show (Model.build (Baseline.load files path) none).toOption.or none = _
    rw [Option.or_none]
    rfl
  · show ((some (Baseline.load files path)).filter fun doc => !doc.isEmptyDocument).getD _
      = Baseline.load files path
    rw [Option.filter_some]
    split
    · rfl
    · rfl

theorem get_settled (h : Settled path initial s) : Settled path initial (s.serve .get) :=
  ⟨h.path_eq, h.keeps, h.fresh, h.loaded, h.compiled, h.compiles,
    (document_get s.service s.files).trans h.shows⟩

/-- A document that is refused is shown, unless it is empty, and nothing else comes of it. -/
theorem refused_settled (h : Settled path initial s) (ha : ¬ TakesOver doc) :
    Settled path initial (s.serve (.set doc)) := by
  obtain ⟨e, hset⟩ := set_of_not_takesOver s.service s.files ha
  rw [serve, hset]
  refine ⟨h.path_eq, h.keeps, h.fresh, h.loaded, h.compiled, h.compiles, ?_⟩
  show ((some doc).filter fun doc => !doc.isEmptyDocument).getD
    (Baseline.load s.files s.service.path) = _
  rw [List.getLast?_concat, h.path_eq]

/-- A document that is taken over is kept and comes into use. -/
theorem taken_settled (h : Settled path initial s) (ha : TakesOver doc) (hd : doc.Storable) :
    Settled path initial (s.serve (.set doc)) := by
  obtain rfl := h.path_eq
  obtain ⟨saved, hsave, hkeeps, hread⟩ := Baseline.save_of_keeps h.keeps ha.2
  have hload := Baseline.load_of_read hread ha.2 hd
  obtain ⟨model, hb⟩ := (Model.compiles_iff (some (s.service.document s.files))).mp ha.1
  rw [serve, set_eq, hb, hsave]
  refine ⟨rfl, hkeeps, isStale_of_loaded rfl, ?_, ?_, ?_, ?_⟩
  · rw [List.getLast?_concat]
    exact hload
  · rw [List.getLast?_concat, hload]
    show some model = (Model.build doc (some (s.service.document s.files))).toOption
    rw [hb]
    rfl
  · intro t ht
    rw [List.getLast?_concat] at ht
    obtain rfl := Option.some.inj ht
    exact ha.1
  · rw [List.getLast?_concat]
    rfl

/-- No request breaks what is settled. -/
theorem serve_settled (h : Settled path initial s) (r : Request)
    (hr : ∀ doc, r = .set doc → doc.Storable) :
    Settled path initial (s.serve r) := by
  cases r with
  | set doc =>
    by_cases ha : TakesOver doc
    · exact taken_settled h ha (hr doc rfl)
    · exact refused_settled h ha
  | get => exact get_settled h
  | check doc => exact h
  | lookup name =>
    -- The stamp is the one that the service knows, so it does not read the file again.
    have hservice : (s.service.lookup s.files name).2 = s.service :=
      refresh_of_not_stale h.fresh
    rw [serve, hservice]
    exact h

theorem run_settled {rs : List Request} :
    ∀ {s : Session}, Settled path initial s → (∀ doc, .set doc ∈ rs → doc.Storable) →
      Settled path initial (s.run rs) := by
  induction rs with
  | nil => exact fun h _ => h
  | cons r rs ih =>
    intro s h hd
    exact ih (serve_settled h r fun doc he => hd doc (he ▸ List.mem_cons_self))
      fun doc hm => hd doc (List.mem_cons_of_mem _ hm)

theorem taken_set (h : Settled path initial s) (doc : Json) : (s.serve (.set doc)).taken
    = if TakesOver doc then s.taken ++ [⟨doc, s.service.document s.files⟩] else s.taken := by
  have hiff : (s.service.set s.files doc).1 = .ok () ↔ TakesOver doc :=
    set_ok_iff (h.path_eq ▸ h.keeps)
  rw [serve]
  cases hresult : (s.service.set s.files doc).1 with
  | ok _ =>
    rw [if_pos (hiff.mp hresult)]
    simp only [hresult]
    rfl
  | error e =>
    rw [if_neg fun ha => nomatch hresult.symm.trans (hiff.mpr ha)]
    simp only [hresult]

/-- **What comes of a run.** Whatever the file is at first, and whatever the service was
asked until now, a document is taken over if it is an object and compiles. The file has
the document that was taken over last, and what is in use is compiled from it. The service
shows the document that it was given last, even if that was refused, and the one in the
file if there is nothing in it. The names that count as modified are those that stood in
what the service showed just before the last document was taken over. -/
theorem outcome_of_run {files : Files} {path : Path} (hk : Baseline.Keeps files path)
    (rs : List Request)
    (hd : ∀ doc, .set doc ∈ rs → (∃ text, Json.ofText? text = some doc) ∧ ¬ doc.HasReal) :
    let s := (start files path).run rs
    let persisted := Baseline.load s.files path
    (∀ doc, (s.service.set s.files doc).1 = .ok ()
      ↔ doc.isObject = true ∧ ∃ m, Model.build doc none = .ok m)
      ∧ persisted = (s.taken.getLast?.map Takeover.doc).getD (Baseline.load files path)
      ∧ s.service.compiled.map Model.tables
          = (Model.build persisted none).toOption.map Model.tables
      ∧ (s.service.get s.files).1
          = (s.given.getLast?.filter fun doc => !doc.isEmptyDocument).getD persisted
      ∧ ∀ t, s.taken.getLast? = some t → ∃ m, s.service.compiled = some m
        ∧ m.modified = (Assoc.keys m.groups ++ Assoc.keys m.classifiers).filter fun name =>
          (Model.namesIn (some t.shown)).contains name := by
  intro s persisted
  have h : Settled path (Baseline.load files path) s :=
    run_settled (start_settled hk) fun doc hm => Json.storable_iff.mpr (hd doc hm)
  refine ⟨fun doc => ?_, h.loaded, ?_, h.shows, fun t ht => ?_⟩
  · rw [set_ok_iff (h.path_eq ▸ h.keeps), TakesOver, Model.compiles_iff none, and_comm]
  · rw [h.compiled]
    exact Model.tables_of_build _ _
  · have hload : Baseline.load s.files path = t.doc := by
      rw [h.loaded, ht]
      rfl
    obtain ⟨m, hb⟩ := (Model.compiles_iff (some t.shown)).mp (h.compiles t ht)
    refine ⟨m, ?_, Model.modified_of_build hb⟩
    rw [h.compiled, hload, ht, Option.map_some, hb]
    rfl

/-- A document with a group that compiles. -/
def accepted (name : String) : Json := Fleet.grouped name [("ip-version", .str "ipv6")]

/-- A document with a group that does not compile. -/
def refused (name : String) : Json := Fleet.grouped name [("rule", .int 7)]

theorem storable_grouped {key : String} {value : Json} (hkey : key ≠ "group-name")
    (hk : value.Keyed) (hx : value.Exact) (hd : value.depth = 0) (name : String) :
    (Fleet.grouped name [(key, value)]).Storable := by
  refine ⟨?_, ?_, ?_⟩
  · simp [Fleet.grouped, Json.Keyed, Json.KeyedItems, Json.KeyedMembers, Assoc.keys,
      hkey.symm, hk]
  · simp [Fleet.grouped, Json.Exact, Json.ExactItems, Json.ExactMembers, hx]
  · simp [Fleet.grouped, Json.depth, Json.depthItems, Json.depthMembers, hd, Json.maxDepth]

theorem outcome_of_run_refused :
    let rs : List Request := [.set (accepted "g"), .set (refused "h"), .lookup "g",
      .set (accepted "h"), .get,
      .set (refused "i")]
    let s := (start .empty Deployment.firstPath).run rs
    Baseline.Keeps .empty Deployment.firstPath
      ∧ (∀ doc, .set doc ∈ rs → (∃ text, Json.ofText? text = some doc) ∧ ¬ doc.HasReal)
      ∧ Baseline.load s.files Deployment.firstPath = accepted "h"
      ∧ (s.service.get s.files).1 = refused "i"
      ∧ ∃ m, s.service.compiled = some m ∧ m.modified = ["h"] := by
  intro rs s
  have haccepted : ∀ name, (accepted name).Storable :=
    storable_grouped (by decide) trivial trivial rfl
  have hrefused : ∀ name, (refused name).Storable :=
    storable_grouped (by decide) trivial ⟨by decide, by decide⟩ rfl
  have hd : ∀ doc, .set doc ∈ rs → doc.Storable := by
    simp [rs, haccepted, hrefused]
  have hreadable : ∀ doc, .set doc ∈ rs → (∃ text, Json.ofText? text = some doc)
      ∧ ¬ doc.HasReal :=
    fun doc hm => Json.storable_iff.mp (hd doc hm)
  have hg : TakesOver (accepted "g") := by decide
  have hh : TakesOver (accepted "h") := by decide
  have hh' : ¬ TakesOver (refused "h") := by decide
  have hi' : ¬ TakesOver (refused "i") := by decide
  -- What the service shows after three requests is noted with the fourth.
  have h₁ := taken_settled (start_settled Deployment.keeps_firstPath) hg (haccepted "g")
  have h₃ := serve_settled (refused_settled h₁ hh') (.lookup "g") fun _ h => nomatch h
  have h₅ := get_settled (taken_settled h₃ hh (haccepted "h"))
  have hlast : s.taken.getLast? = some ⟨accepted "h", refused "h"⟩ := by
    have hs := taken_set h₅ (refused "i")
    have hs₄ := taken_set h₃ (accepted "h")
    rw [if_neg hi'] at hs
    rw [if_pos hh, h₃.shows] at hs₄
    rw [show s.taken = _ from hs.trans hs₄, List.getLast?_concat]
    rfl
  obtain ⟨_, hpersisted, htables, hshown, hmodified⟩ :=
    outcome_of_run Deployment.keeps_firstPath rs hreadable
  obtain ⟨m, hm, hmodified⟩ := hmodified _ hlast
  have hload : Baseline.load s.files Deployment.firstPath = accepted "h" := by
    rw [hpersisted, hlast]
    rfl
  refine ⟨Deployment.keeps_firstPath, hreadable, hload, hshown, m, hm, ?_⟩
  rw [hm, hload] at htables
  have hkeys : Assoc.keys m.groups ++ Assoc.keys m.classifiers = ["h"] := by
    have hbuilt : ((Model.build (accepted "h") none).toOption.map Model.tables).map
        (fun t => Assoc.keys t.1 ++ Assoc.keys t.2) = some ["h"] := by cbv
    rw [← htables] at hbuilt
    exact Option.some.inj hbuilt
  have hnamed : Model.namesIn (some (refused "h")) = ["h"] := by cbv
  rw [hmodified, hkeys, hnamed]
  rfl

end Session

end PacketClassifier
