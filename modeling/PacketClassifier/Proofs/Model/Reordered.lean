/-
What a document compiles to does not depend on the order of its keys.

Configured rules and classifiers are read alike from documents that differ in the order of
keys only, and compile alike (`RuleConfig.related_compile`, `Classifier.related_compile`).
So the whole documents compile to the same model, or fail in the same way at the same rule
(`Model.build_reordered`). Only the words of the failure may differ, because they tell the
first of several faults, or show a part of the document as it is written.
-/
import Mathlib
import PacketClassifier.Model
import PacketClassifier.Proofs.Match.Reordered
import PacketClassifier.Proofs.Schema.Reordered

namespace PacketClassifier

open Json (Members Permuted)
open Steps (Related)

/-- Whether two failures are both about the form of a document, or both about values in
one place. -/
inductive Error.SamePlace : Error → Error → Prop where
  | mismatch (m n : Schema.Mismatch) : SamePlace (.mismatch m) (.mismatch n)
  | config (context : String) (f g : Fault) :
      SamePlace (.config context f) (.config context g)

theorem Schema.related_read {α : Type} {R : α → α → Prop} {reader : Schema.Reader α}
    (h : Schema.Steady R reader) {i j : Json} (hij : Permuted i j) :
    Related Error.SamePlace R (Schema.read reader i) (Schema.read reader j) := by
  have hread := h i j hij
  rw [Schema.read, Schema.read]
  generalize reader i = x, reader j = y at hread ⊢
  cases hread with
  | ok hab => exact .ok hab
  | error _ => exact .error (.mismatch _ _)

/-! ### Rules -/

/-- Whether two configured rules differ in the order of keys of their match only. -/
structure RuleConfig.Alike (r s : RuleConfig) : Prop where
  number : r.number = s.number
  result : r.result = s.result
  disabled : r.disabled = s.disabled
  spec : Option.Rel Members.Permuted r.spec s.spec

namespace RuleConfig

theorem steady_reader : Schema.Steady RuleConfig.Alike reader := by
  have hnumber : (Schema.Shape.required "number" Schema.word).Steady Eq :=
    Schema.Shape.steady_required Schema.steady_word
  have hresult : (Schema.Shape.default "result" Schema.string "").Steady Eq :=
    Schema.Shape.steady_default Schema.steady_string rfl
  have hdisable : (Schema.Shape.default "disable" (fun _ => .ok true) false).Steady Eq :=
    Schema.Shape.steady_default (fun _ _ _ => .ok rfl) rfl
  have hmatch : (Schema.Shape.default "match" (Schema.nullable Schema.map) none).Steady
      (Option.Rel Members.Permuted) :=
    Schema.Shape.steady_default (Schema.steady_nullable Schema.steady_map) .none
  refine Schema.steady_record ?_
  rw [shape]
  refine Schema.Shape.steady_seq
    (Schema.Shape.steady_seq (Schema.Shape.steady_seq (Schema.Shape.steady_map ?_ hnumber)
    hresult) hdisable) hmatch
  intro number _ hnumber result _ hresult disabled _ hdisabled spec spec' hspec
  exact ⟨hnumber, hresult, hdisabled, hspec⟩

theorem related_compile {r s : RuleConfig} (h : r.Alike s) :
    Related Error.SamePlace Eq r.compile s.compile := by
  have hspec : Members.Permuted (r.spec.getD []) (s.spec.getD []) := by
    -- A rule without a match has the empty one.
    have hs := h.spec
    generalize r.spec = o, s.spec = p at hs ⊢
    cases hs with
    | none => exact ⟨List.nodup_nil, [], .nil, .nil⟩
    | some hms => exact hms
  have hentries := Match.alike_entries hspec
  rw [compile, compile, h.number, h.result]
  generalize Match.entries (r.spec.getD []) = x,
    Match.entries (s.spec.getD []) = y at hentries ⊢
  cases hentries with
  | ok he => exact .ok (congrArg _ he)
  | error _ => exact .error (.config _ _ _)

end RuleConfig

/-! ### Groups and classifiers -/

/-- Whether two configured groups or classifiers differ in the order of keys of their
rules only. The results are left out; nothing is compiled from them. -/
structure ClassifierConfig.Alike (c d : ClassifierConfig) : Prop where
  name : c.name = d.name
  traffic : c.traffic = d.traffic
  rules : List.Forall₂ RuleConfig.Alike c.rules d.rules

theorem eq_of_rel_eq {α : Type} {o p : Option α} (h : Option.Rel Eq o p) : o = p := by
  cases h with
  | none => rfl
  | some hab => exact congrArg some hab

theorem ClassifierConfig.steady_reader (kind : ClassifierKind) :
    Schema.Steady ClassifierConfig.Alike (reader kind) := by
  have hname : (Schema.Shape.required kind.nameField Schema.string).Steady Eq :=
    Schema.Shape.steady_required Schema.steady_string
  have htraffic :
      (Schema.Shape.default kind.trafficField (Schema.nullable Schema.string) none).Steady
        (Option.Rel Eq) :=
    Schema.Shape.steady_default (Schema.steady_nullable Schema.steady_string) .none
  have hresults :
      (Schema.Shape.default "results" (Schema.nullable Schema.anything) none).Steady
        (Option.Rel Permuted) :=
    Schema.Shape.steady_default (Schema.steady_nullable Schema.steady_anything) .none
  have hrules : (Schema.Shape.default "rule" (Schema.sequence RuleConfig.reader) []).Steady
      (List.Forall₂ RuleConfig.Alike) :=
    Schema.Shape.steady_default (Schema.steady_sequence RuleConfig.steady_reader) .nil
  refine Schema.steady_record ?_
  rw [shape]
  refine Schema.Shape.steady_seq
    (Schema.Shape.steady_seq (Schema.Shape.steady_seq (Schema.Shape.steady_map ?_ hname)
    htraffic) hresults) hrules
  intro name _ hname traffic traffic' htraffic results results' _ rules rules' hrules
  exact ⟨hname, eq_of_rel_eq htraffic, hrules⟩

namespace Classifier

theorem related_addRules {rs ss : List RuleConfig} (h : List.Forall₂ RuleConfig.Alike rs ss) :
    ∀ s : Ruleset, Related Error.SamePlace Eq (addRules s rs) (addRules s ss) := by
  induction h with
  | nil => exact fun _ => .ok rfl
  | @cons r r' rs ss hr _ ih =>
    intro s
    rw [addRules, addRules, hr.disabled]
    split
    · exact ih s
    · refine ((RuleConfig.related_compile hr).map_eq s.push).bind ?_
      rintro t _ rfl
      exact ih t

theorem related_compile (kind : ClassifierKind) {c d : ClassifierConfig} (h : c.Alike d) :
    Related Error.SamePlace Eq (compile kind c) (compile kind d) := by
  rw [compile, compile, h.name, h.traffic]
  exact (related_addRules h.rules _).map_eq _

end Classifier

/-! ### Documents -/

namespace Model

theorem related_compileInto (kind : ClassifierKind) {cs ds : List ClassifierConfig}
    (h : List.Forall₂ ClassifierConfig.Alike cs ds) :
    ∀ table, Related Error.SamePlace Eq (compileInto kind table cs)
      (compileInto kind table ds) := by
  induction h with
  | nil => exact fun _ => .ok rfl
  | cons hc _ ih =>
    intro table
    rw [compileInto, compileInto]
    refine (Classifier.related_compile kind hc).bind ?_
    rintro compiled _ rfl
    exact ih _

theorem related_entries (kind : ClassifierKind) {a b : Json} (h : Permuted a b) :
    Related Error.SamePlace (List.Forall₂ ClassifierConfig.Alike) (entries kind a)
      (entries kind b) := by
  have hlist : Option.Rel Permuted (list? kind a) (list? kind b) :=
    Json.rel_bind_get? (Json.rel_bind_get? (h.get? resourcesKey) classifiersKey) kind.name
  rw [entries, entries]
  generalize list? kind a = o, list? kind b = p at hlist ⊢
  cases hlist with
  | none => exact .ok .nil
  | some hij =>
    exact Schema.related_read
      (Schema.steady_sequence (ClassifierConfig.steady_reader kind)) hij

theorem related_table (kind : ClassifierKind) {a b : Json} (h : Permuted a b) :
    Related Error.SamePlace Eq (table kind a) (table kind b) :=
  (related_entries kind h).bind fun _ _ hcs => related_compileInto kind hcs []

theorem related_build {a b : Json} (h : Permuted a b) (old : Option Json) :
    Related Error.SamePlace Eq (build a old) (build b old) := by
  refine (related_table .group h).bind ?_
  rintro groups _ rfl
  refine (related_table .classifier h).bind ?_
  rintro classifiers _ rfl
  exact .ok rfl

/-- **The order of keys does not matter.** Documents that differ in the order of keys
only, at any depth, compile to the same model, and so to the same groups and classifiers
in the same order and with the same bytes; or neither has the form of a document; or both
have a fault in the same rule. -/
theorem build_reordered {a b : Json} (hk : a.Keyed) (h : a.Reordered b) (old : Option Json) :
    (∃ m, build a old = .ok m ∧ build b old = .ok m)
      ∨ (∃ m n, build a old = .error (.mismatch m) ∧ build b old = .error (.mismatch n))
      ∨ ∃ context f g, build a old = .error (.config context f)
          ∧ build b old = .error (.config context g) := by
  have hbuild := related_build ⟨hk, h⟩ old
  generalize build a old = x, build b old = y at hbuild ⊢
  cases hbuild with
  | ok hm => exact .inl ⟨_, rfl, congrArg _ hm.symm⟩
  | error he =>
    cases he with
    | mismatch m n => exact .inr (.inl ⟨m, n, rfl, rfl⟩)
    | config context f g => exact .inr (.inr ⟨context, f, g, rfl, rfl⟩)

/-- A document with a group of one rule. -/
def oneRule (group : Json) : Json :=
  .obj [(resourcesKey, .obj [(classifiersKey, .obj [("group", .arr [group])])])]

/-- A rule with two kinds of predicates, both of which have a fault. -/
def faultyRule : Json :=
  oneRule (.obj [("group-name", .str "g"), ("rule", .arr [.obj [("number", .int 7),
    ("match", .obj [("ttl", .obj [("equals", .str "x")]), ("fragment", .int 1)])]])])

/-- The same with its keys in other places, so that the other fault comes first. -/
def faultyRule' : Json :=
  oneRule (.obj [
    ("rule", .arr [.obj [
      ("match", .obj [("fragment", .int 1), ("ttl", .obj [("equals", .str "x")])]),
      ("number", .int 7)]]),
    ("group-name", .str "g")])

theorem build_reordered_faultyRule :
    faultyRule.Keyed ∧ faultyRule.Reordered faultyRule'
      ∧ ∃ f g, build faultyRule none = .error (.config "rule 7" f)
        ∧ build faultyRule' none = .error (.config "rule 7" g) := by
  have hk : faultyRule.Keyed := by decide
  have hmatch :
      Json.Reordered (.obj [("ttl", .obj [("equals", .str "x")]), ("fragment", .int 1)])
        (.obj [("fragment", .int 1), ("ttl", .obj [("equals", .str "x")])]) :=
    .obj (.cons _ (.obj (.cons _ (.str _) .nil) (.refl _)) (.cons _ (.int _) .nil))
      (.swap _ _ _)
  have hrule : Json.Reordered (.obj [("number", .int 7),
      ("match", .obj [("ttl", .obj [("equals", .str "x")]), ("fragment", .int 1)])])
      (.obj [("match", .obj [("fragment", .int 1), ("ttl", .obj [("equals", .str "x")])]),
        ("number", .int 7)]) :=
    .obj (.cons _ (.int _) (.cons _ hmatch .nil)) (.swap _ _ _)
  have hgroup : faultyRule.Reordered faultyRule' := by
    refine .obj (.cons _ (.obj
      (.cons _ (.obj (.cons _ (.arr (.cons ?_ .nil)) .nil) (.refl _)) .nil) (.refl _)) .nil)
      (.refl _)
    exact .obj (.cons _ (.str _) (.cons _ (.arr (.cons hrule .nil)) .nil)) (.swap _ _ _)
  have hfault : build faultyRule none
    = .error (.config "rule 7" (.notUnsigned (.str "x"))) := by cbv
  refine ⟨hk, hgroup, ?_⟩
  -- The first document fails at a rule, which leaves only one of the cases.
  rcases build_reordered hk hgroup none with ⟨m, hm, _⟩ | ⟨m, _, hm, _⟩
    | ⟨context, f, g, hf, hg⟩
  · rw [hfault] at hm
    cases hm
  · rw [hfault] at hm
    cases hm
  · obtain ⟨rfl, rfl⟩ := Error.config.inj (Except.error.inj (hfault.symm.trans hf))
    exact ⟨_, g, hf, hg⟩

end Model

end PacketClassifier
