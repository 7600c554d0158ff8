/-
Disabled rules leave no trace.

The rules of a group or classifier are compiled one after another, and those that are
disabled are passed over. What comes out is what the others come to alone, in their order,
or the fault of the first of them that has one. A ruleset that stays where it is while
they are compiled onto it (`Classifier.compileRules`) comes to the same: no rule touches
the entries of another.

* `Classifier.addRules_eq`: the compiled rules are the enabled ones, compiled one by one.
* `Classifier.compileRules_eq`: the same on one ruleset.
* `Classifier.compile_without_disabled`: what a group or classifier compiles to.
-/
import PacketClassifier.Config.Classifier
import PacketClassifier.Proofs.Config.Rule

namespace PacketClassifier

/-- The rules that are not disabled. -/
def ClassifierConfig.enabled (c : ClassifierConfig) : List RuleConfig :=
  c.rules.filter fun r => !r.disabled

namespace Classifier

/-- The enabled rules, compiled one by one, come behind those that are there. -/
theorem addRules_eq (s : Ruleset) (rs : List RuleConfig) : addRules s rs =
    (rs.filter fun r => !r.disabled).mapM RuleConfig.compile >>= fun rules =>
      pure ⟨s.traffic, s.rules ++ rules⟩ := by
  induction rs generalizing s with
  | nil =>
    show Except.ok s = .ok ⟨s.traffic, s.rules ++ []⟩
    rw [List.append_nil]
  | cons r rs ih =>
    rw [addRules, List.filter_cons]
    by_cases hr : r.disabled = true
    · rw [if_pos hr, ih, hr]
      rfl
    · rw [if_neg hr, Bool.eq_false_iff.mpr hr]
      simp only [Bool.not_false, if_true, List.mapM_cons, RuleConfig.compileInto]
      cases r.compile with
      | error e => rfl
      | ok rule =>
        show addRules (s.push rule) rs = _
        rw [ih]
        cases (rs.filter fun r => !r.disabled).mapM RuleConfig.compile with
        | error e => rfl
        | ok rules =>
          show Except.ok _ = Except.ok _
          rw [Ruleset.push, List.append_assoc]
          rfl

theorem compile_eq (kind : ClassifierKind) (c : ClassifierConfig) : compile kind c =
    c.enabled.mapM RuleConfig.compile >>= fun rules =>
      pure ⟨kind, c.name, .ofSetting c.traffic, rules⟩ := by
  rw [compile, addRules_eq]
  show (c.enabled.mapM RuleConfig.compile >>= _) >>= _ = _
  cases c.enabled.mapM RuleConfig.compile with
  | error e => rfl
  | ok rules => rfl

/-- Compiles the enabled rules one after another onto one ruleset. -/
def compileRules (rs : List RuleConfig) : ExceptT Error (StateM Ruleset) Unit :=
  rs.forM fun r => if r.disabled then pure () else r.compileOnto

theorem compileRules_of_disabled {r : RuleConfig} (hr : r.disabled = true)
    (rs : List RuleConfig) (s : Ruleset) :
    compileRules (r :: rs) s = compileRules rs s := by
  show ((if r.disabled then pure () else r.compileOnto) >>= fun _ => compileRules rs) s = _
  rw [if_pos hr]
  rfl

theorem compileRules_of_enabled {r : RuleConfig} (hr : ¬ r.disabled = true)
    (rs : List RuleConfig) (s : Ruleset) :
    compileRules (r :: rs) s =
      match r.compileInto s with
      | .ok t => compileRules rs t
      | .error e => (.error e, s) := by
  have honto := r.compileOnto_eq s
  show ((if r.disabled then pure () else r.compileOnto) >>= fun _ => compileRules rs) s = _
  rw [if_neg hr]
  simp only [bind, ExceptT.bind, ExceptT.mk, StateT.bind, honto]
  cases r.compileInto s with
  | error e => rfl
  | ok t => rfl

/-- On one ruleset the rules come to the same, and no rule adds to another one. -/
theorem compileRules_eq (rs : List RuleConfig) (s : Ruleset) :
    (∀ t, addRules s rs = .ok t → compileRules rs s = (.ok (), t))
      ∧ ∀ e, addRules s rs = .error e → (compileRules rs s).1 = .error e := by
  induction rs generalizing s with
  | nil =>
    constructor
    · intro t h
      rw [← Except.ok.inj h]
      rfl
    · intro e h
      cases h
  | cons r rs ih =>
    rw [addRules]
    by_cases hr : r.disabled = true
    · rw [if_pos hr, compileRules_of_disabled hr]
      exact ih s
    · rw [if_neg hr, compileRules_of_enabled hr]
      cases r.compileInto s with
      | ok t => exact ih t
      | error d =>
        constructor
        · intro t h
          cases h
        · intro e h
          exact congrArg Except.error (Except.error.inj h)

/-- **Disabled rules leave no trace.** What a group or classifier compiles to, or the
failure that it ends with, is the same as without its disabled rules. It compiles exactly
if the match of every enabled rule is read, and then its rules are the enabled ones in
their order, each with its own number, result and entries; else it ends with the fault of
the first enabled rule whose match is not read. Compiling the rules one after another onto
one ruleset comes to the same. -/
theorem compile_without_disabled (kind : ClassifierKind) (c : ClassifierConfig) :
    compile kind c = compile kind { c with rules := c.enabled }
      ∧ ((∃ compiled, compile kind c = .ok compiled) ↔
        ∀ r ∈ c.rules, r.disabled = false → ∃ ps, Match.predicates (r.spec.getD []) = .ok ps)
      ∧ (∀ compiled, compile kind c = .ok compiled →
        compiled.kind = kind ∧ compiled.name = c.name
          ∧ compiled.ruleset.traffic = .ofSetting c.traffic
          ∧ List.Forall₂ (fun r rule => rule.number = r.number ∧ rule.result = r.result
            ∧ Match.entries (r.spec.getD []) = .ok rule.entries) c.enabled
                compiled.ruleset.rules
          ∧ compileRules c.rules (.empty (.ofSetting c.traffic)) = (.ok (), compiled.ruleset))
      ∧ ∀ e, compile kind c = .error e ↔
        ∃ front r back fault, c.enabled = front ++ r :: back
          ∧ (∀ q ∈ front, ∃ ps, Match.predicates (q.spec.getD []) = .ok ps)
          ∧ Match.predicates (r.spec.getD []) = .error fault
          ∧ e = .config ("rule " ++ Numeral.text r.number.toNat) fault := by
  have henabled : ({ c with rules := c.enabled } : ClassifierConfig).enabled = c.enabled := by
    show c.enabled.filter _ = c.enabled
    rw [ClassifierConfig.enabled, List.filter_filter]
    simp only [Bool.and_self]
  refine ⟨?_, ?_, ?_, ?_⟩
  · rw [compile_eq, compile_eq, henabled]
  · rw [compile_eq, Steps.exists_bind_pure_eq_ok_iff, Steps.exists_mapM_eq_ok_iff]
    simp only [RuleConfig.exists_compile_eq_ok_iff, ClassifierConfig.enabled, List.mem_filter,
      Bool.not_eq_true', and_imp]
  · intro compiled h
    obtain ⟨t, ht, rfl⟩ := Steps.bind_pure_eq_ok_iff.mp h
    rw [compile_eq, Steps.bind_pure_eq_ok_iff] at h
    obtain ⟨rules, hrules, heq⟩ := h
    have hruleset : ⟨.ofSetting c.traffic, rules⟩ = t := congrArg Classifier.ruleset heq
    refine ⟨rfl, rfl, ?_, ?_, (compileRules_eq c.rules _).1 t ht⟩
    · rw [← hruleset]
    · rw [← hruleset]
      refine (Steps.mapM_eq_ok_iff.mp hrules).imp ?_
      intro r rule hr
      exact RuleConfig.compile_eq_ok_iff.mp hr
  · intro e
    rw [compile_eq, Steps.bind_pure_eq_error_iff, Steps.mapM_eq_error_iff]
    simp only [RuleConfig.exists_compile_eq_ok_iff, RuleConfig.compile_eq_error_iff]
    constructor
    · rintro ⟨front, r, back, henabled, hfront, fault, hfault, he⟩
      exact ⟨front, r, back, fault, henabled, hfront, hfault, he⟩
    · rintro ⟨front, r, back, fault, henabled, hfront, hfault, he⟩
      exact ⟨front, r, back, henabled, hfront, fault, hfault, he⟩

/-- A disabled rule with a fault between two enabled ones. -/
def tolerant : ClassifierConfig :=
  ⟨"g", some "ipv4", none,
    [⟨30, "x", false, some RuleConfig.mixed⟩, ⟨20, "y", true, some RuleConfig.faulty⟩,
     ⟨10, "z", false, none⟩]⟩

/-- The same with the fault in an enabled rule too. -/
def intolerant : ClassifierConfig :=
  { tolerant with rules := tolerant.rules ++ [⟨5, "w", false, some RuleConfig.faulty⟩] }

theorem compile_without_disabled_tolerant :
    (∃ compiled, compile .group tolerant = .ok compiled
        ∧ compiled.ruleset.rules.map (fun rule => (rule.number, rule.result))
            = [(30, "x"), (10, "z")]
        ∧ compileRules tolerant.rules (.empty .ipv4) = (.ok (), compiled.ruleset))
      ∧ compile .group intolerant = .error (.config "rule 5" (.notUnsigned (.str "x"))) := by
  have hmixed : Match.predicates RuleConfig.mixed
      = .ok [.dscp (.name "ef"), .fragment .any, .protocol [(.base, .name "udp")],
          .ttl 64] := by cbv
  have hnone : Match.predicates [] = .ok [] := by cbv
  have hfault : Match.predicates RuleConfig.faulty
    = .error (.notUnsigned (.str "x")) := by cbv
  have htext : "rule " ++ Numeral.text (5 : UInt32).toNat = "rule 5" := by cbv
  have hread : ∀ r ∈ tolerant.enabled, ∃ ps, Match.predicates (r.spec.getD []) = .ok ps := by
    rintro r (_ | ⟨_, _ | ⟨_, ⟨⟩⟩⟩)
    · exact ⟨_, hmixed⟩
    · exact ⟨_, hnone⟩
  constructor
  · obtain ⟨_, hcompiles, hrules, _⟩ := compile_without_disabled .group tolerant
    obtain ⟨compiled, hok⟩ :=
      hcompiles.mpr fun r hr hd => hread r (List.mem_filter.mpr ⟨hr, by rw [hd]; rfl⟩)
    obtain ⟨_, _, _, hapart, hplace⟩ := hrules compiled hok
    refine ⟨compiled, hok, ?_, hplace⟩
    have hsame : tolerant.enabled.map (fun r => (r.number, r.result))
        = compiled.ruleset.rules.map fun rule => (rule.number, rule.result) := by
      refine List.forall₂_eq_eq_eq
        ▸ List.forall₂_map_left_iff.mpr (List.forall₂_map_right_iff.mpr (hapart.imp ?_))
      rintro r rule ⟨hnumber, hresult, _⟩
      rw [hnumber, hresult]
    exact hsame.symm
  · obtain ⟨_, _, _, hfirst⟩ := compile_without_disabled .group intolerant
    refine (hfirst _).mpr ⟨tolerant.enabled, ⟨5, "w", false, some RuleConfig.faulty⟩, [], _,
      rfl, hread, hfault, ?_⟩
    exact congrArg (fun context => Error.config context _) htext.symm

end Classifier

end PacketClassifier
