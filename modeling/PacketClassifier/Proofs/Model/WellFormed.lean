/-
Every entry of a compiled model is well formed.

What is compiled from a document comes from the rules in it. A rule that is read from a
document in which no key stands twice has a match of that form
(`ClassifierConfig.nodup_spec`), and so its entries come kind by kind, with well-formed
ones only (`Match.entries_by_kind`). `Model.exists_rule_of_mem` leads from a compiled rule
back to the configured one, and `Model.build_wellFormed` says what all entries have in
common.
-/
import PacketClassifier.Proofs.Config.Classifier
import PacketClassifier.Proofs.Match.WellFormed
import PacketClassifier.Proofs.Model.Entries
import PacketClassifier.Proofs.Model.Reordered

namespace PacketClassifier

open Json (Members)
open Match (Kind)

/-! ### Rules in a document -/

/-- No key of a match stands twice where none does in the rule. -/
theorem RuleConfig.Alike.nodup_spec {r : RuleConfig} (h : r.Alike r) :
    (Assoc.keys (r.spec.getD [])).Nodup := by
  have hspec := h.spec
  cases hms : r.spec with
  | none => exact List.nodup_nil
  | some ms =>
    rw [hms] at hspec
    cases hspec with
    | some hp => exact hp.nodup

/-- The rules of a document in which no key stands twice have such matches. -/
theorem ClassifierConfig.nodup_spec {kind : ClassifierKind} {doc : Json} (hk : doc.Keyed)
    {cs : List ClassifierConfig} (h : Model.entries kind doc = .ok cs) {c : ClassifierConfig}
    (hc : c ∈ cs) {r : RuleConfig} (hr : r ∈ c.rules) :
    (Assoc.keys (r.spec.getD [])).Nodup := by
  have hcs : List.Forall₂ ClassifierConfig.Alike cs cs := by
    -- A document differs from itself in nothing but perhaps the order of keys, and so
    -- does what is read from it.
    have hself := Model.related_entries kind hk.permuted
    rw [h] at hself
    cases hself with
    | ok hcs => exact hcs
  have hrules := (List.forall₂_same.mp hcs c hc).rules
  exact (List.forall₂_same.mp hrules r hr).nodup_spec

/-- A rule of a group or classifier is compiled from an enabled rule of its configuration. -/
theorem Classifier.exists_rule_of_mem {kind : ClassifierKind} {c : ClassifierConfig}
    {k : Classifier} (h : compile kind c = .ok k) {rule : Rule}
    (hrule : rule ∈ k.ruleset.rules) :
    ∃ r ∈ c.enabled, r.compile = .ok rule := by
  rw [compile_eq, Steps.bind_pure_eq_ok_iff] at h
  obtain ⟨rules, hrules, rfl⟩ := h
  exact Steps.exists_of_mem_mapM hrules hrule

namespace Model

/-- What a model lists is compiled from the entries of its document. -/
theorem exists_entry_of_mem {doc : Json} {old : Option Json} {m : Model}
    (h : build doc old = .ok m) {k : Classifier} (hk : k ∈ m.toList) :
    ∃ cs c, entries k.kind doc = .ok cs ∧ c ∈ cs ∧ Classifier.compile k.kind c = .ok k := by
  have htable : ∀ (kind : ClassifierKind) (t : List (String × Classifier)),
      table kind doc = .ok t →
        ∀ e ∈ t, e.2 = k → ∃ cs c, entries k.kind doc = .ok cs ∧ c ∈ cs
          ∧ Classifier.compile k.kind c = .ok k := by
    rintro kind t ht e he rfl
    obtain ⟨cs, compiled, hcs, hall, rfl⟩ := table_eq_ok_iff.mp ht
    obtain ⟨k, hmem, rfl⟩ := List.mem_map.mp (Assoc.mem_of_mem_ofList he)
    obtain ⟨c, hc, hcompile⟩ := hall.exists_of_mem hmem
    have hkind : (named k).2.kind = kind := (name_of_compile hcompile).1
    rw [hkind]
    exact ⟨cs, c, hcs, hc, hcompile⟩
  obtain ⟨hgroups, hclassifiers⟩ := tables_of_build_eq_ok h
  obtain ⟨e, he, hek⟩ := List.mem_map.mp hk
  rcases List.mem_append.mp he with he | he
  · exact htable .group m.groups hgroups e he hek
  · exact htable .classifier m.classifiers hclassifiers e he hek

/-- **Every compiled entry is well formed.** Networks have a length that fits their
address and no bit set behind it, ports have 16 bits, and no code is the number that means
every code. The entries of a rule are in the order of their kinds, with one at most for a
code point, for fragments and for the time to live. They come from a rule in the document
whose kinds compile to them alone, one kind after another; so no class of messages comes
from the older version. -/
theorem build_wellFormed {doc : Json} (hdoc : doc.Keyed) {old : Option Json} {m : Model}
    (hm : build doc old = .ok m) {k : Classifier} (hk : k ∈ m.toList) {rule : Rule}
    (hrule : rule ∈ k.ruleset.rules) :
    (∀ e ∈ rule.entries, e.WellFormed)
      ∧ rule.entries.Pairwise (fun e f => e.kind.rank ≤ f.kind.rank)
      ∧ (∀ kind ∈ [Kind.dscp, .fragment, .ttl],
          rule.entries.countP (fun e => e.kind = kind) ≤ 1)
      ∧ ∃ cs c r, entries k.kind doc = .ok cs ∧ c ∈ cs ∧ c.name = k.name
        ∧ r ∈ c.rules ∧ r.disabled = false ∧ r.number = rule.number
        ∧ ∃ alone : Kind → List Entry,
          rule.entries
              = [Kind.destination, .dscp, .fragment, .icmp, .icmpv6, .protocol, .source,
                  .ttl].flatMap alone
            ∧ (∀ (kind : Kind) (j : Json), (r.spec.getD []).get? kind.name = some j →
              Match.entries [(kind.name, j)] = .ok (alone kind))
            ∧ (∀ kind : Kind, (r.spec.getD []).get? kind.name = none → alone kind = [])
            ∧ (∀ kind, ∀ e ∈ alone kind, e.kind = kind)
            ∧ ∀ class_, .icmpV6Class class_ ∉ alone .icmp := by
  obtain ⟨cs, c, hcs, hc, hcompile⟩ := exists_entry_of_mem hm hk
  obtain ⟨r, hr, hrulec⟩ := Classifier.exists_rule_of_mem hcompile hrule
  obtain ⟨hrules, henabled⟩ := List.mem_filter.mp hr
  obtain ⟨hnumber, -, hentries⟩ := RuleConfig.compile_eq_ok_iff.mp hrulec
  have hspec := ClassifierConfig.nodup_spec hdoc hcs hc hrules
  obtain ⟨alone, heq, hpresent, habsent, hyields⟩ := Match.entries_by_kind hspec hentries
  refine ⟨?_, ?_, ?_, cs, c, r, hcs, hc, (name_of_compile hcompile).2.symm, hrules, ?_,
    hnumber.symm, alone, heq,
    hpresent, habsent, fun kind => (hyields kind).kind_eq, ?_⟩
  · intro e he
    rw [heq] at he
    obtain ⟨kind, -, he⟩ := List.mem_flatMap.mp he
    exact (hyields kind).wellFormed e he
  · rw [heq]
    exact Match.pairwise_flatMap_kinds hyields
  · intro kind hkind
    rw [heq, Match.countP_flatMap_kinds hyields]
    exact (hyields kind).length_le hkind
  · rw [Bool.not_eq_true'] at henabled
    exact henabled
  · intro class_ hmem
    have hkind := (hyields .icmp).kind_eq _ hmem
    cases hkind

/-- A rule whose networks have bits behind their length, with a class where there are none
and a code that means all. -/
def unmasked : Json :=
  oneRule (.obj [
    ("group-name", .str "g"),
    ("rule", .arr [.obj [("number", .int 7), ("match", .obj [
      ("source", .obj [("ipv4", .obj [("prefix", .str "10.1.2.3/16")])]),
      ("icmp", .obj [("class", .str "info"),
        ("type", .arr [.obj [("type-number", .int 3), ("code", .int 256)]])]),
      ("ttl", .obj [("equals", .int 64)]),
      ("destination", .obj [("ipv6", .obj [("prefix", .str "2001:db8::1/0")])])])]])])

theorem build_wellFormed_unmasked :
    unmasked.Keyed
      ∧ ∃ m k rule, build unmasked none = .ok m ∧ k ∈ m.toList ∧ rule ∈ k.ruleset.rules
        ∧ rule.entries = [.destinationNetwork ⟨.v6 0, 0⟩, .icmpV4 ⟨3, none⟩,
          .sourceNetwork ⟨.v4 0x0A010000, 16⟩, .ttl 64]
        ∧ (∀ e ∈ rule.entries, e.WellFormed)
        ∧ rule.entries.Pairwise (fun e f => e.kind.rank ≤ f.kind.rank)
        ∧ rule.entries.countP (fun e => e.kind = .ttl) ≤ 1 := by
  have hk : unmasked.Keyed := by decide
  have hm : build unmasked none
      = .ok ⟨[("g", ⟨.group, "g", ⟨.ipv6, [⟨7, "", [.destinationNetwork ⟨.v6 0, 0⟩,
          .icmpV4 ⟨3, none⟩, .sourceNetwork ⟨.v4 0x0A010000, 16⟩, .ttl 64]⟩]⟩⟩)],
        [], []⟩ := by cbv
  obtain ⟨hwell, hsorted, hsingle, -⟩ :=
    build_wellFormed hk hm List.mem_cons_self List.mem_cons_self
  exact ⟨hk, _, _, _, hm, List.mem_cons_self, List.mem_cons_self, rfl, hwell, hsorted,
    hsingle .ttl (by decide)⟩

end Model

end PacketClassifier
