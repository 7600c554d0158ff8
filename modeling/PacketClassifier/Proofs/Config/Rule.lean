/-
Rules that are compiled.

A rule is compiled from its match, and a match from its kinds, each on its own.
`RuleConfig.compileInto` hands out a ruleset with one more rule. `RuleConfig.compileOnto`
works on a ruleset that stays where it is: the rule is put there without entries, and one
predicate after another adds its own. The match is read before anything is put there, so
both come to the same, and a fault leaves the ruleset as it was.

* `RuleConfig.compile_eq_ok_iff`, `RuleConfig.compile_eq_error_iff`: when a rule compiles,
  and which fault it has else.
* `RuleConfig.compileOnto_eq`: both ways of compiling a rule.
* `RuleConfig.compile_kind_by_kind`: what the kinds of a match have to do with the rule.
-/
import Mathlib
import PacketClassifier.Config.Rule
import PacketClassifier.Proofs.Match.Kinds

namespace PacketClassifier

namespace Ruleset

/-- Puts a rule behind the others that has no entries yet. -/
def start (number : UInt32) (result : String) (s : Ruleset) : Ruleset :=
  s.push ⟨number, result, []⟩

/-- Adds entries to the rule that was put there last. -/
def extend (entries : List Entry) (s : Ruleset) : Ruleset :=
  ⟨s.traffic, s.rules.modify (s.rules.length - 1) fun r =>
    { r with entries := r.entries ++ entries }⟩

theorem extend_push (s : Ruleset) (r : Rule) (entries : List Entry) :
    (s.push r).extend entries = s.push { r with entries := r.entries ++ entries } := by
  have hlast : s.rules.length < (s.rules ++ [r]).length := by simp
  have hmodify := List.modify_eq_take_cons_drop
    (f := fun r : Rule => { r with entries := r.entries ++ entries }) hlast
  rw [List.take_left, List.getElem_concat_length rfl,
    List.drop_of_length_le (by simp)] at hmodify
  rw [extend, push, push]
  simp only [List.length_append, List.length_singleton, Nat.add_sub_cancel]
  rw [hmodify]

end Ruleset

namespace RuleConfig

open Json (Members)
open Match (Kind Predicate recognised)

/-- What a fault of a rule is told as. -/
def told (r : RuleConfig) (fault : Fault) : Error :=
  .config ("rule " ++ Numeral.text r.number.toNat) fault

/-- A rule that compiles keeps its number and result, and its entries are those of its
match. -/
theorem compile_eq_ok_iff {r : RuleConfig} {rule : Rule} : r.compile = .ok rule ↔
    rule.number = r.number ∧ rule.result = r.result
      ∧ Match.entries (r.spec.getD []) = .ok rule.entries := by
  rw [compile]
  cases Match.entries (r.spec.getD []) with
  | error fault =>
    constructor
    · intro h
      cases h
    · rintro ⟨_, _, h⟩
      cases h
  | ok es =>
    constructor
    · intro h
      obtain rfl := Except.ok.inj h
      exact ⟨rfl, rfl, rfl⟩
    · rintro ⟨hnumber, hresult, hentries⟩
      rw [← hnumber, ← hresult, Except.ok.inj hentries]

/-- A rule compiles exactly if its match is read. -/
theorem exists_compile_eq_ok_iff {r : RuleConfig} :
    (∃ rule, r.compile = .ok rule) ↔ ∃ ps, Match.predicates (r.spec.getD []) = .ok ps := by
  rw [compile, Match.entries]
  cases Match.predicates (r.spec.getD []) with
  | error fault =>
    constructor
    · rintro ⟨_, h⟩
      cases h
    · rintro ⟨_, h⟩
      cases h
  | ok ps => exact iff_of_true ⟨_, rfl⟩ ⟨ps, rfl⟩

/-- The only failure is a fault of the match. -/
theorem compile_eq_error_iff {r : RuleConfig} {e : Error} :
    r.compile = .error e ↔ ∃ fault, Match.predicates (r.spec.getD []) = .error fault
      ∧ e = r.told fault := by
  rw [compile, Match.entries]
  cases Match.predicates (r.spec.getD []) with
  | error fault =>
    constructor
    · intro h
      exact ⟨fault, rfl, (Except.error.inj h).symm⟩
    · rintro ⟨_, h, rfl⟩
      rw [← Except.error.inj h]
      rfl
  | ok ps =>
    constructor
    · intro h
      cases h
    · rintro ⟨_, h, _⟩
      cases h

/-- Compiles a rule onto a ruleset that stays there whatever happens. -/
def compileOnto (r : RuleConfig) : ExceptT Error (StateM Ruleset) Unit := do
  let ps ← MonadExcept.ofExcept ((Match.predicates (r.spec.getD [])).mapError r.told)
  modify (Ruleset.start r.number r.result)
  ps.forM fun p => modify (Ruleset.extend p.entries)

/-- One predicate after another adds its entries to the last rule and to no other. -/
theorem forM_extend (s : Ruleset) (ps : List Match.Predicate) (rule : Rule) :
    (ps.forM fun p => modify (Ruleset.extend p.entries) : ExceptT Error (StateM Ruleset) Unit)
      (s.push rule)
      = (.ok (), s.push { rule with
          entries := rule.entries ++ ps.flatMap Match.Predicate.entries }) := by
  induction ps generalizing rule with
  | nil =>
    rw [List.flatMap_nil, List.append_nil]
    rfl
  | cons p ps ih =>
    show (ps.forM fun p => modify (Ruleset.extend p.entries) :
      ExceptT Error (StateM Ruleset) Unit)
      ((s.push rule).extend p.entries) = _
    rw [Ruleset.extend_push, ih, List.flatMap_cons, List.append_assoc]

theorem compileOnto_eq (r : RuleConfig) (s : Ruleset) : r.compileOnto s =
    match r.compileInto s with
    | .ok t => (.ok (), t)
    | .error e => (.error e, s) := by
  rw [compileInto, compile, Match.entries, compileOnto]
  cases Match.predicates (r.spec.getD []) with
  | error fault => rfl
  | ok ps => exact forM_extend s ps ⟨r.number, r.result, []⟩

theorem compileInto_of_ok {r : RuleConfig} {ps : List Match.Predicate}
    (h : Match.predicates (r.spec.getD []) = .ok ps) (s : Ruleset) :
    r.compileInto s
      = .ok (s.push ⟨r.number, r.result, ps.flatMap Match.Predicate.entries⟩) := by
  rw [compileInto, compile, Match.entries, h]
  rfl

theorem compileInto_of_error {r : RuleConfig} {fault : Fault}
    (h : Match.predicates (r.spec.getD []) = .error fault) (s : Ruleset) :
    r.compileInto s = .error (r.told fault) := by
  rw [compileInto, compile_eq_error_iff.mpr ⟨fault, h, rfl⟩]
  rfl

/-- **Kinds compile on their own.** A match is read exactly if every kind in it is read
alone. It then compiles to what its kinds compile to alone, in the order of the kinds;
else it has the fault that its first kind with a fault has alone. Keys that are no kind
make no difference. The rule of a match that is read is put behind the others, which stay
as they are, and one that is not read leaves the ruleset as it was. -/
theorem compile_kind_by_kind {ms : Members} (hn : (Assoc.keys ms).Nodup) :
    ((∃ ps, Match.predicates ms = .ok ps) ↔
        ∀ (kind : Kind) (j : Json), ms.get? kind.name = some j → ∃ ps,
          Match.predicates [(kind.name, j)] = .ok ps)
      ∧ (∀ ps, Match.predicates ms = .ok ps → ∃ alone : Kind → List Entry,
        ps.flatMap Predicate.entries
            = [Kind.destination, .dscp, .fragment, .icmp, .icmpv6, .protocol, .source,
                .ttl].flatMap alone
          ∧ (∀ (kind : Kind) (j : Json), ms.get? kind.name = some j →
            Match.entries [(kind.name, j)] = .ok (alone kind))
          ∧ ∀ kind : Kind, ms.get? kind.name = none → alone kind = [])
      ∧ (∀ fault, Match.predicates ms = .error fault ↔
        ∃ front m back, ms.filter recognised = front ++ m :: back
          ∧ (∀ n ∈ front, ∃ ps, Match.predicates [n] = .ok ps)
          ∧ Match.predicates [m] = .error fault)
      ∧ (∀ ns : Members, ns.filter recognised = ms.filter recognised →
          Match.predicates ns = Match.predicates ms)
      ∧ ∀ (r : RuleConfig) (s : Ruleset), r.spec = some ms →
        (∀ ps, Match.predicates ms = .ok ps →
          ∃ t : Ruleset, t = ⟨s.traffic,
            s.rules ++ [⟨r.number, r.result, ps.flatMap Predicate.entries⟩]⟩
            ∧ r.compileInto s = .ok t ∧ r.compileOnto s = (.ok (), t))
        ∧ ∀ fault, Match.predicates ms = .error fault →
          r.compileInto s = .error (.config ("rule " ++ Numeral.text r.number.toNat) fault)
            ∧ r.compileOnto s
                = (.error (.config ("rule " ++ Numeral.text r.number.toNat) fault), s) := by
  refine ⟨Match.exists_predicates_iff hn, fun ps => Match.entries_eq hn,
    fun fault => Match.predicates_eq_error_iff, ?_, ?_⟩
  · intro ns h
    rw [← Match.predicates_filter, h, Match.predicates_filter]
  · intro r s hspec
    have hms : r.spec.getD [] = ms := by
      rw [hspec]
      rfl
    constructor
    · intro ps h
      have hinto := compileInto_of_ok (r := r) (hms ▸ h) s
      refine ⟨_, rfl, hinto, ?_⟩
      rw [compileOnto_eq, hinto]
      rfl
    · intro fault h
      have hinto := compileInto_of_error (r := r) (hms ▸ h) s
      refine ⟨hinto, ?_⟩
      rw [compileOnto_eq, hinto]
      rfl

/-- Four kinds out of order, with a key between them that is none. -/
def mixed : Members :=
  [("ttl", .obj [("equals", .int 64)]), ("vlan", .int 10),
    ("protocol", .obj [("base", .obj [("name", .str "udp")])]),
    ("fragment", .str "any"), ("dscp", .obj [("name", .str "ef")])]

/-- Two kinds with faults behind a key that is none. -/
def faulty : Members :=
  [("vlan", .null), ("ttl", .obj [("equals", .str "x")]), ("source", .int 5)]

theorem compile_kind_by_kind_mixed :
    (Assoc.keys mixed).Nodup ∧ (Assoc.keys faulty).Nodup
      ∧ (∃ alone : Kind → List Entry,
        [Kind.destination, .dscp, .fragment, .icmp, .icmpv6, .protocol, .source,
          .ttl].flatMap alone
            = [.dscp 46, .fragment .any, .baseProtocol 17, .ttl 64]
          ∧ Match.entries [("ttl", .obj [("equals", .int 64)])] = .ok (alone .ttl)
          ∧ alone .source = [])
      ∧ Match.predicates (faulty.filter recognised) = Match.predicates faulty
      ∧ (∃ m, Match.predicates [m] = .error (.notUnsigned (.str "x")))
      ∧ (⟨7, "drop", false, some mixed⟩ : RuleConfig).compileInto ⟨.ipv4, [⟨1, "accept", []⟩]⟩
        = .ok ⟨.ipv4, [⟨1, "accept", []⟩,
            ⟨7, "drop", [.dscp 46, .fragment .any, .baseProtocol 17, .ttl 64]⟩]⟩
      ∧ (⟨7, "drop", false, some faulty⟩ : RuleConfig).compileOnto
          ⟨.ipv4, [⟨1, "accept", []⟩]⟩
        = (.error (.config "rule 7" (.notUnsigned (.str "x"))),
            ⟨.ipv4, [⟨1, "accept", []⟩]⟩) := by
  have hmixed : (Assoc.keys mixed).Nodup := by decide
  have hfaulty : (Assoc.keys faulty).Nodup := by decide
  have hread : Match.predicates mixed
      = .ok [.dscp (.name "ef"), .fragment .any, .protocol [(.base, .name "udp")],
          .ttl 64] := by cbv
  have hfault : Match.predicates faulty = .error (.notUnsigned (.str "x")) := by cbv
  have htext : "rule " ++ Numeral.text (7 : UInt32).toNat = "rule 7" := by cbv
  obtain ⟨_, hentries, _, _, hrule⟩ := compile_kind_by_kind hmixed
  obtain ⟨_, _, hfirst, hother, hrefused⟩ := compile_kind_by_kind hfaulty
  obtain ⟨alone, hall, hpresent, habsent⟩ := hentries _ hread
  obtain ⟨_, m, _, _, _, hm⟩ := (hfirst _).mp hfault
  obtain ⟨t, rfl, hinto, _⟩ :=
    (hrule ⟨7, "drop", false, some mixed⟩ ⟨.ipv4, [⟨1, "accept", []⟩]⟩ rfl).1 _ hread
  obtain ⟨_, honto⟩ :=
    (hrefused ⟨7, "drop", false, some faulty⟩ ⟨.ipv4, [⟨1, "accept", []⟩]⟩ rfl).2 _ hfault
  refine ⟨hmixed, hfaulty, ⟨alone, ?_, hpresent .ttl _ rfl, habsent .source rfl⟩, hother _ ?_,
    ⟨m, hm⟩, hinto, ?_⟩
  · rw [← hall]
    rfl
  · rw [List.filter_filter]
    simp only [Bool.and_self]
  · rw [honto]
    exact congrArg (fun context => (Except.error (Error.config context _), _)) htext

end RuleConfig

end PacketClassifier
