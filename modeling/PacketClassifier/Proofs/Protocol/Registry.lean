/-
What a registry text declares.

Lines are added to the tables of a registry one after another. What one line adds
(`Registry.name?_declare`, `Registry.number?_declare`) depends on what is there already,
and the three tables of rules come to this for a whole text: a number has the name of its
first line, and a name has the number of its last line, or else that of the first line
that lists it further on.

* `Declaration.ofLine?_eq_some_iff`: which lines declare something, and what.
* `Registry.ofText_meaning`: what a whole text declares.
-/
import Mathlib
import PacketClassifier.Proofs.Assoc
import PacketClassifier.Proofs.Text.Fields
import PacketClassifier.Proofs.Text.Numeral
import PacketClassifier.Protocol.Registry

namespace PacketClassifier

namespace Protocol

/-- Whether a declaration stands on a line: in front of the first number sign, the line
consists of the name, a text that writes the number, and the aliases, with blanks between
them. -/
def Declaration.StandsOn (d : Declaration) (line : List Char) : Prop :=
  ∃ number, Text.Separated (line.takeWhile (· != '#'))
    (d.name.toList :: number :: d.aliases.map String.toList)
    ∧ Numeral.Spells number d.number.toNat

/-- A line is read as the declaration that stands on it. -/
theorem Declaration.ofLine?_eq_some_iff {line : List Char} {d : Declaration} :
    ofLine? line = some d ↔ d.StandsOn line := by
  have hback : ∀ texts : List (List Char),
      (texts.map String.ofList).map String.toList = texts := by
    intro texts
    simp [Function.comp_def]
  constructor
  · intro h
    rw [ofLine?] at h
    -- There are two fields at least, and the second one is a number.
    cases hf : Text.fields (line.takeWhile (· != '#')) with
    | nil =>
      rw [hf] at h
      cases h
    | cons name rest =>
      cases rest with
      | nil =>
        rw [hf] at h
        cases h
      | cons number aliases =>
        rw [hf] at h
        obtain ⟨n, hn, rfl⟩ := Option.map_eq_some_iff.mp h
        have hspells := Numeral.word?_eq_some_iff.mp hn
        rw [String.toList_ofList] at hspells
        refine ⟨number, ?_, hspells⟩
        rw [String.toList_ofList, hback]
        exact Text.fields_eq_iff.mp hf
  · rintro ⟨number, hfields, hspells⟩
    have hn : Numeral.word? (String.ofList number) = some d.number := by
      rwa [Numeral.word?_eq_some_iff, String.toList_ofList]
    have hnames : (d.aliases.map String.toList).map String.ofList = d.aliases := by
      simp [Function.comp_def]
    rw [ofLine?, Text.fields_eq_iff.mpr hfields]
    simp only [List.map_cons, hn, Option.map_some, String.ofList_toList, hnames]

namespace Registry

/-! ### One more line -/

theorem name?_declare (r : Registry) (d : Declaration) (n : UInt32) :
    (r.declare d).name? n = (r.name? n).or (if n = d.number then some d.name else none) :=
  Assoc.lookup_insertNew d.number n d.name r.byNumber

theorem number?_declare (r : Registry) (d : Declaration) (name : String) :
    (r.declare d).number? name = if name = d.name then some d.number
      else (r.number? name).or (if name ∈ d.aliases then some d.number else none) := by
  rw [number?, declare, Assoc.lookup_foldl_insertNew]
  by_cases h : name = d.name
  · subst h
    rw [if_pos rfl, Assoc.lookup_insert_self, Option.some_or]
  · rw [if_neg h, Assoc.lookup_insert_of_ne h, number?]

/-! ### Declarations one after another -/

/-- The registry of declarations. -/
def ofDeclarations (ds : List Declaration) : Registry := ds.foldl declare empty

theorem ofDeclarations_concat (ds : List Declaration) (d : Declaration) :
    ofDeclarations (ds ++ [d]) = (ofDeclarations ds).declare d := by
  rw [ofDeclarations, List.foldl_append]
  rfl

/-- A number keeps the name that is declared first. -/
theorem name?_ofDeclarations (ds : List Declaration) (n : UInt32) :
    (ofDeclarations ds).name? n = (ds.find? (·.number = n)).map (·.name) := by
  induction ds using List.reverseRecOn with
  | nil => rfl
  | append_singleton ds d ih =>
    rw [ofDeclarations_concat, name?_declare, ih, List.find?_append, Option.map_or,
      List.find?_singleton]
    by_cases h : d.number = n
    · simp [h]
    · simp [h, Ne.symm h]

/-- A name has the number that is declared last, and an alias that is nowhere a name the
one that is declared first. -/
theorem number?_ofDeclarations (ds : List Declaration) (name : String) :
    (ofDeclarations ds).number? name
      = ((ds.reverse.find? (·.name = name)).or (ds.find? (name ∈ ·.aliases))).map
          (·.number) := by
  induction ds using List.reverseRecOn with
  | nil => rfl
  | append_singleton ds d ih =>
    rw [ofDeclarations_concat, number?_declare, ih, List.reverse_concat, List.find?_cons,
      List.find?_append, List.find?_singleton]
    by_cases h : d.name = name
    · simp [h]
    · by_cases ha : name ∈ d.aliases
      · simp [h, Ne.symm h, ha]
      · simp [h, Ne.symm h, ha]

/-- The numbers of a registry are those that are declared, each once. -/
theorem numbers_ofDeclarations (ds : List Declaration) :
    (Assoc.keys (ofDeclarations ds).byNumber).Nodup
      ∧ ∀ n, n ∈ Assoc.keys (ofDeclarations ds).byNumber ↔ n ∈ ds.map (·.number) := by
  induction ds using List.reverseRecOn with
  | nil => exact ⟨List.nodup_nil, fun _ => Iff.rfl⟩
  | append_singleton ds d ih =>
    rw [ofDeclarations_concat]
    refine ⟨Assoc.nodup_keys_insertNew d.number d.name ih.1, fun n => ?_⟩
    rw [List.map_append, List.mem_append, List.map_singleton, List.mem_singleton, ← ih.2]
    exact Assoc.mem_keys_insertNew

theorem size_ofDeclarations (ds : List Declaration) :
    (ofDeclarations ds).size = (ds.map (·.number)).toFinset.card := by
  obtain ⟨hnodup, hmem⟩ := numbers_ofDeclarations ds
  have hsame : (ds.map (·.number)).toFinset
      = (Assoc.keys (ofDeclarations ds).byNumber).toFinset := by
    ext n
    rw [List.mem_toFinset, List.mem_toFinset, hmem]
  rw [hsame, List.toFinset_card_of_nodup hnodup, Assoc.keys, List.length_map, size]

/-- A line that nothing stands on declares nothing. -/
theorem declarations_eq (text : List Char) : declarations text =
    ((Text.lines text).filter fun line => (Declaration.ofLine? line).isSome).filterMap
      Declaration.ofLine? := by
  rw [declarations, List.filterMap_filter]
  congr 1
  funext line
  cases Declaration.ofLine? line with
  | none => rfl
  | some d => rfl

/-- **What a registry text declares.** A line counts if a declaration stands on it, and
then it is read as that declaration. A number has the name of the first line that declares
it. A name has the number of the last line that declares it; if there is none, of the
first line that has it among its aliases. There are as many entries as different numbers.
Texts with the same lines that count make the same registry, whatever other lines stand
between them. -/
theorem ofText_meaning (text : List Char) :
    (∀ line d, Declaration.ofLine? line = some d ↔ d.StandsOn line)
      ∧ (∀ n, (ofText text).name? n = ((declarations text).find? (·.number = n)).map (·.name))
      ∧ (∀ name, (ofText text).number? name
        = (((declarations text).reverse.find? (·.name = name)).or
          ((declarations text).find? (name ∈ ·.aliases))).map (·.number))
      ∧ (ofText text).size = ((declarations text).map (·.number)).toFinset.card
      ∧ ∀ other, ((Text.lines other).filter fun line => (Declaration.ofLine? line).isSome)
          = ((Text.lines text).filter fun line => (Declaration.ofLine? line).isSome) →
        ofText other = ofText text := by
  refine ⟨fun _ _ => Declaration.ofLine?_eq_some_iff, name?_ofDeclarations _,
    number?_ofDeclarations _, size_ofDeclarations _, fun other h => ?_⟩
  rw [ofText, ofText, declarations_eq, h, ← declarations_eq]

/-- A text whose lines get in each other's way. -/
def colliding : List Char :=
  ("ip\t0\tIP # any\nlate 200 sooner\nbroken line\nsooner +0201\n"
    ++ "# gre 1\nlate 202 gre\nearly 200\n").toList

/-- The same without the lines that declare nothing. -/
def tidied : List Char :=
  "ip\t0\tIP # any\nlate 200 sooner\nsooner +0201\nlate 202 gre\nearly 200\n".toList

theorem declarations_colliding :
    declarations colliding = [⟨"ip", 0, ["IP"]⟩, ⟨"late", 200, ["sooner"]⟩,
    ⟨"sooner", 201, []⟩, ⟨"late", 202, ["gre"]⟩, ⟨"early", 200, []⟩] := by cbv

theorem ofText_meaning_colliding :
    (ofText colliding).name? 200 = some "late" ∧ (ofText colliding).number? "late" = some 202
      ∧ (ofText colliding).number? "sooner" = some 201
      ∧ (ofText colliding).number? "gre" = some 202
      ∧ (ofText colliding).number? "broken" = none ∧ (ofText colliding).size = 4
      ∧ ofText tidied = ofText colliding := by
  obtain ⟨_, hname, hnumber, hsize, hother⟩ := ofText_meaning colliding
  rw [declarations_colliding] at hsize
  simp only [hname, hnumber, hsize, declarations_colliding]
  exact ⟨rfl, rfl, rfl, rfl, rfl, by decide, hother tidied (by cbv)⟩

end Registry

end Protocol

end PacketClassifier
