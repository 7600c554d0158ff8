/-
Spellings of one match.

A match can be written in several ways. A number may be an integer or a string with any
zeros in front (`Spelling.Number`), a port or a message type may stand alone or at the
head of a list (`Spelling.Item`), the bits of a network behind its length do not count
(`Spelling.Prefix`), and a code that means every code may be left out
(`Spelling.Message`). Two matches are respelled (`Match.Respelled`) if they differ in such
things only, at any places.

* `Spelling.looksAlike_of_respelled`: spellings of one value look alike.
* `Match.entries_respelled`: so they compile to the same entries.
-/
import Mathlib
import PacketClassifier.Proofs.Address.Network
import PacketClassifier.Proofs.Address.Sides
import PacketClassifier.Proofs.Match.Walk
import PacketClassifier.Proofs.Text.Numeral

namespace PacketClassifier

namespace Match

open Json (Members)
open Steps (Alike)

namespace Spelling

/-! ### Spellings -/

/-- A number as an integer, or as its decimal numeral with any zeros in front. -/
inductive Number : Json → Json → Prop where
  | same (j : Json) : Number j j
  | numeral (zeros n : Nat) {s : String}
      (hs : s.toList = List.replicate zeros '0' ++ Numeral.decimal n) :
    Number (.int n) (.str s)

/-- A value or a list of which only the first item counts. The value that takes the place
of a list is no list. -/
inductive Item (R : Json → Json → Prop) : Json → Json → Prop where
  | same (j : Json) : Item R j j
  | value {i j : Json} (h : R i j) (hi : ∀ xs, i ≠ .arr xs) (hj : ∀ xs, j ≠ .arr xs) :
      Item R i j
  | list {i j : Json} (h : R i j) (xs ys : List Json) :
      Item R (.arr (i :: xs)) (.arr (j :: ys))
  | alone {i j : Json} (h : R i j) (xs : List Json) (hj : ∀ ys, j ≠ .arr ys) :
      Item R (.arr (i :: xs)) j

/-- The text of a network, in which another address of its version may stand if the bits
that count are the same. -/
inductive Prefix : Json → Json → Prop where
  | same (j : Json) : Prefix j j
  | address (address other length : List Char) {s t : String} {n : Network} {a : Address}
      (hs : s.toList = address ++ '/' :: length) (ht : t.toList = other ++ '/' :: length)
      (hn : Network.ofText? s = some n) (ha : Address.ofChars? other = some a)
      (hw : a.width = n.address.width)
      (hbits : ∀ i < n.length.toNat, a.bit i = n.address.bit i) : Prefix (.str s) (.str t)

/-- Values that are respelled under some of the keys and the same under the others. -/
def Under (p : String → Bool) (R : Json → Json → Prop) (key : String) : Json → Json → Prop :=
  if p key then R else Eq

/-- Objects whose values are respelled, as their keys allow. -/
inductive Object (V : String → Json → Json → Prop) : Json → Json → Prop where
  | same (j : Json) : Object V j j
  | members {ms ns : Members} (h : Members.Parallel V ms ns) : Object V (.obj ms) (.obj ns)

/-- The numbers of a message type; a code that means every code may be left out. -/
inductive Message : Json → Json → Prop where
  | numbers {i j : Json}
      (h : Object (Under (["type-number", "code"].contains ·) Number) i j) : Message i j
  | withoutCode {ms ns : Members} {code : Json} (hcode : Members.get? ms "code" = some code)
    (hall : word? code = some Icmp.everyCode)
    (h : Members.Parallel (Under (["type-number", "code"].contains ·) Number) ms ns) :
    Message (.obj ms) (.obj (ns.filter fun m => m.1 != "code"))

/-- Addresses under the names of the two versions, ports elsewhere. -/
def Field (field : String) : Json → Json → Prop :=
  if field = "ipv4" ∨ field = "ipv6" then Object (Under (· != "host") Prefix)
  else Object fun _ => Item Number

end Spelling

open Spelling

/-- Whether the values of a kind are spellings of the same thing. -/
def Kind.Respelled : Kind → Json → Json → Prop
  | destination | source => Object Field
  | protocol => Object fun _ => Object (Under (· == "number") Number)
  | dscp => Object (Under (· != "name") Number)
  | icmp | icmpv6 => Object (Under (· == "type") (Item Message))
  | ttl => Object (Under (· == "equals") Number)
  | fragment => Eq

/-- Whether two matches differ in how their values are spelled, if at all. -/
def Respelled : Members → Members → Prop :=
  Members.Parallel fun key =>
    match Kind.ofName? key with
    | some kind => kind.Respelled
    | none => Eq

namespace Spelling

/-! ### Plain values -/

theorem word?_eq {i j : Json} (h : Number i j) : word? i = word? j := by
  cases h with
  | same => rfl
  | numeral zeros n hs =>
    have hle : (0 ≤ (n : Int) ∧ (n : Int) ≤ Numeral.max32) ↔ n ≤ Numeral.max32 := by omega
    rw [word?, word?, Numeral.word?_padded hs, if_congr hle rfl rfl]
    rfl

theorem words_of_number {i j : Json} (h : Number i j) : Words i j := by
  rw [Words, word, word, word?_eq h]
  cases word? j with
  | some n => exact .ok rfl
  | none => exact .error trivial

theorem first?_of_not_list {j : Json} (h : ∀ xs, j ≠ .arr xs) : first? j = some j := by
  cases j with
  | arr xs => exact absurd rfl (h xs)
  | null | bool _ | int _ | real _ | str _ | obj _ => rfl

theorem firsts_of_item {R S : Json → Json → Prop} (hrefl : ∀ j, S j j)
    (hRS : ∀ i j, R i j → S i j) {i j : Json} (h : Item R i j) : Firsts S i j := by
  rw [Firsts]
  cases h with
  | same => exact rel_refl hrefl (first? i)
  | value h hi hj =>
    rw [first?_of_not_list hi, first?_of_not_list hj]
    exact .some (hRS _ _ h)
  | list h xs ys => exact .some (hRS _ _ h)
  | alone h xs hj =>
    rw [first?_of_not_list hj]
    exact .some (hRS _ _ h)

/-- Networks of one length whose leading bits agree are compiled alike. -/
theorem locations_of_prefix {key : String} {i j : Json}
    (h : Under (· != "host") Prefix key i j) :
    Locations key i j := by
  have hrefl : ∀ j, Locations key j j :=
    fun _ => locations_of_strings key (.refl (fun _ => rfl) _)
  by_cases hkey : key = "host"
  · rw [Under, if_neg (by simpa using hkey)] at h
    exact h ▸ hrefl i
  · rw [Under, if_pos (by simpa using hkey)] at h
    cases h with
    | same => exact hrefl i
    | @address _ _ _ s t n a hs ht hn ha hw hbits =>
      have hother : Network.ofText? t = some ⟨a, n.length⟩ := by
        rw [Network.ofText?, hs] at hn
        rw [Network.ofText?, ht]
        exact Network.ofChars?_replace hn ha hw
      simp only [Locations, location, string, Steps.ok_bind, hn, hother, if_neg hkey]
      refine .ok ?_
      show n.masked = Network.masked ⟨a, n.length⟩
      rw [Network.masked, Network.masked, (Address.mask_eq_mask_iff hw).mpr hbits]

/-! ### Objects -/

theorem Under.refl {p : String → Bool} {R : Json → Json → Prop} (h : ∀ j, R j j)
    (key : String) (j : Json) :
    Under p R key j j := by
  rw [Under]
  split
  · exact h j
  · rfl

theorem Under.elim {p : String → Bool} {R : Json → Json → Prop} (hrefl : ∀ j, R j j)
    {key : String} {i j : Json} (h : Under p R key i j) : R i j := by
  rw [Under] at h
  split at h
  · exact h
  · exact h ▸ hrefl i

/-- Objects whose values are respelled are walked alike, if their values are looked at
alike. -/
theorem Object.opens {V W : String → Json → Json → Prop} (hrefl : ∀ key j, V key j j)
    (hVW : ∀ key i j, V key i j → W key i j) {i j : Json} (h : Object V i j) :
    Opens W i j := by
  cases h with
  | same =>
    have hself : ∀ ms : Members, Aligned W ms ms := fun ms =>
      .of_parallel (Members.Parallel.refl (fun key j => hVW key j j (hrefl key j)) ms)
    exact Alike.refl hself _
  | members h => exact .ok (.of_parallel (h.imp fun _ _ hm => ⟨hm.1, hVW _ _ _ hm.2⟩))

theorem strings_refl (j : Json) : Strings j j := .refl (fun _ => rfl) _

/-- What stands under a key where nothing is respelled is the same. -/
theorem Under.eq {p : String → Bool} {R : Json → Json → Prop} {key : String} {i j : Json}
    (h : Under p R key i j) (hkey : p key = false) : i = j := by
  rwa [Under, if_neg (by rw [hkey]; exact Bool.false_ne_true)] at h

theorem Under.words {p : String → Bool} {key : String} {i j : Json}
    (h : Under p Number key i j) :
    Words i j := words_of_number (h.elim Number.same)

/-- A code that means every code is as good as none. -/
theorem messages_of_message {i j : Json} (h : Message i j) : Messages i j := by
  cases h with
  | numbers h =>
    have hvalues : ∀ key i j, Under (["type-number", "code"].contains ·) Number key i j →
        messageValues key i j := fun _ _ _ hij _ => hij.words
    exact messages_of_opens (h.opens (Under.refl Number.same) hvalues)
  | @withoutCode ms ns code hcode hall h =>
    have htype : Members.get? (ns.filter fun m => m.1 != "code") "type-number"
        = Members.get? ns "type-number" := Assoc.lookup_filter_of_ne (by decide) ns
    have hnone : Members.get? (ns.filter fun m => m.1 != "code") "code" = none :=
      Assoc.lookup_filter_self "code" ns
    have hread : optional word (some code) = .ok (some Icmp.everyCode) := by
      rw [optional, word, hall]
      rfl
    simp only [Messages, icmpType, members, Steps.ok_bind, htype, hnone, hcode, hread]
    refine (alike_optional_word
      (rel_imp (h.get? "type-number") fun _ _ hij => hij.words)).bind ?_
    rintro type _ rfl
    exact .ok fun family => rfl

/-- Spellings of one value look alike. -/
theorem looksAlike_of_respelled {kind : Kind} {i j : Json} (h : kind.Respelled i j) :
    kind.LooksAlike i j := by
  have hfield : ∀ field i j, Field field i j → fieldValues field i j := by
    intro field i j hij
    rw [Field] at hij
    rw [fieldValues]
    split
    · next hkey =>
      rw [if_pos hkey] at hij
      exact hij.opens (Under.refl Prefix.same) fun _ _ _ => locations_of_prefix
    · next hkey =>
      rw [if_neg hkey] at hij
      have hwords : ∀ j, Words j j := fun j => words_of_number (.same j)
      exact hij.opens (fun _ => Item.same) fun _ _ _ =>
        firsts_of_item hwords fun _ _ => words_of_number
  have hfields : ∀ field j, Field field j j := by
    intro field j
    rw [Field]
    split
    · exact .same j
    · exact .same j
  have hselector : ∀ key i j, Under (· == "type") (Item Message) key i j →
      selectorValues key i j := by
    intro key i j hij
    refine ⟨fun hkey => ?_, fun hkey => ?_⟩
    · have hother : (key == "type") = false := by
        rcases hkey with rfl | rfl <;> rfl
      exact hij.eq hother ▸ strings_refl i
    · have hmessages : ∀ j, Messages j j := fun j => messages_of_message (.numbers (.same j))
      exact firsts_of_item hmessages (fun _ _ => messages_of_message) (hij.elim Item.same)
  cases kind with
  | destination | source => exact Object.opens hfields hfield h
  | protocol =>
    refine Object.opens (fun _ => Object.same) (fun _ i j hij => ?_) h
    refine Object.opens (Under.refl Number.same)
      (fun key i j hij => ⟨fun hkey => ?_, fun _ => hij.words⟩) hij
    exact hij.eq (by rw [hkey]; rfl) ▸ strings_refl i
  | dscp =>
    refine Object.opens (Under.refl Number.same)
      (fun key i j hij => ⟨fun hkey => ?_, hij.words⟩) h
    exact hij.eq (by rw [hkey]; rfl) ▸ strings_refl i
  | fragment => exact Eq.subst (motive := Strings i) h (strings_refl i)
  | icmp | icmpv6 => exact Object.opens (Under.refl Item.same) hselector h
  | ttl =>
    have hvalues : ∀ key i j, Under (· == "equals") Number key i j → ttlValues key i j :=
      fun _ _ _ hij _ => hij.words
    exact Object.opens (Under.refl Number.same) hvalues h

theorem alike_entries {ms ns : Members} (h : Respelled ms ns) :
    Alike Eq (entries ms) (entries ns) := by
  have hread : Alike (List.Forall₂ Predicate.Same) (read ms) (read ns) := by
    refine alike_read (h.imp fun m n hm => ⟨hm.1, fun kind hk => ?_⟩)
    have hvalue := hm.2
    simp only [hk] at hvalue
    exact looksAlike_of_respelled hvalue
  rw [entries, entries, predicates, predicates]
  generalize read ms = x, read ns = y at hread ⊢
  cases hread with
  | error _ => exact .error trivial
  | ok hps => exact .ok (entries_sort_eq hps)

end Spelling

/-- **Spelling does not matter.** Matches that differ in how their values are spelled, at
any places, compile to the same entries, and one of them fails exactly if the other does.
-/
theorem entries_respelled {ms ns : Members} (h : Respelled ms ns) :
    (∀ es, entries ms = .ok es ↔ entries ns = .ok es)
      ∧ ((∃ fault, entries ms = .error fault) ↔ ∃ fault, entries ns = .error fault) :=
  ⟨(Spelling.alike_entries h).eq_ok_iff, (Spelling.alike_entries h).exists_error_iff⟩

/-- A match with numbers, lists, a network with bits behind its length, and a code that
means every code. -/
def longhand : Members :=
  [("ttl", .obj [("equals", .int 64)]),
    ("icmp", .obj [("type", .arr [.obj [("type-number", .int 3), ("code", .int 256)]])]),
    ("source", .obj [("ipv4", .obj [("prefix", .str "10.1.2.3/16")]),
      ("port", .obj [("list", .arr [.int 80, .int 81])])])]

/-- The same match with strings for the numbers, without the lists, with another network
and without the code. -/
def shorthand : Members :=
  [("ttl", .obj [("equals", .str "0064")]),
    ("icmp", .obj [("type", .obj [("type-number", .str "3")])]),
    ("source", .obj [("ipv4", .obj [("prefix", .str "10.1.0.0/16")]),
      ("port", .obj [("list", .str "080")])])]

theorem entries_respelled_shorthand :
    Respelled longhand shorthand
      ∧ entries longhand = .ok [.icmpV4 ⟨3, none⟩, .sourceNetwork ⟨.v4 0x0A010000, 16⟩,
          .sourcePort 80, .ttl 64]
      ∧ entries shorthand = .ok [.icmpV4 ⟨3, none⟩, .sourceNetwork ⟨.v4 0x0A010000, 16⟩,
          .sourcePort 80, .ttl 64] := by
  have httl : Kind.ttl.Respelled (.obj [("equals", .int 64)])
      (.obj [("equals", .str "0064")]) :=
    .members (.cons ⟨rfl, Number.numeral 2 64 (by cbv)⟩ .nil)
  have htype : Message (.obj [("type-number", .int 3), ("code", .int 256)])
      (.obj [("type-number", .str "3")]) :=
    @Message.withoutCode [("type-number", .int 3), ("code", .int 256)]
      [("type-number", .str "3"), ("code", .int 256)]
      (.int 256) rfl (by decide)
        (.cons ⟨rfl, Number.numeral 0 3 (by cbv)⟩ (.cons ⟨rfl, Number.same _⟩ .nil))
  have hicmp : Kind.icmp.Respelled
      (.obj [("type", .arr [.obj [("type-number", .int 3), ("code", .int 256)]])])
        (.obj [("type", .obj [("type-number", .str "3")])]) :=
    .members (.cons ⟨rfl, Item.alone htype [] (by simp)⟩ .nil)
  have hold : Network.ofText? "10.1.2.3/16" = some ⟨.v4 0x0A010203, 16⟩ := by decide
  have hnew : Address.ofChars? "10.1.0.0".toList = some (.v4 0x0A010000) := by decide
  have hprefix : Prefix (.str "10.1.2.3/16") (.str "10.1.0.0/16") :=
    .address "10.1.2.3".toList "10.1.0.0".toList "16".toList (by decide)
      (by decide) hold hnew rfl (by decide)
  have hport : Item Number (.arr [.int 80, .int 81]) (.str "080") :=
    .alone (Number.numeral 1 80 (by cbv)) [.int 81] (by simp)
  have hsource : Kind.source.Respelled
      (.obj [("ipv4", .obj [("prefix", .str "10.1.2.3/16")]),
        ("port", .obj [("list", .arr [.int 80, .int 81])])])
      (.obj [("ipv4", .obj [("prefix", .str "10.1.0.0/16")]),
        ("port", .obj [("list", .str "080")])]) :=
    .members (.cons ⟨rfl, Object.members (.cons ⟨rfl, hprefix⟩ .nil)⟩
      (.cons ⟨rfl, Object.members (.cons ⟨rfl, hport⟩ .nil)⟩ .nil))
  have hlong : entries longhand
      = .ok [.icmpV4 ⟨3, none⟩, .sourceNetwork ⟨.v4 0x0A010000, 16⟩, .sourcePort 80,
          .ttl 64] := by cbv
  have hrespelled : Respelled longhand shorthand :=
    .cons ⟨rfl, httl⟩ (.cons ⟨rfl, hicmp⟩ (.cons ⟨rfl, hsource⟩ .nil))
  exact ⟨hrespelled, hlong, ((entries_respelled hrespelled).1 _).mp hlong⟩

end Match

end PacketClassifier
