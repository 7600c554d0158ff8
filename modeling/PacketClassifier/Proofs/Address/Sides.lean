/-
The two sides of a network's text.

What is read as an address has no slash in it (`Address.slash_not_mem`), because no step
of the reading passes over one (`Address.Passes`). So the text of a network falls into its
two sides in one way only, and the address can be replaced by another of the same version,
where the length stays what it was (`Network.ofChars?_replace`).
-/
import PacketClassifier.Address.Text
import PacketClassifier.Proofs.Text.Pieces
import Mathlib.Data.List.Basic
import Mathlib.Data.List.TakeWhile

namespace PacketClassifier

namespace Address

/-! ### What an address is made of -/

/-- Whether a text goes on as the other behind a front without slashes. -/
def Passes (cs rest : List Char) : Prop := ∃ front, cs = front ++ rest ∧ '/' ∉ front

theorem Passes.refl (cs : List Char) : Passes cs cs := ⟨[], rfl, List.not_mem_nil⟩

theorem Passes.cons {c : Char} {cs rest : List Char} (hc : c ≠ '/') (h : Passes cs rest) :
    Passes (c :: cs) rest := by
  obtain ⟨front, rfl, hfront⟩ := h
  exact ⟨c :: front, rfl, List.not_mem_cons_of_ne_of_not_mem hc.symm hfront⟩

theorem Passes.trans {cs ds es : List Char} (h : Passes cs ds) (h' : Passes ds es) :
    Passes cs es := by
  obtain ⟨front, rfl, hfront⟩ := h
  obtain ⟨front', rfl, hfront'⟩ := h'
  refine ⟨front ++ front', (List.append_assoc _ _ _).symm, fun hmem => ?_⟩
  exact (List.mem_append.mp hmem).elim hfront hfront'

theorem passes_digitSpan {digit? : Char → Option Nat} (h : digit? '/' = none)
    (cs : List Char) :
    Passes cs (digitSpan digit? cs).2 := by
  refine ⟨(digitSpan digit? cs).1, List.takeWhile_append_dropWhile.symm, fun hmem => ?_⟩
  have hdigit : (digit? '/').isSome = true :=
    List.mem_takeWhile_imp (p := fun c => (digit? c).isSome) hmem
  rw [h] at hdigit
  cases hdigit

/-- Whether a reader passes over no slash. -/
def Bare (read : List Char → Option (Nat × List Char)) : Prop :=
  ∀ {cs rest : List Char} {n : Nat}, read cs = some (n, rest) → Passes cs rest

theorem bare_octet? : Bare octet? := by
  intro cs rest n h
  have hspan : Passes cs (digitSpan Numeral.digit? cs).2 := passes_digitSpan (by decide) cs
  rw [octet?] at h
  obtain ⟨-, h⟩ := Option.ite_none_left_eq_some.mp h
  obtain ⟨m, -, h⟩ := Option.bind_eq_some_iff.mp h
  obtain ⟨-, h⟩ := Option.ite_none_right_eq_some.mp h
  obtain ⟨-, rfl⟩ := Prod.mk.inj (Option.some.inj h)
  exact hspan

theorem bare_group? : Bare group? := by
  intro cs rest n h
  have hspan : Passes cs (digitSpan Numeral.hexDigit? cs).2 := passes_digitSpan (by decide) cs
  rw [group?] at h
  obtain ⟨-, h⟩ := Option.ite_none_left_eq_some.mp h
  obtain ⟨m, -, h⟩ := Option.map_eq_some_iff.mp h
  obtain ⟨-, rfl⟩ := Prod.mk.inj h
  exact hspan

theorem Bare.separated {item : List Char → Option (Nat × List Char)} (h : Bare item)
    {sep : Char} (hsep : sep ≠ '/') (first : Bool) : Bare (separated sep first item) := by
  intro cs rest n hread
  unfold Address.separated at hread
  split at hread
  · exact h hread
  split at hread
  · obtain ⟨hc, hread⟩ := Option.ite_none_right_eq_some.mp hread
    exact (h hread).cons (hc ▸ hsep)
  · cases hread

theorem bare_dotted? : Bare dotted? := by
  intro cs rest n h
  have hoctet : Bare (separated '.' false octet?) := bare_octet?.separated (by decide) false
  obtain ⟨⟨_, _⟩, ha, h⟩ := Option.bind_eq_some_iff.mp h
  obtain ⟨⟨_, _⟩, hb, h⟩ := Option.bind_eq_some_iff.mp h
  obtain ⟨⟨_, _⟩, hc, h⟩ := Option.bind_eq_some_iff.mp h
  obtain ⟨⟨_, _⟩, hd, h⟩ := Option.bind_eq_some_iff.mp h
  obtain ⟨-, rfl⟩ := Prod.mk.inj (Option.some.inj h)
  exact (bare_octet? ha).trans ((hoctet hb).trans ((hoctet hc).trans (hoctet hd)))

/-- Reading groups passes over no slash either. -/
theorem passes_groups? (limit : Nat) (first : Bool) (cs : List Char) :
    Passes cs (groups? limit first cs).2.2 := by
  induction limit generalizing first cs with
  | zero => exact .refl cs
  | succ limit ih =>
    rw [groups?]
    split
    · rename_i hdotted
      obtain ⟨-, hdotted⟩ := Option.ite_none_right_eq_some.mp hdotted
      exact bare_dotted?.separated (by decide) first hdotted
    split
    · rename_i hgroup
      exact (bare_group?.separated (by decide) first hgroup).trans (ih false _)
    · exact .refl cs

theorem bare_colons? : Bare colons? := by
  intro cs rest n h
  have hfront := passes_groups? 8 true cs
  rw [colons?] at h
  generalize groups? 8 true cs = front at h hfront
  obtain ⟨front, embedded, between⟩ := front
  simp only at h hfront
  split at h
  · obtain ⟨-, rfl⟩ := Prod.mk.inj (Option.some.inj h)
    exact hfront
  split at h
  · cases h
  split at h
  · obtain ⟨-, rfl⟩ := Prod.mk.inj (Option.some.inj h)
    exact hfront.trans (.cons (by decide) (.cons (by decide) (passes_groups? _ true _)))
  · cases h

theorem slash_not_mem_of_whole? {read : List Char → Option (Nat × List Char)}
    (hread : Bare read) {cs : List Char} {n : Nat} (h : whole? (read cs) = some n) :
    '/' ∉ cs := by
  obtain ⟨⟨m, rest⟩, hr, h⟩ := Option.bind_eq_some_iff.mp h
  obtain ⟨hempty, -⟩ := Option.ite_none_right_eq_some.mp h
  obtain ⟨front, rfl, hfront⟩ := hread hr
  rw [List.isEmpty_iff.mp hempty, List.append_nil]
  exact hfront

theorem ofChars?_eq_v4_iff {cs : List Char} {bits : BitVec 32} :
    ofChars? cs = some (v4 bits) ↔ v4? cs = some bits := by
  rw [ofChars?]
  cases v4? cs with
  | some b => simp
  | none => simp

theorem ofChars?_eq_v6_iff {cs : List Char} {bits : BitVec 128} :
    ofChars? cs = some (v6 bits) ↔ v4? cs = none ∧ v6? cs = some bits := by
  rw [ofChars?]
  cases v4? cs with
  | some b => simp
  | none => simp

/-- No text of an address has a slash in it. -/
theorem slash_not_mem {cs : List Char} {a : Address} (h : ofChars? cs = some a) :
    '/' ∉ cs := by
  cases a with
  | v4 bits =>
    obtain ⟨n, hn, -⟩ := Option.map_eq_some_iff.mp (ofChars?_eq_v4_iff.mp h)
    exact slash_not_mem_of_whole? bare_dotted? hn
  | v6 bits =>
    obtain ⟨n, hn, -⟩ := Option.map_eq_some_iff.mp (ofChars?_eq_v6_iff.mp h).2
    exact slash_not_mem_of_whole? bare_colons? hn

end Address

namespace Network

/-! ### Another address with the same length -/

theorem sides?_of_not_mem {address length : List Char} (ha : '/' ∉ address)
    (hl : '/' ∉ length) :
    sides? (address ++ '/' :: length) = some (address, some length) := by
  rw [sides?, Text.splitOn_append_cons, Text.splitOn_of_not_mem ha,
    Text.splitOn_of_not_mem hl]
  rfl

/-- A text that is read as a network has one slash at most. -/
theorem slash_not_mem_of_sides? {address length : List Char}
    {sides : List Char × Option (List Char)}
    (h : sides? (address ++ '/' :: length) = some sides) : '/' ∉ address ∧ '/' ∉ length := by
  have hle : (Text.splitOn '/' address ++ Text.splitOn '/' length).length ≤ 2 := by
    rw [sides?, Text.splitOn_append_cons] at h
    split at h
    · rename_i hpieces
      rw [hpieces, List.length_singleton]
      decide
    · rename_i hpieces
      rw [hpieces]
      exact Nat.le_refl 2
    · cases h
  rw [List.length_append] at hle
  have haddress := List.length_pos_iff.mpr (Text.splitOn_ne_nil '/' address)
  have hlength := List.length_pos_iff.mpr (Text.splitOn_ne_nil '/' length)
  constructor
  · intro hmem
    have := Text.length_splitOn_of_mem hmem
    omega
  · intro hmem
    have := Text.length_splitOn_of_mem hmem
    omega

/-- The address in a text for a network can be replaced by another of the same version. -/
theorem ofChars?_replace {address other length : List Char} {n : Network} {a : Address}
    (hn : ofChars? (address ++ '/' :: length) = some n) (ha : Address.ofChars? other = some a)
    (hw : a.width = n.address.width) :
    ofChars? (other ++ '/' :: length) = some ⟨a, n.length⟩ := by
  obtain ⟨sides, hsides, -⟩ := Option.bind_eq_some_iff.mp hn
  obtain ⟨haddress, hlength⟩ := slash_not_mem_of_sides? hsides
  rw [ofChars?, sides?_of_not_mem haddress hlength] at hn
  rw [ofChars?, sides?_of_not_mem (Address.slash_not_mem ha) hlength]
  simp only [Option.bind_eq_bind, Option.bind_some] at hn ⊢
  split at hn
  · -- The older version.
    obtain ⟨m, hm, hn⟩ := Option.bind_eq_some_iff.mp hn
    obtain rfl := Option.some.inj hn
    cases a with
    | v4 bits =>
      rw [Address.ofChars?_eq_v4_iff.mp ha]
      simp only [hm, Option.bind_some]
      rfl
    | v6 bits => exact absurd hw (show ¬ 128 = 32 by omega)
  · obtain ⟨bits, -, hn⟩ := Option.bind_eq_some_iff.mp hn
    obtain ⟨m, hm, hn⟩ := Option.bind_eq_some_iff.mp hn
    obtain rfl := Option.some.inj hn
    cases a with
    | v4 bits' => exact absurd hw (show ¬ 32 = 128 by omega)
    | v6 bits' =>
      obtain ⟨hv4, hv6⟩ := Address.ofChars?_eq_v6_iff.mp ha
      rw [hv4, hv6]
      simp only [hm, Option.bind_some]
      rfl

end Network

end PacketClassifier
