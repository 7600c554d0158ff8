/-
Numbers in groups of seven bits, in every spelling.

All bytes of a number but the last say that it goes on. Groups of zeros at its end do not
change it, so a number has several spellings (`Varint.Spells`), of which `Varint.encode`
writes the shortest. A reader takes all those that fit ten bytes (`Varint.Valid.decode?`),
and a spelling that is cut off is refused (`Varint.Spells.decode?_take`).
-/
import Mathlib
import PacketClassifier.Proofs.Text.Utf8
import PacketClassifier.Wire.Field

namespace PacketClassifier

namespace Varint

/-- Whether bytes spell a number, the least significant group first. -/
inductive Spells : Bytes → Nat → Prop where
  | last {b : UInt8} : b.toNat < 128 → Spells [b] b.toNat
  | more {b : UInt8} {bs : Bytes} {n : Nat} :
      128 ≤ b.toNat → Spells bs n → Spells (b :: bs) (b.toNat % 128 + 128 * n)

theorem spells_encode (n : Nat) : Spells (encode n) n := by
  induction n using Nat.strongRecOn with
  | ind n ih =>
    by_cases h : n < 128
    · have hb : (n.toUInt8).toNat = n := Utf8.toNat_toUInt8 (by omega)
      have hlast : Spells [n.toUInt8] (n.toUInt8).toNat := .last (by omega)
      rw [encode, if_pos h]
      rwa [hb] at hlast
    · have hb : ((n % 128 + 128).toUInt8).toNat = n % 128 + 128 :=
        Utf8.toNat_toUInt8 (by omega)
      have hmore := Spells.more (b := (n % 128 + 128).toUInt8) (by omega)
        (ih (n / 128) (by omega))
      have hn : (n % 128 + 128) % 128 + 128 * (n / 128) = n := by omega
      rw [encode, if_neg h]
      rwa [hb, hn] at hmore

theorem Spells.ne_nil {bs : Bytes} {n : Nat} (h : Spells bs n) : bs ≠ [] := by
  cases h <;> exact List.cons_ne_nil _ _

theorem encode_ne_nil (n : Nat) : encode n ≠ [] := (spells_encode n).ne_nil

/-! ### Reading a spelling -/

/-- A number below the bound of the bytes that are left is read to its end. With one byte
left, the bound is the two values that the tenth byte may have. -/
theorem Spells.decodeFrom {bs : Bytes} {n : Nat} (h : Spells bs n) (rest : Bytes) :
    ∀ left scale acc, bs.length ≤ left + 1 → n < 2 * 128 ^ left →
      Varint.decodeFrom (left + 1) scale acc (bs ++ rest) = some (acc + scale * n, rest) := by
  induction h with
  | @last b hb =>
    intro left scale acc _ hn
    have hm : b.toNat % 128 = b.toNat := Nat.mod_eq_of_lt hb
    have hbound : ¬ (left = 0 ∧ 1 < b.toNat) := by
      rintro ⟨rfl, h⟩
      omega
    rw [List.singleton_append, Varint.decodeFrom]
    simp only [hm]
    rw [if_pos hb, if_neg hbound]
  | @more b bs n hb hs ih =>
    intro left scale acc hl hn
    have hpos : 0 < bs.length := List.length_pos_iff.mpr hs.ne_nil
    rw [List.length_cons] at hl
    obtain ⟨left, rfl⟩ : ∃ l, left = l + 1 := ⟨left - 1, by omega⟩
    have hlt : n < 2 * 128 ^ left := by
      rw [Nat.pow_succ] at hn
      omega
    rw [List.cons_append, Varint.decodeFrom]
    -- The seven low bits are read here and the rest at a scale that is 128 times as large.
    rw [if_neg (by omega), ih left (scale * 128) _ (by omega) hlt, Nat.mul_assoc,
      Nat.add_assoc, ← Nat.mul_add]

/-- Whether bytes spell a number of 64 bits, in ten bytes at most. -/
structure Valid (bs : Bytes) (n : Nat) : Prop where
  spells : Spells bs n
  length_le : bs.length ≤ 10
  lt : n < 2 ^ 64

theorem Valid.decode? {bs : Bytes} {n : Nat} (h : Valid bs n) (rest : Bytes) :
    Varint.decode? (bs ++ rest) = some (n, rest) := by
  have hlt := h.lt
  rw [Varint.decode?, h.spells.decodeFrom rest 9 1 0 h.length_le (by omega), Nat.one_mul,
    Nat.zero_add]

theorem length_encode_le (left : Nat) :
    ∀ n, n < 2 * 128 ^ left → (encode n).length ≤ left + 1 := by
  induction left with
  | zero =>
    intro n hn
    rw [encode, if_pos (by omega)]
    exact Nat.le_refl _
  | succ left ih =>
    intro n hn
    by_cases h : n < 128
    · rw [encode, if_pos h]
      exact Nat.le_add_left _ _
    · rw [Nat.pow_succ] at hn
      have hd := ih (n / 128) (by omega)
      rw [encode, if_neg h, List.length_cons]
      omega

theorem valid_encode {n : Nat} (h : n < 2 ^ 64) : Valid (encode n) n :=
  ⟨spells_encode n, length_encode_le 9 n (by omega), h⟩

/-! ### Spellings that are cut off -/

/-- Bytes that all say that the number goes on are refused. -/
theorem decodeFrom_eq_none {bs : Bytes} (h : ∀ b ∈ bs, 128 ≤ b.toNat) (left scale acc : Nat) :
    decodeFrom left scale acc bs = none := by
  induction bs generalizing left scale acc with
  | nil => rw [decodeFrom]
  | cons b bs ih =>
    obtain ⟨hb, hbs⟩ := List.forall_mem_cons.mp h
    cases left with
    | zero => rw [decodeFrom]
    | succ left =>
      rw [decodeFrom]
      rw [if_neg (by omega)]
      exact ih hbs _ _ _

/-- All bytes of a spelling but the last say that the number goes on. -/
theorem Spells.goes_on {bs : Bytes} {n : Nat} (h : Spells bs n) {j : Nat}
    (hj : j < bs.length) :
    ∀ b ∈ bs.take j, 128 ≤ b.toNat := by
  induction h generalizing j with
  | last _ =>
    obtain rfl : j = 0 := by simpa using hj
    exact fun b hb => absurd hb List.not_mem_nil
  | more hb _ ih =>
    cases j with
    | zero => exact fun b hb => absurd hb List.not_mem_nil
    | succ j =>
      rw [List.take_succ_cons]
      exact List.forall_mem_cons.mpr ⟨hb, ih (Nat.lt_of_succ_lt_succ hj)⟩

theorem Spells.decode?_take {bs : Bytes} {n : Nat} (h : Spells bs n) {j : Nat}
    (hj : j < bs.length) :
    Varint.decode? (bs.take j) = none :=
  decodeFrom_eq_none (h.goes_on hj) 10 1 0

end Varint

end PacketClassifier
