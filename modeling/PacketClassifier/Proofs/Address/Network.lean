/-
Networks and their bits.

`Address.bit` counts the bits of an address from the front. Masking keeps the leading bits
and clears the others (`Address.bit_mask`), so two addresses of one version are masked
alike exactly if their leading bits agree (`Address.mask_eq_mask_iff`). A network is
canonical if its length fits its address and no bit behind the length is set, so that
masking changes nothing (`Network.canonical_iff`); such are the networks that are compiled
(`Network.canonical_host`, `Network.canonical_masked`), because no text gives a length
that does not fit (`Network.length_le_of_ofText?`).
-/
import PacketClassifier.Address.Text
import PacketClassifier.Proofs.Text.Utf8

namespace PacketClassifier

namespace Address

/-- The bits of an address from the front; there are none behind its width. -/
def bit : Address → Nat → Bool
  | v4 bits, i => bits.getMsbD i
  | v6 bits, i => bits.getMsbD i

/-- A shift to the right and back keeps the leading bits only. -/
theorem getMsbD_shift {width : Nat} (bits : BitVec width) (length i : Nat) :
    ((bits >>> (width - length)) <<< (width - length)).getMsbD i
      = (decide (i < length) && bits.getMsbD i) := by
  rw [BitVec.getMsbD_shiftLeft, BitVec.getMsbD_ushiftRight, Nat.add_sub_cancel]
  by_cases hi : i < width
  · have hlt : i + (width - length) < width ↔ i < length := by omega
    have hge : ¬ i + (width - length) < width - length := by omega
    rw [decide_eq_false hge, decide_eq_decide.mpr hlt, Bool.not_false, Bool.true_and]
  · rw [BitVec.getMsbD_of_ge _ _ (by omega), Bool.and_false, Bool.and_false, Bool.and_false]

theorem bit_mask (a : Address) (length i : Nat) :
    (a.mask length).bit i = (decide (i < length) && a.bit i) := by
  cases a with
  | v4 bits => exact getMsbD_shift bits length i
  | v6 bits => exact getMsbD_shift bits length i

theorem bit_of_width_le {a : Address} {i : Nat} (h : a.width ≤ i) : a.bit i = false := by
  cases a with
  | v4 bits => exact BitVec.getMsbD_of_ge bits i h
  | v6 bits => exact BitVec.getMsbD_of_ge bits i h

@[simp]
theorem width_mask (a : Address) (length : Nat) : (a.mask length).width = a.width := by
  cases a with
  | v4 bits => rfl
  | v6 bits => rfl

/-- Addresses of one version are the same if their bits are. -/
theorem eq_of_bit_eq {a b : Address} (hw : a.width = b.width) (h : ∀ i, a.bit i = b.bit i) :
    a = b := by
  cases a with
  | v4 bits =>
    cases b with
    | v4 bits' => exact congrArg v4 (BitVec.eq_of_getMsbD_eq fun i _ => h i)
    | v6 bits' => exact absurd hw (show ¬ 32 = 128 by omega)
  | v6 bits =>
    cases b with
    | v4 bits' => exact absurd hw (show ¬ 128 = 32 by omega)
    | v6 bits' => exact congrArg v6 (BitVec.eq_of_getMsbD_eq fun i _ => h i)

/-- Addresses of one version are masked alike exactly if their leading bits agree. -/
theorem mask_eq_mask_iff {a b : Address} (hw : a.width = b.width) {length : Nat} :
    a.mask length = b.mask length ↔ ∀ i < length, a.bit i = b.bit i := by
  constructor
  · intro h i hi
    have hbit := congrArg (fun c => c.bit i) h
    simpa only [bit_mask, decide_eq_true hi, Bool.true_and] using hbit
  · intro h
    refine eq_of_bit_eq (by rw [width_mask, width_mask, hw]) fun i => ?_
    rw [bit_mask, bit_mask]
    by_cases hi : i < length
    · rw [h i hi]
    · rw [decide_eq_false hi, Bool.false_and, Bool.false_and]

end Address

namespace Network

/-- Whether the length of a network fits its address and no bit behind it is set. -/
structure Canonical (n : Network) : Prop where
  length_le : n.length.toNat ≤ n.address.width
  clear : ∀ i, n.length.toNat ≤ i → n.address.bit i = false

theorem toNat_length_host (a : Address) : (host a).length.toNat = a.width := by
  cases a with
  | v4 bits => rfl
  | v6 bits => rfl

theorem canonical_host (a : Address) : (host a).Canonical := by
  constructor
  · exact Nat.le_of_eq (toNat_length_host a)
  · intro i hi
    rw [toNat_length_host] at hi
    exact Address.bit_of_width_le hi

theorem canonical_masked {n : Network} (h : n.length.toNat ≤ n.address.width) :
    n.masked.Canonical := by
  constructor
  · rw [masked, Address.width_mask]
    exact h
  · intro i hi
    have hi : ¬ i < n.length.toNat := Nat.not_lt.mpr hi
    rw [masked, Address.bit_mask, decide_eq_false hi, Bool.false_and]

/-- Masking changes nothing where no bit is set behind the length. -/
theorem masked_of_canonical {n : Network} (h : n.Canonical) : n.masked = n := by
  have haddress : n.address.mask n.length.toNat = n.address := by
    refine Address.eq_of_bit_eq (Address.width_mask _ _) fun i => ?_
    rw [Address.bit_mask]
    by_cases hi : i < n.length.toNat
    · rw [decide_eq_true hi, Bool.true_and]
    · rw [decide_eq_false hi, Bool.false_and, h.clear i (Nat.le_of_not_lt hi)]
  rw [masked, haddress]

theorem canonical_iff {n : Network} :
    n.Canonical ↔ n.length.toNat ≤ n.address.width ∧ n.masked = n := by
  constructor
  · exact fun h => ⟨h.length_le, masked_of_canonical h⟩
  · rintro ⟨hlength, hmasked⟩
    rw [← hmasked]
    exact canonical_masked hlength

instance (n : Network) : Decidable n.Canonical := decidable_of_iff' _ canonical_iff

/-! ### Lengths of networks in texts -/

theorem length?_le {bound n : Nat} {cs : List Char} (h : length? bound cs = some n) :
    n ≤ bound := by
  rw [length?, Numeral.unsigned?, Option.filter_eq_some_iff] at h
  exact of_decide_eq_true h.2

theorem maskLength?_le {mask : BitVec 32} {n : Nat} (h : maskLength? mask = some n) :
    n ≤ 32 := by
  have hmem := List.mem_of_find?_eq_some h
  rw [List.mem_range] at hmem
  omega

/-- No text gives a length that does not fit the address. -/
theorem length_le_of_ofText? {s : String} {n : Network} (h : ofText? s = some n) :
    n.length.toNat ≤ n.address.width := by
  rw [ofText?, ofChars?] at h
  obtain ⟨⟨address, length⟩, -, h⟩ := Option.bind_eq_some_iff.mp h
  simp only at h
  split at h
  · -- The older version, with a number or a mask for the length.
    split at h
    · obtain rfl := Option.some.inj h
      exact Nat.le_refl 32
    · obtain ⟨m, hm, h⟩ := Option.bind_eq_some_iff.mp h
      obtain rfl := Option.some.inj h
      have hle : m ≤ 32 := by
        rcases Option.or_eq_some_iff.mp hm with hm | ⟨-, hm⟩
        · exact length?_le hm
        · obtain ⟨mask, -, hmask⟩ := Option.bind_eq_some_iff.mp hm
          exact maskLength?_le hmask
      show m.toUInt8.toNat ≤ 32
      rw [Utf8.toNat_toUInt8 (by omega)]
      exact hle
  · obtain ⟨bits, -, h⟩ := Option.bind_eq_some_iff.mp h
    split at h
    · obtain rfl := Option.some.inj h
      exact Nat.le_refl 128
    · obtain ⟨m, hm, h⟩ := Option.bind_eq_some_iff.mp h
      obtain rfl := Option.some.inj h
      have hle : m ≤ 128 := length?_le hm
      show m.toUInt8.toNat ≤ 128
      rw [Utf8.toNat_toUInt8 (by omega)]
      exact hle

end Network

end PacketClassifier
