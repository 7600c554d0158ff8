/-
What numerals are made of.

A decimal numeral consists of digits only (`Numeral.isDigit_of_mem_decimal`), and a text
with any other character in it, a leading plus sign apart, is no numeral
(`Numeral.word?_eq_none`). No numeral but that of zero starts with a zero
(`Numeral.length_decimal_of_head`), a small number has few digits
(`Numeral.length_digits_le`), and zeros in front of a numeral do not change what is read
(`Numeral.word?_padded`).

`Numeral.Spells` says which texts write a number, and these are the texts that it is read from
(`Numeral.word?_eq_some_iff`).
-/
import PacketClassifier.Text.Numeral
import Mathlib.Data.List.Basic
import Mathlib.Data.List.Induction

namespace PacketClassifier

namespace Numeral

/-- A run that has a value consists of digits. -/
theorem digit?_of_accumulate {b : Nat} {digit? : Char → Option Nat} {cs : List Char} :
    ∀ {acc n : Nat}, accumulate b digit? acc cs = some n → ∀ c ∈ cs,
      (digit? c).isSome = true := by
  induction cs with
  | nil => exact fun _ c hc => absurd hc List.not_mem_nil
  | cons d cs ih =>
    intro acc n h c hc
    obtain ⟨v, hv, hrest⟩ := Option.bind_eq_some_iff.mp h
    rcases List.mem_cons.mp hc with rfl | hc
    · rw [hv]
      rfl
    · exact ih hrest c hc

theorem isDigit_of_mem_decimal {n : Nat} {c : Char} (h : c ∈ decimal n) : isDigit c = true :=
  digit?_of_accumulate (accumulate_decimal n) c h

theorem hexDigit?_of_mem_hex {n : Nat} {c : Char} (h : c ∈ hex n) :
    (hexDigit? c).isSome = true :=
  digit?_of_accumulate (accumulate_hex n) c h

/-- A number below a power of the base has no more digits than the exponent says. -/
theorem length_digits_le {b k n : Nat} (hk : 0 < k) (hn : n < Nat.pow b k) :
    (digits b n).length ≤ k := by
  induction k generalizing n with
  | zero => exact absurd hk (Nat.lt_irrefl 0)
  | succ k ih =>
    rw [digits]
    split
    · exact hk
    · rename_i h
      rw [Nat.pow_eq, Nat.pow_succ, Nat.mul_comm] at hn
      -- With one digit allowed there is only one.
      have hpos : 0 < k := by
        rcases Nat.eq_zero_or_pos k with rfl | hpos
        · rw [Nat.pow_zero, Nat.mul_one] at hn
          omega
        · exact hpos
      rw [List.length_append, List.length_singleton]
      exact Nat.succ_le_succ (ih hpos (Nat.div_lt_of_lt_mul hn))

theorem value?_eq_none {cs : List Char} {c : Char} (hc : c ∈ cs) (hd : isDigit c = false) :
    value? cs = none := by
  cases h : value? cs with
  | none => rfl
  | some n =>
    rw [value?] at h
    · have hdigit := digit?_of_accumulate h c hc
      rw [← isDigit, hd] at hdigit
      exact absurd hdigit Bool.false_ne_true
    · exact List.ne_nil_of_mem hc

/-- A text with a character that is neither a digit nor a plus sign is no number. -/
theorem word?_eq_none {cs : List Char} {c : Char} (hc : c ∈ cs) (hd : isDigit c = false)
    (hp : c ≠ '+') :
    word? (String.ofList cs) = none := by
  -- The character is not the sign that is dropped.
  have hmem : c ∈ if cs.head? = some '+' then cs.tail else cs := by
    split
    · rename_i hhead
      obtain ⟨rest, rfl⟩ := List.head?_eq_some_iff.mp hhead
      exact (List.mem_cons.mp hc).resolve_left hp
    · exact hc
  rw [word?, unsigned?, String.toList_ofList, value?_eq_none hmem hd]
  rfl

theorem accumulate_zeros (zeros : Nat) (cs : List Char) :
    accumulate 10 digit? 0 (List.replicate zeros '0' ++ cs) = accumulate 10 digit? 0 cs := by
  induction zeros with
  | zero => rfl
  | succ zeros ih =>
    rw [List.replicate_succ, List.cons_append, accumulate]
    exact ih

/-- A numeral is read with any zeros in front of it. -/
theorem value?_padded (zeros n : Nat) :
    value? (List.replicate zeros '0' ++ decimal n) = some n := by
  rw [value?]
  · exact (accumulate_zeros zeros (decimal n)).trans (accumulate_decimal n)
  · exact List.append_ne_nil_of_right_ne_nil _ (decimal_ne_nil n)

/-- A numeral has no sign, whatever zeros stand in front of it. -/
theorem head?_padded_ne (zeros n : Nat) :
    (List.replicate zeros '0' ++ decimal n).head? ≠ some '+' := by
  intro h
  have hdigit : isDigit '+' = true := by
    rcases List.mem_append.mp (List.mem_of_mem_head? h) with hmem | hmem
    · rw [List.eq_of_mem_replicate hmem]
      rfl
    · exact isDigit_of_mem_decimal hmem
  cases hdigit

/-- A number of 32 bits is read with any zeros in front of its numeral. -/
theorem word?_padded {s : String} {zeros n : Nat}
    (h : s.toList = List.replicate zeros '0' ++ decimal n) :
    word? s = if n ≤ max32 then some n.toUInt32 else none := by
  rw [word?, unsigned?, h, if_neg (head?_padded_ne zeros n), value?_padded,
    Option.filter_some]
  by_cases hn : n ≤ max32
  · rw [if_pos (decide_eq_true hn), if_pos hn]
    rfl
  · rw [if_neg (by rwa [decide_eq_true_eq]), if_neg hn]
    rfl

/-! ### What is read -/

theorem decimal_of_lt {n : Nat} (h : n < 10) : decimal n = [digitChar n] := by
  rw [decimal, digits, if_pos (.inl h)]

/-- One more digit behind the numeral of a number that is not zero. -/
theorem decimal_concat {n d : Nat} (hn : 0 < n) (hd : d < 10) :
    decimal (10 * n + d) = decimal n ++ [digitChar d] := by
  rw [decimal, digits, if_neg (by omega), decimal]
  have hquotient : (10 * n + d) / 10 = n := by omega
  have hdigit : (10 * n + d) % 10 = d := by omega
  rw [hquotient, hdigit]

theorem digit?_eq_some {c : Char} {d : Nat} (h : digit? c = some d) :
    d < 10 ∧ digitChar d = c := by
  rw [digit?] at h
  split at h
  · rename_i hc
    obtain rfl := Option.some.inj h
    have hlt : c.toNat - 48 < 10 := by omega
    refine ⟨hlt, ?_⟩
    rw [digitChar, if_pos hlt, Nat.add_sub_cancel' hc.1, Char.ofNat_toNat]
  · cases h

/-- Every run of digits is a numeral with some zeros in front of it. -/
theorem accumulate_eq_some {cs : List Char} {n : Nat} (hne : cs ≠ [])
    (h : accumulate 10 digit? 0 cs = some n) :
    ∃ zeros, cs = List.replicate zeros '0' ++ decimal n := by
  induction cs using List.reverseRecOn generalizing n with
  | nil => exact absurd rfl hne
  | append_singleton cs c ih =>
    rw [accumulate_append] at h
    obtain ⟨m, hm, hlast⟩ := Option.bind_eq_some_iff.mp h
    obtain ⟨d, hd, hn⟩ := Option.bind_eq_some_iff.mp hlast
    obtain ⟨hlt, rfl⟩ := digit?_eq_some hd
    obtain rfl : 10 * m + d = n := Option.some.inj hn
    by_cases hcs : cs = []
    · subst hcs
      obtain rfl : 0 = m := Option.some.inj hm
      exact ⟨0, by rw [Nat.mul_zero, Nat.zero_add, decimal_of_lt hlt]; rfl⟩
    · obtain ⟨zeros, rfl⟩ := ih hcs hm
      -- The digits in front are zeros only, or the numeral goes on with the last digit.
      rcases Nat.eq_zero_or_pos m with rfl | hpos
      · refine ⟨zeros + 1, ?_⟩
        rw [Nat.mul_zero, Nat.zero_add, decimal_of_lt hlt, decimal_of_lt (Nat.zero_lt_succ 9),
          List.replicate_succ']
        rfl
      · exact ⟨zeros, by rw [decimal_concat hpos hlt, List.append_assoc]⟩

theorem value?_eq_some_iff {cs : List Char} {n : Nat} :
    value? cs = some n ↔ ∃ zeros, cs = List.replicate zeros '0' ++ decimal n := by
  constructor
  · intro h
    have hne : cs ≠ [] := by
      rintro rfl
      cases h
    rw [value?] at h
    · exact accumulate_eq_some hne h
    · exact hne
  · rintro ⟨zeros, rfl⟩
    exact value?_padded zeros n

/-- Whether a text writes a number: one plus sign if any, any zeros, and the numeral. -/
def Spells (cs : List Char) (n : Nat) : Prop :=
  ∃ (sign : List Char) (zeros : Nat), (sign = [] ∨ sign = ['+'])
    ∧ cs = sign ++ (List.replicate zeros '0' ++ decimal n)

/-- The numbers that are read are those that are written and not too large. -/
theorem unsigned?_eq_some_iff {bound n : Nat} {cs : List Char} :
    unsigned? bound cs = some n ↔ Spells cs n ∧ n ≤ bound := by
  rw [unsigned?, Option.filter_eq_some_iff, decide_eq_true_eq, value?_eq_some_iff]
  refine and_congr_left fun _ => ?_
  constructor
  · rintro ⟨zeros, h⟩
    split at h
    · rename_i hhead
      obtain ⟨rest, rfl⟩ := List.head?_eq_some_iff.mp hhead
      exact ⟨['+'], zeros, .inr rfl, congrArg ('+' :: ·) h⟩
    · exact ⟨[], zeros, .inl rfl, h⟩
  · rintro ⟨sign, zeros, rfl | rfl, rfl⟩
    · exact ⟨zeros, if_neg (head?_padded_ne zeros n)⟩
    · exact ⟨zeros, rfl⟩

/-- A number of 32 bits is read exactly from the texts that write it. -/
theorem word?_eq_some_iff {s : String} {w : UInt32} :
    word? s = some w ↔ Spells s.toList w.toNat := by
  have hmax : w.toNat ≤ max32 := Nat.le_of_lt_succ w.toNat_lt
  rw [word?, Option.map_eq_some_iff]
  constructor
  · rintro ⟨n, hn, rfl⟩
    obtain ⟨hspells, hle⟩ := unsigned?_eq_some_iff.mp hn
    have hword : n.toUInt32.toNat = n := by
      rw [Nat.toUInt32, UInt32.toNat_ofNat']
      exact Nat.mod_eq_of_lt (Nat.lt_succ_of_le hle)
    rw [hword]
    exact hspells
  · intro h
    exact ⟨w.toNat, unsigned?_eq_some_iff.mpr ⟨h, hmax⟩, UInt32.ofNat_toNat⟩

/-- Only the numeral of zero starts with a zero. -/
theorem length_decimal_of_head {n : Nat} (h : (decimal n).head? = some '0') :
    (decimal n).length = 1 := by
  unfold decimal at h ⊢
  fun_induction digits 10 n with
  | case1 n hn => rfl
  | case2 n hn ih =>
    have hne : digits 10 (n / 10) ≠ [] := decimal_ne_nil (n / 10)
    rw [List.head?_append_of_ne_nil _ hne] at h
    have hlen := ih h
    -- A single digit that is a zero stands alone, and then nothing is left of `n` in
    -- front of the last digit.
    have hlt : n / 10 < 10 := by
      rcases Nat.lt_or_ge (n / 10) 10 with hlt | hge
      · exact hlt
      · rw [digits, if_neg (by omega), List.length_append, List.length_singleton] at hlen
        have hpos := List.length_pos_iff.mpr (decimal_ne_nil (n / 10 / 10))
        rw [decimal] at hpos
        omega
    rw [digits, if_pos (by omega)] at h
    have hpos : ∀ d < 10, 0 < d → digitChar d ≠ '0' := by decide
    exact absurd (Option.some.inj h) (hpos _ hlt (by omega))

end Numeral

end PacketClassifier
