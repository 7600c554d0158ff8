/-
Groups of an address and their canonical text.

The eight groups of an address stand for it (`Address.ofGroups_groups`). Their text leaves
out a run of zeros where there is one of two groups or more. What the search for the
longest run finds does stand in the list (`Address.hasZeros_longestZeros`), so nothing but
zeros is left out: `Address.compressed_cases` gives the two forms of the text.
-/
import Mathlib.Data.List.Basic
import PacketClassifier.Address.Text

namespace PacketClassifier

namespace Address

/-! ### Numbers -/

theorem length_groups (n : Nat) : (groups n).length = 8 := by
  rw [groups, List.length_map, List.length_range]

theorem lt_of_mem_groups {n g : Nat} (h : g ∈ groups n) : g < 65536 := by
  obtain ⟨i, -, rfl⟩ := List.mem_map.mp h
  exact Nat.mod_lt _ (by decide)

/-- A word of 128 bits is the number that its groups stand for. -/
theorem ofGroups_groups {n : Nat} (h : n < Nat.pow 2 128) : ofGroups (groups n) = n := by
  have hgroups : groups n
      = [n / Nat.pow 2 112 % 65536, n / Nat.pow 2 96 % 65536, n / Nat.pow 2 80 % 65536,
         n / Nat.pow 2 64 % 65536, n / Nat.pow 2 48 % 65536, n / Nat.pow 2 32 % 65536,
         n / Nat.pow 2 16 % 65536, n / Nat.pow 2 0 % 65536] := rfl
  rw [hgroups]
  simp only [ofGroups, List.foldl_cons, List.foldl_nil, Nat.pow_eq] at h ⊢
  omega

/-! ### Runs of zeros -/

/-- Whether zeros stand in a list; their start and their number are given. -/
def HasZeros (gs : List Nat) (run : Nat × Nat) : Prop :=
  ∃ front back, gs = front ++ List.replicate run.2 0 ++ back ∧ front.length = run.1

/-- Whether a list ends with so many zeros. If there are none, it does not matter where
they start. -/
def EndsInZeros (gs : List Nat) (start length : Nat) : Prop :=
  ∃ front, gs = front ++ List.replicate length 0 ∧ (0 < length → front.length = start)

/-- One more zero makes the run longer or starts it. -/
theorem EndsInZeros.concat {gs : List Nat} {start length : Nat}
    (h : EndsInZeros gs start length) :
    EndsInZeros (gs ++ [0]) (if length = 0 then gs.length else start) (length + 1) := by
  obtain ⟨front, hgs, hfront⟩ := h
  refine ⟨front, by rw [hgs, List.append_assoc, ← List.replicate_succ'], fun _ => ?_⟩
  split
  · rename_i hl
    rw [hgs, hl, List.replicate_zero, List.append_nil]
  · exact hfront (by omega)

/-- Any other group ends the run. -/
theorem EndsInZeros.none (gs : List Nat) : EndsInZeros gs 0 0 :=
  ⟨gs, (List.append_nil gs).symm, fun h => absurd h (Nat.lt_irrefl 0)⟩

theorem EndsInZeros.hasZeros {gs : List Nat} {start length : Nat}
    (h : EndsInZeros gs start length) (hl : 0 < length) (back : List Nat) :
    HasZeros (gs ++ back) (start, length) := by
  obtain ⟨front, rfl, hfront⟩ := h
  exact ⟨front, back, rfl, hfront hl⟩

/-- The run that is found stands in the list. The induction is on what is left of the
list, behind what has been seen of it; it carries that what has been seen ends with the
current run. -/
theorem hasZeros_longestZeros (gs seen : List Nat) {start length : Nat} {best : Nat × Nat}
    (hcurrent : EndsInZeros seen start length) (hbest : HasZeros (seen ++ gs) best) :
    HasZeros (seen ++ gs) (longestZeros seen.length start length best gs) := by
  induction gs generalizing seen start length best with
  | nil => exact hbest
  | cons g gs ih =>
    have hindex : seen.length + 1 = (seen ++ [g]).length := by
      rw [List.length_append, List.length_singleton]
    rw [List.append_cons] at hbest ⊢
    rw [longestZeros, hindex]
    split
    · rename_i hg
      subst hg
      have hlonger := hcurrent.concat
      refine ih (seen ++ [0]) hlonger ?_
      split
      · exact hlonger.hasZeros (Nat.succ_pos length) gs
      · exact hbest
    · exact ih (seen ++ [g]) (.none _) hbest

/-- Groups are written in full, or with two zeros or more left out. -/
theorem compressed_cases (gs : List Nat) :
    compressed gs = joinGroups gs
      ∨ ∃ front zeros back, gs = front ++ List.replicate zeros 0 ++ back ∧ 1 < zeros
        ∧ compressed gs = joinGroups front ++ ':' :: ':' :: joinGroups back := by
  have hzeros : HasZeros gs (longestZeros 0 0 0 (0, 0) gs) :=
    hasZeros_longestZeros gs [] (.none []) ⟨[], gs, rfl, rfl⟩
  rw [compressed]
  generalize longestZeros 0 0 0 (0, 0) gs = run at hzeros
  obtain ⟨start, length⟩ := run
  obtain ⟨front, back, hgs, rfl⟩ := hzeros
  simp only at hgs ⊢
  split
  · rename_i hlength
    have hfront : gs.take front.length = front := by
      rw [hgs, List.append_assoc, List.take_left]
    have hback : gs.drop (front.length + length) = back := by
      rw [hgs]
      exact List.drop_left' (by rw [List.length_append, List.length_replicate])
    refine .inr ⟨front, length, back, hgs, hlength, ?_⟩
    rw [hfront, hback, List.append_assoc]
    rfl
  · exact .inl rfl

end Address

end PacketClassifier
