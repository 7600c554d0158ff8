/-
Texts in pieces.

Cutting at a character is the cutting of lists (`Text.splitOn_eq`), and it undoes the
joining of pieces without that character (`Text.splitOn_join`). So a joined text tells its
pieces, if none of them is empty (`Text.eq_of_join`).

What stands in front of a line feed and what stands behind it have their lines on their
own (`Text.lines_append`). A run of characters that pass a test is taken off whole where
the next one does not pass (`Text.takeWhile_append`).
-/
import PacketClassifier.Text.Blank
import Mathlib.Data.List.Basic

namespace PacketClassifier

namespace Text

theorem splitOn_eq (sep : Char) (cs : List Char) : splitOn sep cs = cs.splitOn sep := by
  induction cs with
  | nil => rfl
  | cons c cs ih =>
    rw [splitOn, List.splitOn_cons_eq_if_modifyHead, ih]
    by_cases hc : c = sep
    · rw [if_pos hc, if_pos (beq_iff_eq.mpr hc)]
    · rw [if_neg hc, if_neg (mt beq_iff_eq.mp hc)]
      obtain ⟨piece, pieces, hp⟩ := List.exists_cons_of_ne_nil (List.splitOn_ne_nil sep cs)
      rw [hp]
      rfl

theorem splitOn_ne_nil (sep : Char) (cs : List Char) : splitOn sep cs ≠ [] := by
  rw [splitOn_eq]
  exact List.splitOn_ne_nil sep cs

/-- What stands in front of a separator and what stands behind it are cut separately. -/
theorem splitOn_append_cons (sep : Char) (xs ys : List Char) :
    splitOn sep (xs ++ sep :: ys) = splitOn sep xs ++ splitOn sep ys := by
  rw [splitOn_eq, splitOn_eq, splitOn_eq, List.splitOn_append_cons_self]

theorem splitOn_of_not_mem {sep : Char} {cs : List Char} (h : sep ∉ cs) :
    splitOn sep cs = [cs] := by
  rw [splitOn_eq, List.splitOn_eq_singleton h]

/-- A text with a separator has more than one piece. -/
theorem length_splitOn_of_mem {sep : Char} {cs : List Char} (h : sep ∈ cs) :
    1 < (splitOn sep cs).length := by
  obtain ⟨front, back, rfl⟩ := List.append_of_mem h
  rw [splitOn_append_cons, List.length_append]
  have hfront := List.length_pos_iff.mpr (splitOn_ne_nil sep front)
  have hback := List.length_pos_iff.mpr (splitOn_ne_nil sep back)
  omega

/-! ### Lines -/

/-- A line feed ends whatever stands in front of it. -/
theorem lines_append (front back : List Char) :
    lines (front ++ '\n' :: back) = (splitOn '\n' front).map dropReturn ++ lines back := by
  have hback := splitOn_ne_nil '\n' back
  rw [lines, lines, splitOn_append_cons, List.getLast?_append_of_ne_nil _ hback,
    List.dropLast_append_of_ne_nil hback, List.map_append, List.append_assoc]

theorem lines_cons {line : List Char} (h : '\n' ∉ line) (rest : List Char) :
    lines (line ++ '\n' :: rest) = dropReturn line :: lines rest := by
  rw [lines_append, splitOn_of_not_mem h, List.map_singleton, List.singleton_append]

/-! ### Runs -/

section
variable {p : Char → Bool} {run rest : List Char}

theorem takeWhile_append (hrun : ∀ c ∈ run, p c = true)
    (hrest : ∀ c, rest.head? = some c → p c = false) :
    (run ++ rest).takeWhile p = run := by
  have hnone : rest.takeWhile p = [] := by
    cases rest with
    | nil => rfl
    | cons c cs => rw [List.takeWhile_cons, hrest c rfl]; rfl
  rw [List.takeWhile_append_of_pos hrun, hnone, List.append_nil]

theorem dropWhile_append (hrun : ∀ c ∈ run, p c = true)
    (hrest : ∀ c, rest.head? = some c → p c = false) :
    (run ++ rest).dropWhile p = rest := by
  rw [List.dropWhile_append_of_pos hrun]
  cases rest with
  | nil => rfl
  | cons c cs => rw [List.dropWhile_cons, hrest c rfl]; rfl

end

/-! ### Joined pieces -/

theorem mem_of_mem_join {sep : List Char} {c : Char} {pieces : List (List Char)}
    (h : c ∈ join sep pieces) :
    c ∈ sep ∨ ∃ p ∈ pieces, c ∈ p := by
  rw [join, List.intercalate] at h
  induction pieces with
  | nil => simp at h
  | cons p ps ih =>
    cases ps with
    | nil => exact .inr ⟨p, List.mem_cons_self, by simpa using h⟩
    | cons q qs =>
      rw [List.intersperse_cons_cons, List.flatten_cons, List.flatten_cons, List.mem_append,
        List.mem_append] at h
      rcases h with h | h | h
      · exact .inr ⟨p, List.mem_cons_self, h⟩
      · exact .inl h
      · exact (ih h).imp id fun ⟨r, hr, hc⟩ => ⟨r, List.mem_cons_of_mem _ hr, hc⟩

theorem splitOn_join {sep : Char} {pieces : List (List Char)} (hne : pieces ≠ [])
    (h : ∀ p ∈ pieces, sep ∉ p) :
    splitOn sep (join [sep] pieces) = pieces := by
  rw [splitOn_eq, join]
  exact List.splitOn_intercalate sep h hne

/-- Nothing comes of joining pieces that are not empty only if there are none. -/
theorem join_eq_nil_iff {sep : List Char} {pieces : List (List Char)}
    (h : ∀ p ∈ pieces, p ≠ []) :
    join sep pieces = [] ↔ pieces = [] := by
  constructor
  · intro hj
    cases pieces with
    | nil => rfl
    | cons p ps =>
      refine absurd ?_ (h p List.mem_cons_self)
      cases ps with
      | nil => simpa [join, List.intercalate] using hj
      | cons q qs =>
        rw [join, List.intercalate, List.intersperse_cons_cons, List.flatten_cons] at hj
        exact (List.append_eq_nil_iff.mp hj).1
  · rintro rfl
    rfl

/-- A joined text tells its pieces, if none of them is empty or has the separator in it. -/
theorem eq_of_join {sep : Char} {ps qs : List (List Char)} (hp : ∀ p ∈ ps, p ≠ [] ∧ sep ∉ p)
    (hq : ∀ q ∈ qs, q ≠ [] ∧ sep ∉ q) (h : join [sep] ps = join [sep] qs) : ps = qs := by
  have hnil : ps = [] ↔ qs = [] := by
    rw [← join_eq_nil_iff fun p hm => (hp p hm).1,
      ← join_eq_nil_iff fun q hm => (hq q hm).1, h]
  by_cases hps : ps = []
  · rw [hps, hnil.mp hps]
  · have hqs : qs ≠ [] := fun hqs => hps (hnil.mpr hqs)
    rw [← splitOn_join hps fun p hm => (hp p hm).2, h,
      splitOn_join hqs fun q hm => (hq q hm).2]

end Text

end PacketClassifier
