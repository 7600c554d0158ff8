/-
The text of a document without blanks.

Every control character of a string is escaped, and nothing is put between the tokens, so
the text has no control character in it (`Json.visible_write`). In particular it is one
line.
-/
import PacketClassifier.Proofs.Json.RoundTrip

namespace PacketClassifier

/-- Whether there is no control character in a text. -/
def Visible (cs : List Char) : Prop := ∀ c ∈ cs, 0x20 ≤ c.toNat

instance (cs : List Char) : Decidable (Visible cs) :=
  List.decidableBAll (fun c : Char => 0x20 ≤ c.toNat) cs

theorem Visible.nil : Visible [] := fun _ h => absurd h List.not_mem_nil

theorem Visible.cons {c : Char} {cs : List Char} (hc : 0x20 ≤ c.toNat) (h : Visible cs) :
    Visible (c :: cs) :=
  List.forall_mem_cons.mpr ⟨hc, h⟩

theorem Visible.append {cs ds : List Char} (h : Visible cs) (h' : Visible ds) :
    Visible (cs ++ ds) :=
  List.forall_mem_append.mpr ⟨h, h'⟩

/-! ### Numbers -/

theorem Numeral.visible_decimal (n : Nat) : Visible (decimal n) := by
  intro c hc
  have hdigit := isDigit_of_mem_decimal hc
  rw [isDigit, digit?] at hdigit
  split at hdigit
  · omega
  · cases hdigit

theorem Binary64.visible_layout {digits : List Char} (h : Visible digits) (place : Int) :
    Visible (layout digits place) := by
  have hzeros : ∀ n, Visible (List.replicate n '0') := by
    intro n c hc
    rw [List.eq_of_mem_replicate hc]
    decide
  simp only [layout]
  split
  · -- The sign of the exponent is the only thing that depends on it.
    refine .append ?_
      (.cons (by decide) (.cons (by split <;> decide) (Numeral.visible_decimal _)))
    split
    · exact h
    · exact .cons (h _ List.mem_cons_self)
        (.cons (by decide) fun c hc => h c (List.mem_cons_of_mem _ hc))
    · decide
  split
  · exact (h.append (hzeros _)).append (by decide)
  split
  · exact .append (fun c hc => h c (List.mem_of_mem_take hc))
      (.cons (by decide) fun c hc => h c (List.mem_of_mem_drop hc))
  · exact .cons (by decide) (.cons (by decide) ((hzeros _).append h))

theorem Binary64.visible_decimal (x : Binary64) : Visible x.decimal := by
  have hbody : Visible (if x.isZero then ['0', '.', '0']
      else layout (Numeral.decimal x.shortest.1) x.shortest.2) := by
    split
    · decide
    · exact visible_layout (Numeral.visible_decimal _) _
  rw [decimal]
  split
  · exact .cons (by decide) hbody
  · exact hbody

namespace Json

/-! ### Documents -/

/-- A control character is escaped by a letter or by its digits. -/
theorem visible_escape (c : Char) : Visible (escape c) := by
  have hletter : ∀ e : Char, 0x20 ≤ e.toNat → Visible ['\\', e] :=
    fun e he => .cons (by decide) (.cons he (by decide))
  have hdigit : ∀ d < 16, 0x20 ≤ (Numeral.digitChar d).toNat := by decide
  rw [escape]
  split_ifs with _ _ hplain _ _ _ _ _
  · exact hletter _ (by decide)
  · exact hletter _ (by decide)
  · exact .cons hplain (by decide)
  · exact hletter _ (by decide)
  · exact hletter _ (by decide)
  · exact hletter _ (by decide)
  · exact hletter _ (by decide)
  · exact hletter _ (by decide)
  · have hdigits :
        Visible [Numeral.digitChar (c.toNat / 16), Numeral.digitChar (c.toNat % 16)] :=
      .cons (hdigit _ (by omega)) (.cons (hdigit _ (by omega)) (by decide))
    exact (show Visible ['\\', 'u', '0', '0'] by decide).append hdigits

theorem visible_quote (s : String) : Visible (quote s) := by
  refine .append (.cons (by decide) fun c hc => ?_) (by decide)
  obtain ⟨d, -, hc⟩ := List.mem_flatMap.mp hc
  exact visible_escape d c hc

theorem visible_writeItems {xs : List Json} (h : ∀ x ∈ xs, ∀ k, Visible (write .compact k x))
    (k : Nat) :
    Visible (writeItems .compact k xs) := by
  induction xs with
  | nil => exact .nil
  | cons x xs ih =>
    rw [List.forall_mem_cons] at h
    have hcomma : Visible (',' :: Layout.compact.lineBreak k) := .cons (by decide) .nil
    rw [writeItems]
    exact (hcomma.append (h.1 k)).append (ih h.2)

theorem visible_writeMembers {ms : Members}
    (h : ∀ m ∈ ms, ∀ k, Visible (write .compact k m.2)) (k : Nat) :
    Visible (writeMembers .compact k ms) := by
  induction ms with
  | nil => exact .nil
  | cons m ms ih =>
    rw [List.forall_mem_cons] at h
    have hcomma : Visible (',' :: Layout.compact.lineBreak k) := .cons (by decide) .nil
    rw [writeMembers]
    exact (((hcomma.append (visible_quote _)).append (by decide)).append
      (h.1 k)).append (ih h.2)

/-- There is no control character in the text of a document without blanks. -/
theorem visible_write {j : Json} : ∀ k, Visible (write .compact k j) := by
  induction j using induct with
  | null => exact fun k => (by decide : Visible ['n', 'u', 'l', 'l'])
  | bool b =>
    intro k
    cases b with
    | true => exact (by decide : Visible ['t', 'r', 'u', 'e'])
    | false => exact (by decide : Visible ['f', 'a', 'l', 's', 'e'])
  | int n =>
    intro k
    cases n with
    | ofNat n => exact Numeral.visible_decimal n
    | negSucc n => exact .cons (by decide) (Numeral.visible_decimal _)
  | real x => exact fun k => x.visible_decimal
  | str s => exact fun k => visible_quote s
  | arr xs ih =>
    intro k
    cases xs with
    | nil => exact (by decide : Visible ['[', ']'])
    | cons x xs =>
      rw [List.forall_mem_cons] at ih
      have hitems := visible_writeItems ih.2 (k + 1)
      have hopen : Visible ('[' :: Layout.compact.lineBreak (k + 1)) := .cons (by decide) .nil
      rw [write]
      exact (((hopen.append (ih.1 _)).append hitems).append .nil).append (by decide)
  | obj ms ih =>
    intro k
    cases ms with
    | nil => exact (by decide : Visible ['\x7b', '\x7d'])
    | cons m ms =>
      rw [List.forall_mem_cons] at ih
      have hmembers := visible_writeMembers ih.2 (k + 1)
      have hopen : Visible ('\x7b' :: Layout.compact.lineBreak (k + 1)) :=
        .cons (by decide) .nil
      have hfirst := (hopen.append (visible_quote m.1)).append
        (show Visible Layout.compact.colon by decide)
      rw [write]
      exact (((hfirst.append (ih.1 _)).append hmembers).append .nil).append (by decide)

end Json

end PacketClassifier
