/-
Documents read back from their text.

What the writer of documents makes, in any layout that puts nothing but blanks between
tokens, the reader takes for the same document, up to floating-point numbers, whose digits
are a matter of their own (`Json.Exact`).

* `Json.reads_of_exact`: a written document is read up to its end, whatever follows it.
* `Json.normal_eq_self`: where no key is repeated there is nothing to settle.
* `Json.ofText?_pretty`: the indented text of a document reads back.
-/
import PacketClassifier.Json.Printer
import PacketClassifier.Proofs.Json.Keyed
import PacketClassifier.Proofs.Text.Numeral
import PacketClassifier.Proofs.Text.Pieces

namespace PacketClassifier

namespace Json

/-! ### Documents that can be written without loss -/

mutual

/-- Whether a document has no floating-point number and every integer in it has 64 bits. -/
def Exact : Json → Prop
  | .int n => -0x8000000000000000 ≤ n ∧ n < 0x10000000000000000
  | .real _ => False
  | .arr xs => ExactItems xs
  | .obj ms => ExactMembers ms
  | _ => True
  termination_by structural j => j

/-- Whether this holds of every item. -/
def ExactItems : List Json → Prop
  | [] => True
  | x :: xs => Exact x ∧ ExactItems xs
  termination_by structural xs => xs

/-- Whether this holds of every value. -/
def ExactMembers : Members → Prop
  | [] => True
  | (_, v) :: ms => Exact v ∧ ExactMembers ms
  termination_by structural ms => ms

end

mutual

/-- Numbers that are not exact can be looked for. -/
def decideExact : (j : Json) → Decidable j.Exact
  | .int n => inferInstanceAs (Decidable (-0x8000000000000000 ≤ n ∧ n < 0x10000000000000000))
  | .real _ => .isFalse id
  | .arr xs => decideExactItems xs
  | .obj ms => decideExactMembers ms
  | .null | .bool _ | .str _ => .isTrue trivial
  termination_by structural j => j

/-- Numbers that are not exact can be looked for in every item. -/
def decideExactItems : (xs : List Json) → Decidable (ExactItems xs)
  | [] => .isTrue trivial
  | x :: xs =>
    haveI := decideExact x
    haveI := decideExactItems xs
    inferInstanceAs (Decidable (Exact x ∧ ExactItems xs))
  termination_by structural xs => xs

/-- Numbers that are not exact can be looked for in every value. -/
def decideExactMembers : (ms : Members) → Decidable (ExactMembers ms)
  | [] => .isTrue trivial
  | (_, v) :: ms =>
    haveI := decideExact v
    haveI := decideExactMembers ms
    inferInstanceAs (Decidable (Exact v ∧ ExactMembers ms))
  termination_by structural ms => ms

end

instance : DecidablePred Exact := decideExact

mutual

/-- How many containers nest in a document. -/
def depth : Json → Nat
  | .arr xs => depthItems xs + 1
  | .obj ms => depthMembers ms + 1
  | _ => 0
  termination_by structural j => j

/-- How many containers nest in the deepest item. -/
def depthItems : List Json → Nat
  | [] => 0
  | x :: xs => max (depth x) (depthItems xs)
  termination_by structural xs => xs

/-- How many containers nest in the deepest value. -/
def depthMembers : Members → Nat
  | [] => 0
  | (_, v) :: ms => max (depth v) (depthMembers ms)
  termination_by structural ms => ms

end

theorem exactItems_iff {xs : List Json} : ExactItems xs ↔ ∀ x ∈ xs, Exact x := by
  induction xs with
  | nil => simp [ExactItems]
  | cons x xs ih => simp [ExactItems, ih]

theorem exactMembers_iff {ms : Members} : ExactMembers ms ↔ ∀ m ∈ ms, Exact m.2 := by
  induction ms with
  | nil => simp [ExactMembers]
  | cons m ms ih => simp [ExactMembers, ih]

theorem depthItems_le_iff {xs : List Json} {d : Nat} :
    depthItems xs ≤ d ↔ ∀ x ∈ xs, depth x ≤ d := by
  induction xs with
  | nil => simp [depthItems]
  | cons x xs ih => rw [depthItems, Nat.max_le, ih, List.forall_mem_cons]

theorem depthMembers_le_iff {ms : Members} {d : Nat} :
    depthMembers ms ≤ d ↔ ∀ m ∈ ms, depth m.2 ≤ d := by
  induction ms with
  | nil => simp [depthMembers]
  | cons m ms ih => rw [depthMembers, Nat.max_le, ih, List.forall_mem_cons]

/-! ### Blanks -/

open Read

/-- Whether a text consists of blanks. -/
def Blanks (cs : List Char) : Prop := ∀ c ∈ cs, isBlank c = true

/-- Whether a layout puts blanks only where blanks may stand. -/
structure Layout.Blank (l : Layout) : Prop where
  /-- At a possible line break. -/
  lineBreak : ∀ depth, Blanks (l.lineBreak depth)
  /-- Behind a colon. -/
  colon : ∃ bs, l.colon = ':' :: bs ∧ Blanks bs

theorem Layout.blank_pretty : Layout.pretty.Blank := by
  refine ⟨fun depth c h => ?_, [' '], rfl, fun c h => ?_⟩
  · rcases List.mem_cons.mp h with rfl | h
    · rfl
    · rw [List.eq_of_mem_replicate h]
      rfl
  · rw [List.mem_singleton.mp h]
    rfl

theorem Layout.blank_compact : Layout.compact.Blank :=
  ⟨fun _ _ h => absurd h List.not_mem_nil, [], rfl, fun _ h => absurd h List.not_mem_nil⟩

theorem skipBlank_append {bs : List Char} (h : Blanks bs) (cs : List Char) :
    skipBlank (bs ++ cs) = skipBlank cs :=
  List.dropWhile_append_of_pos h

theorem skipBlank_cons {c : Char} (h : isBlank c = false) (cs : List Char) :
    skipBlank (c :: cs) = c :: cs := by
  rw [skipBlank, List.dropWhile_cons, h]
  rfl

theorem value_append {bs : List Char} (h : Blanks bs) (d : Nat) (cs : List Char) :
    value d (bs ++ cs) = value d cs := by
  cases d with
  | zero => rw [value, value, skipBlank_append h]
  | succ d => rw [value, value, skipBlank_append h]

/-! ### Strings -/

theorem hex4?_control :
    ∀ n < 32, hex4? '0' '0' (Numeral.digitChar (n / 16)) (Numeral.digitChar (n % 16))
      = some n := by
  decide

theorem unquote_plain {c : Char} (hq : c ≠ '"') (hb : c ≠ '\\') (hlow : 0x20 ≤ c.toNat)
    (cs : List Char) :
    unquote (c :: cs) = consText c (unquote cs) := by
  rw [unquote, if_neg (by omega)]
  · exact hq
  · exact fun _ _ _ _ _ h => absurd h hb
  · exact fun _ _ h => absurd h hb

/-- Every character is read back, be it escaped or not. -/
theorem unquote_escape (c : Char) (cs : List Char) :
    unquote (escape c ++ cs) = consText c (unquote cs) := by
  -- One case for each branch of the writer: letters that have a short escape, plain ones,
  -- and the other control characters.
  rw [escape]
  split
  · rename_i h
    subst h
    simp [unquote, escaped?]
  split
  · rename_i h
    subst h
    simp [unquote, escaped?]
  split
  · rename_i hq hb hlow
    exact unquote_plain hq hb hlow cs
  split
  · rename_i h
    obtain rfl : c = Char.ofNat 8 := by rw [← h, Char.ofNat_toNat]
    simp [unquote, escaped?]
  split
  · rename_i h
    obtain rfl : c = Char.ofNat 12 := by rw [← h, Char.ofNat_toNat]
    simp [unquote, escaped?]
  split
  · rename_i h
    subst h
    simp [unquote, escaped?]
  split
  · rename_i h
    subst h
    simp [unquote, escaped?]
  split
  · rename_i h
    subst h
    simp [unquote, escaped?]
  · have hn : c.toNat < 32 := by omega
    -- Four digits of a number below 32 are no surrogate.
    show unquote ('\\' :: 'u' :: '0' :: '0' :: _ :: _ :: cs) = _
    rw [unquote, hex4?_control _ hn]
    show (if _ then _ else if _ then _ else _) = _
    rw [if_neg (by omega), if_neg (by omega), Char.ofNat_toNat]

theorem unquote_flatMap_escape (cs rest : List Char) :
    unquote (cs.flatMap escape ++ '"' :: rest) = some (cs, rest) := by
  induction cs with
  | nil => simp [unquote]
  | cons c cs ih =>
    rw [List.flatMap_cons, List.append_assoc, unquote_escape, ih]
    rfl

theorem key?_quote {l : Layout} (hl : l.Blank) {bs : List Char} (hb : Blanks bs) (k : String)
    (cs : List Char) :
    ∃ cs', key? unquote (bs ++ (quote k ++ (l.colon ++ cs))) = some (k, cs')
      ∧ ∀ d, value d cs' = value d cs := by
  obtain ⟨blanks, hcolon, hblanks⟩ := hl.colon
  refine ⟨blanks ++ cs, ?_, fun d => value_append hblanks d cs⟩
  have hquote : quote k ++ (l.colon ++ cs)
      = '"' :: (k.toList.flatMap escape ++ '"' :: ':' :: (blanks ++ cs)) := by
    rw [quote, hcolon]
    simp
  rw [key?, skipBlank_append hb, hquote, skipBlank_cons rfl]
  simp only [unquote_flatMap_escape, skipBlank_cons (c := ':') rfl, String.ofList_toList]

/-! ### Numbers -/

/-- Whether a text does not go on with a number in front of it. -/
def Ends (rest : List Char) : Prop :=
  ∀ c, rest.head? = some c → Numeral.isDigit c = false ∧ c ≠ '.' ∧ c ≠ 'e' ∧ c ≠ 'E'

theorem ends_nil : Ends [] := fun _ h => nomatch h

theorem ends_cons {c : Char} {cs : List Char} (h : c = ',' ∨ c = ']' ∨ c = '\x7d') :
    Ends (c :: cs) := by
  intro d hd
  obtain rfl : c = d := Option.some.inj hd
  rcases h with rfl | rfl | rfl <;> decide

theorem Ends.append {cs : List Char} (h : Ends cs) {bs : List Char} (hb : Blanks bs) :
    Ends (bs ++ cs) := by
  cases bs with
  | nil => exact h
  | cons b bs =>
    intro c hc
    obtain rfl : b = c := Option.some.inj hc
    have hblank := hb b List.mem_cons_self
    simp only [isBlank, Bool.or_eq_true, beq_iff_eq, or_assoc] at hblank
    rcases hblank with rfl | rfl | rfl | rfl <;> decide

theorem digitRun?_decimal (n : Nat) {rest : List Char} (h : Ends rest) :
    digitRun? (Numeral.decimal n ++ rest) = some (Numeral.decimal n, rest) := by
  have hd : ∀ c ∈ Numeral.decimal n, Numeral.isDigit c = true :=
    fun c hc => Numeral.isDigit_of_mem_decimal hc
  -- What follows does not start with a digit, so the run ends with the numeral.
  have hrest : ∀ c, rest.head? = some c → Numeral.isDigit c = false := fun c hc => (h c hc).1
  rw [digitRun?, Text.takeWhile_append hd hrest, Text.dropWhile_append hd hrest]
  exact if_neg (by simpa using Numeral.decimal_ne_nil n)

theorem fraction?_of_ends {rest : List Char} (h : Ends rest) :
    fraction? rest = some ([], rest) := by
  cases rest with
  | nil => rfl
  | cons c cs =>
    rw [fraction?]
    rintro _ ⟨⟩
    exact (h '.' rfl).2.1 rfl

theorem exponent?_of_ends {rest : List Char} (h : Ends rest) :
    exponent? rest = some (none, rest) := by
  cases rest with
  | nil => rfl
  | cons c cs =>
    obtain ⟨_, _, he, hE⟩ := h c rfl
    exact if_neg (not_or.mpr ⟨he, hE⟩)

theorem unsigned?_decimal {negative : Bool} {n : Nat} (hn : fits64 negative n = true)
    {rest : List Char} (h : Ends rest) :
    unsigned? negative (Numeral.decimal n ++ rest)
      = some (.int (if negative then -(n : Int) else n), rest) := by
  have hvalue : runValue (Numeral.decimal n) = n := by
    rw [runValue, Numeral.value?_decimal]
    rfl
  have hnumber : numberOf? negative (Numeral.decimal n) [] none
      = some (.int (if negative then -(n : Int) else n)) := by
    simp [numberOf?, hvalue, hn]
  -- A leading zero stands alone.
  have hzero : ¬ ((Numeral.decimal n).head? = some '0' ∧ (Numeral.decimal n).length ≠ 1) :=
    fun hz => hz.2 (Numeral.length_decimal_of_head hz.1)
  simp [unsigned?, digitRun?_decimal n h, fraction?_of_ends h, exponent?_of_ends h,
    hnumber, hzero]

/-! ### Documents -/

/-- A numeral starts with a digit, so with no blank and no bracket. -/
theorem decimal_eq_cons (n : Nat) :
    ∃ c cs, Numeral.decimal n = c :: cs ∧ Numeral.isDigit c = true ∧ isBlank c = false
      ∧ c ≠ ']' ∧ c ≠ '[' ∧ c ≠ '\x7b' := by
  obtain ⟨c, cs, h⟩ := List.exists_cons_of_ne_nil (Numeral.decimal_ne_nil n)
  have hd : Numeral.isDigit c = true :=
    Numeral.isDigit_of_mem_decimal (h ▸ List.mem_cons_self)
  refine ⟨c, cs, h, hd, ?_, ?_, ?_, ?_⟩
  · cases hb : isBlank c with
    | false => rfl
    | true =>
      simp only [isBlank, Bool.or_eq_true, beq_iff_eq, or_assoc] at hb
      rcases hb with rfl | rfl | rfl | rfl <;> exact absurd hd (by decide)
  all_goals
    rintro rfl
    exact absurd hd (by decide)

/-- The text of a document starts with neither a blank nor a closing bracket. -/
theorem write_eq_cons (l : Layout) (k : Nat) {j : Json} (h : j.Exact) :
    ∃ c cs, write l k j = c :: cs ∧ isBlank c = false ∧ c ≠ ']' := by
  cases j with
  | null => exact ⟨_, _, rfl, by decide, by decide⟩
  | bool b => cases b <;> exact ⟨_, _, rfl, by decide, by decide⟩
  | real _ => exact h.elim
  | str _ => exact ⟨_, _, rfl, by decide, by decide⟩
  | arr xs => cases xs <;> exact ⟨_, _, rfl, by decide, by decide⟩
  | obj ms => cases ms <;> exact ⟨_, _, rfl, by decide, by decide⟩
  | int n =>
    cases n with
    | negSucc n => exact ⟨_, _, rfl, by decide, by decide⟩
    | ofNat n =>
      obtain ⟨c, cs, hc, _, hb, hne, _⟩ := decimal_eq_cons n
      exact ⟨c, cs, hc, hb, hne⟩

/-- What opens neither an array nor an object is read as a scalar at any depth. -/
theorem value_eq_scalar? {c : Char} {cs : List Char} (hb : isBlank c = false) (harr : c ≠ '[')
    (hobj : c ≠ '\x7b') (d : Nat) : value d (c :: cs) = scalar? (c :: cs) := by
  cases d with
  | zero => rw [value, skipBlank_cons hb]
  | succ d =>
    rw [value, skipBlank_cons hb]
    split
    · rename_i he
      exact absurd (List.cons.inj he).1 harr
    · rename_i he
      exact absurd (List.cons.inj he).1 hobj
    · rfl

theorem scalar?_of_digit {c : Char} (h : Numeral.isDigit c = true) (cs : List Char) :
    scalar? (c :: cs) = unsigned? false (c :: cs) := by
  -- None of the characters that the reader looks for is a digit.
  have hne : ∀ d, Numeral.isDigit d = false → c ≠ d := by
    rintro d hd rfl
    rw [hd] at h
    cases h
  have hn := hne 'n' (by decide)
  have ht := hne 't' (by decide)
  have hf := hne 'f' (by decide)
  have hq := hne '"' (by decide)
  have hm := hne '-' (by decide)
  rw [scalar?, number?]
  all_goals grind

theorem value_int {n : Int} (h : (Json.int n).Exact) (d : Nat) {rest : List Char}
    (hr : Ends rest) :
    value d (Numeral.integer n ++ rest) = some (.int n, rest) := by
  obtain ⟨hlow, hhigh⟩ : -0x8000000000000000 ≤ n ∧ n < 0x10000000000000000 := h
  cases n with
  | ofNat n =>
    rw [Int.ofNat_eq_natCast] at hlow hhigh
    have hn : fits64 false n = true := decide_eq_true (by omega)
    obtain ⟨c, cs, hc, hd, hb, _, harr, hobj⟩ := decimal_eq_cons n
    have hread := unsigned?_decimal hn hr
    rw [hc, List.cons_append] at hread
    rw [Numeral.integer, hc, List.cons_append, value_eq_scalar? hb harr hobj,
      scalar?_of_digit hd, hread]
    rfl
  | negSucc n =>
    have hn : fits64 true (n + 1) = true := decide_eq_true (by omega)
    rw [Numeral.integer, List.cons_append,
      value_eq_scalar? (by decide) (by decide) (by decide)]
    exact unsigned?_decimal hn hr

/-- Whether a document is read back at a depth, whatever the indentation is and whatever
follows it. -/
def Reads (l : Layout) (d : Nat) (j : Json) : Prop :=
  ∀ k rest, Ends rest → value d (write l k j ++ rest) = some (j, rest)

/-- Items that are read back one by one are read back as a list. -/
theorem items_write {l : Layout} (hl : l.Blank) {d k : Nat} {close rest : List Char}
    (hclose : Blanks close) {xs : List Json} :
    ∀ {x : Json} {bs bound : List Char}, (∀ y ∈ x :: xs, Reads l d y) → Blanks bs →
      xs.length < bound.length →
      items (value d) bound
        (bs ++ (write l k x ++ (writeItems l k xs ++ (close ++ ']' :: rest))))
        = some (x :: xs, rest) := by
  induction xs with
  | nil =>
    intro x bs bound hread hbs hbound
    -- The last item ends at the closing bracket.
    obtain ⟨b, bound, rfl⟩ := List.exists_cons_of_length_pos hbound
    have hends : Ends (close ++ ']' :: rest) := (ends_cons (.inr (.inl rfl))).append hclose
    rw [items, value_append hbs, writeItems, List.nil_append,
      hread x List.mem_cons_self k _ hends]
    simp only [skipBlank_append hclose, skipBlank_cons (c := ']') rfl]
  | cons y ys ih =>
    intro x bs bound hread hbs hbound
    obtain ⟨b, bound, rfl⟩ := List.exists_cons_of_length_pos (Nat.zero_lt_of_lt hbound)
    -- Any other item ends at a comma, and the reader goes on behind it with one less of
    -- its bound.
    rw [items, value_append hbs, writeItems, List.cons_append, List.cons_append,
      List.cons_append, hread x List.mem_cons_self k _ (ends_cons (.inl rfl))]
    simp only [skipBlank_cons (c := ',') rfl, List.append_assoc]
    rw [ih (fun z hz => hread z (List.mem_cons_of_mem _ hz)) (hl.lineBreak k)
      (Nat.lt_of_succ_lt_succ hbound)]
    rfl

/-- Members likewise. How a value is read may depend on its key, as long as it does not
for these members. -/
theorem members_write {l : Layout} (hl : l.Blank) {d k : Nat}
    {item : String → List Char → Option (Json × List Char)} {close rest : List Char}
    (hclose : Blanks close) {ms : Members} :
    ∀ {name : String} {v : Json} {bs bound : List Char},
      (∀ m ∈ (name, v) :: ms, item m.1 = value d ∧ Reads l d m.2) → Blanks bs →
        ms.length < bound.length →
      members (key? unquote) item bound
          (bs ++ (quote name ++ (l.colon
            ++ (write l k v ++ (writeMembers l k ms ++ (close ++ '\x7d' :: rest))))))
        = some ((name, v) :: ms, rest) := by
  induction ms with
  | nil =>
    intro name v bs bound hread hbs hbound
    obtain ⟨b, bound, rfl⟩ := List.exists_cons_of_length_pos hbound
    obtain ⟨hitem, hfirst⟩ := hread _ List.mem_cons_self
    obtain ⟨cs, hkey, hvalue⟩ := key?_quote hl hbs name
      (write l k v ++ (writeMembers l k [] ++ (close ++ '\x7d' :: rest)))
    have hends : Ends (close ++ '\x7d' :: rest) := (ends_cons (.inr (.inr rfl))).append hclose
    simp only [members, hkey, hitem, hvalue]
    rw [writeMembers, List.nil_append, hfirst k _ hends]
    simp only [skipBlank_append hclose, skipBlank_cons (c := '\x7d') rfl]
  | cons m ms ih =>
    obtain ⟨name', v'⟩ := m
    intro name v bs bound hread hbs hbound
    obtain ⟨b, bound, rfl⟩ := List.exists_cons_of_length_pos (Nat.zero_lt_of_lt hbound)
    obtain ⟨hitem, hfirst⟩ := hread _ List.mem_cons_self
    obtain ⟨cs, hkey, hvalue⟩ :=
      key?_quote hl hbs name (write l k v
        ++ (writeMembers l k ((name', v') :: ms) ++ (close ++ '\x7d' :: rest)))
    simp only [members, hkey, hitem, hvalue]
    rw [writeMembers, List.cons_append, List.cons_append, List.cons_append, List.cons_append,
      List.cons_append, hfirst k _ (ends_cons (.inl rfl))]
    simp only [skipBlank_cons (c := ',') rfl, List.append_assoc]
    rw [ih (fun z hz => hread z (List.mem_cons_of_mem _ hz)) (hl.lineBreak k)
      (Nat.lt_of_succ_lt_succ hbound)]
    rfl

theorem length_le_writeItems (l : Layout) (k : Nat) (xs : List Json) :
    xs.length ≤ (writeItems l k xs).length := by
  induction xs with
  | nil => exact Nat.le_refl _
  | cons x xs ih =>
    simp only [writeItems, List.length_append, List.length_cons]
    omega

theorem length_le_writeMembers (l : Layout) (k : Nat) (ms : Members) :
    ms.length ≤ (writeMembers l k ms).length := by
  induction ms with
  | nil => exact Nat.le_refl _
  | cons m ms ih =>
    obtain ⟨name, v⟩ := m
    simp only [writeMembers, List.length_append, List.length_cons]
    omega

theorem array_eq_items {item : List Char → Option (Json × List Char)} {cs : List Char}
    {c : Char} {cs' : List Char} (h : skipBlank cs = c :: cs') (hc : c ≠ ']') :
    array item cs = (items item cs cs).map fun (xs, rest) => (.arr xs, rest) := by
  rw [array, h]
  split
  · rename_i he
    exact absurd (List.cons.inj he).1 hc
  · rfl

theorem object_eq_members {key : List Char → Option (String × List Char)}
    {item : String → List Char → Option (Json × List Char)} {cs cs' : List Char}
    (h : skipBlank cs = '"' :: cs') :
    object key item cs = (members key item cs cs).map fun (ms, rest) => (.obj ms, rest) := by
  rw [object, h]
  rfl

theorem reads_arr {l : Layout} (hl : l.Blank) {d : Nat} {xs : List Json}
    (he : ∀ x ∈ xs, x.Exact) (hread : ∀ x ∈ xs, Reads l d x) : Reads l (d + 1) (.arr xs) := by
  intro k rest hr
  cases xs with
  | nil => rfl
  | cons x xs =>
    have htext : write l k (.arr (x :: xs)) ++ rest = '[' :: (l.lineBreak (k + 1)
        ++ (write l (k + 1) x
          ++ (writeItems l (k + 1) xs ++ (l.lineBreak k ++ ']' :: rest)))) := by
      simp [write]
    obtain ⟨c, cs, hc, hblank, hne⟩ := write_eq_cons l (k + 1) (he x List.mem_cons_self)
    have hskip : skipBlank (l.lineBreak (k + 1)
        ++ (write l (k + 1) x ++ (writeItems l (k + 1) xs ++ (l.lineBreak k ++ ']' :: rest))))
        = c :: (cs ++ (writeItems l (k + 1) xs ++ (l.lineBreak k ++ ']' :: rest))) := by
      rw [skipBlank_append (hl.lineBreak _), hc, List.cons_append, skipBlank_cons hblank]
    -- The bound is the text itself, which is longer than the list.
    have hlen := length_le_writeItems l (k + 1) xs
    rw [htext, value, skipBlank_cons rfl]
    show array (value d) _ = _
    rw [array_eq_items hskip hne,
      items_write hl (hl.lineBreak k) hread (hl.lineBreak (k + 1))]
    · rfl
    · simp only [List.length_append, List.length_cons]
      omega

/-- What follows the opening brace of an object is read as its members, if every value is
read as it is written. -/
theorem object_write {l : Layout} (hl : l.Blank) {d : Nat}
    {item : String → List Char → Option (Json × List Char)} {ms : Members}
    (hread : ∀ m ∈ ms, item m.1 = value d ∧ Reads l d m.2) (k : Nat) (rest : List Char) :
    ∃ cs, write l k (.obj ms) ++ rest = '\x7b' :: cs
      ∧ object (key? unquote) item cs = some (.obj ms, rest) := by
  cases ms with
  | nil => exact ⟨_, rfl, rfl⟩
  | cons m ms =>
    obtain ⟨name, v⟩ := m
    refine ⟨l.lineBreak (k + 1) ++ (quote name ++ (l.colon ++ (write l (k + 1) v
      ++ (writeMembers l (k + 1) ms ++ (l.lineBreak k ++ '\x7d' :: rest))))),
      by simp [write], ?_⟩
    have hskip :
        skipBlank (l.lineBreak (k + 1) ++ (quote name ++ (l.colon ++ (write l (k + 1) v
          ++ (writeMembers l (k + 1) ms ++ (l.lineBreak k ++ '\x7d' :: rest))))))
        = '"' :: (name.toList.flatMap escape ++ ['"'] ++ (l.colon ++ (write l (k + 1) v
          ++ (writeMembers l (k + 1) ms ++ (l.lineBreak k ++ '\x7d' :: rest))))) := by
      rw [skipBlank_append (hl.lineBreak _), quote, List.cons_append, List.cons_append,
        skipBlank_cons rfl]
    -- As for arrays.
    have hlen := length_le_writeMembers l (k + 1) ms
    rw [object_eq_members hskip,
      members_write hl (hl.lineBreak k) hread (hl.lineBreak (k + 1))]
    · rfl
    · simp only [List.length_append, List.length_cons]
      omega

theorem reads_obj {l : Layout} (hl : l.Blank) {d : Nat} {ms : Members}
    (hread : ∀ m ∈ ms, Reads l d m.2) :
    Reads l (d + 1) (.obj ms) := by
  intro k rest _
  obtain ⟨cs, htext, hobject⟩ : ∃ cs, write l k (.obj ms) ++ rest = '\x7b' :: cs
      ∧ object (key? unquote) (fun _ => value d) cs = some (.obj ms, rest) :=
    object_write hl (fun m hm => ⟨rfl, hread m hm⟩) k rest
  rw [htext, value, skipBlank_cons rfl]
  exact hobject

/-- **Documents read back.** A written document is read up to its end. -/
theorem reads_of_exact {l : Layout} (hl : l.Blank) {j : Json} :
    ∀ {d : Nat}, j.Exact → j.depth ≤ d → Reads l d j := by
  induction j using induct with
  | null => exact fun _ _ k rest _ => value_eq_scalar? (by decide) (by decide) (by decide) _
  | bool b =>
    cases b <;> exact fun _ _ k rest _ =>
      value_eq_scalar? (by decide) (by decide) (by decide) _
  | int n => exact fun he _ k rest hr => value_int he _ hr
  | real x => exact fun he => he.elim
  | str s =>
    intro d _ _ k rest _
    rw [write, quote, List.cons_append, List.cons_append,
      value_eq_scalar? (by decide) (by decide) (by decide), scalar?, List.append_assoc,
      List.singleton_append, unquote_flatMap_escape, Option.map_some]
    exact congrArg (fun t => some (Json.str t, rest)) String.ofList_toList
  | arr xs ih =>
    intro d he hd
    rw [Exact, exactItems_iff] at he
    cases d with
    | zero => simp [depth] at hd
    | succ d =>
      rw [depth, Nat.add_le_add_iff_right, depthItems_le_iff] at hd
      exact reads_arr hl he fun x hx => ih x hx (he x hx) (hd x hx)
  | obj ms ih =>
    intro d he hd
    rw [Exact, exactMembers_iff] at he
    cases d with
    | zero => simp [depth] at hd
    | succ d =>
      rw [depth, Nat.add_le_add_iff_right, depthMembers_le_iff] at hd
      exact reads_obj hl fun m hm => ih m hm (he m hm) (hd m hm)

/-! ### Whole texts -/

/-- Where no key is repeated there is nothing to settle. -/
theorem normal_eq_self {j : Json} : j.Keyed → j.normal = j := by
  induction j using induct with
  | null | bool _ | int _ | real _ | str _ => exact fun _ => rfl
  | arr xs ih =>
    intro h
    rw [keyed_arr] at h
    rw [normal, normalItems_eq, List.map_congr_left fun x hx => ih x hx (h x hx),
      List.map_id']
  | obj ms ih =>
    intro h
    rw [keyed_obj] at h
    have hvalues : ms.map (fun m => (m.1, m.2.normal)) = ms := by
      rw [List.map_congr_left (g := id)
        fun m hm => by rw [ih m hm (h.2 m hm)]; rfl, List.map_id]
    rw [normal, normalMembers_eq, Assoc.foldl_insert_of_nodup
      (f := normal) h.1 fun _ _ => List.not_mem_nil, hvalues, List.nil_append]

/-- A document that is kept as text without loss. -/
structure Storable (j : Json) : Prop where
  /-- No object has a key twice. -/
  keyed : j.Keyed
  /-- There is no floating-point number, and no integer of more than 64 bits. -/
  exact : j.Exact
  /-- Containers do not nest deeper than a reader goes. -/
  shallow : j.depth ≤ maxDepth

theorem storable_iff_parts {j : Json} : j.Storable ↔ j.Keyed ∧ j.Exact ∧ j.depth ≤ maxDepth :=
  ⟨fun h => ⟨h.keyed, h.exact, h.shallow⟩, fun h => ⟨h.1, h.2.1, h.2.2⟩⟩

instance : DecidablePred Storable := fun _ => decidable_of_iff' _ storable_iff_parts

/-- The text of a document reads back in any layout. -/
theorem ofText?_write {l : Layout} (hl : l.Blank) {j : Json} (h : j.Storable) :
    ofText? (write l 0 j) = some j := by
  have hread := reads_of_exact hl h.exact h.shallow 0 [] ends_nil
  rw [List.append_nil] at hread
  rw [ofText?, ofTextWithin?, hread]
  exact congrArg some (normal_eq_self h.keyed)

theorem ofText?_pretty {j : Json} (h : j.Storable) : ofText? j.pretty.toList = some j := by
  rw [pretty, String.toList_ofList]
  exact ofText?_write Layout.blank_pretty h

end Json

end PacketClassifier
