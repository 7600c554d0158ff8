/-
Addresses and networks read back from their text.

Numerals of octets and groups are read back where no digit follows
(`Address.octet?_decimal`, `Address.group?_hex`), and so are four octets
(`Address.dotted?_dotted`) and any number of groups that a double colon or nothing follows
(`Address.groups?_listed`). A text without points is never read as four octets
(`Address.dotted?_eq_none`), which keeps the two versions apart and lets groups be read as
groups.

* `Address.ofChars?_chars`: every address is read back from its canonical text, whatever
  form that text has.
* `Network.ofChars?_chars`: so is every network whose length fits its address.
-/
import PacketClassifier.Proofs.Address.Groups
import PacketClassifier.Proofs.Address.Sides
import PacketClassifier.Proofs.Text.Numeral
import PacketClassifier.Proofs.Text.Pieces

namespace PacketClassifier

namespace Address

/-! ### Numerals -/

/-- Whether a text does not start with a digit. -/
def Stops (digit? : Char → Option Nat) (rest : List Char) : Prop :=
  ∀ c, rest.head? = some c → digit? c = none

theorem stops_nil (digit? : Char → Option Nat) : Stops digit? [] := fun _ h => nomatch h

theorem stops_cons {digit? : Char → Option Nat} {c : Char} (h : digit? c = none)
    (cs : List Char) :
    Stops digit? (c :: cs) := by
  intro d hd
  obtain rfl : c = d := Option.some.inj hd
  exact h

theorem digitSpan_append {digit? : Char → Option Nat} {run rest : List Char}
    (hrun : ∀ c ∈ run, (digit? c).isSome = true) (hrest : Stops digit? rest) :
    digitSpan digit? (run ++ rest) = (run, rest) := by
  have hnone : ∀ c, rest.head? = some c → (digit? c).isSome = false := by
    intro c hc
    rw [hrest c hc]
    rfl
  rw [digitSpan, Text.takeWhile_append hrun hnone, Text.dropWhile_append hrun hnone]

theorem octet?_decimal {n : Nat} (hn : n < 256) {rest : List Char}
    (hrest : Stops Numeral.digit? rest) :
    octet? (Numeral.decimal n ++ rest) = some (n, rest) := by
  have hlength : (Numeral.decimal n).length ≤ 3 :=
    Numeral.length_digits_le (by decide) (show n < 1000 by omega)
  have hplain : ¬ (3 < (Numeral.decimal n).length
      ∨ (1 < (Numeral.decimal n).length ∧ (Numeral.decimal n).head? = some '0')) := by
    rintro (hlong | ⟨hlong, hzero⟩)
    · omega
    · rw [Numeral.length_decimal_of_head hzero] at hlong
      exact absurd hlong (Nat.lt_irrefl 1)
  rw [octet?, digitSpan_append (fun c hc => Numeral.isDigit_of_mem_decimal hc) hrest]
  simp only
  rw [if_neg hplain, Numeral.value?_decimal, Option.bind_some, if_pos (Nat.le_of_lt_succ hn)]

theorem group?_hex {g : Nat} (hg : g < 65536) {rest : List Char}
    (hrest : Stops Numeral.hexDigit? rest) :
    group? (Numeral.hex g ++ rest) = some (g, rest) := by
  have hlength : (Numeral.hex g).length ≤ 4 :=
    Numeral.length_digits_le (by decide) (show g < 65536 from hg)
  rw [group?, digitSpan_append (fun c hc => Numeral.hexDigit?_of_mem_hex hc) hrest]
  simp only
  rw [if_neg (by omega), Numeral.hexValue?_hex, Option.map_some]

/-! ### Four octets -/

@[simp]
theorem separated_cons (sep : Char) (item : List Char → Option (Nat × List Char))
    (cs : List Char) :
    separated sep false item (sep :: cs) = item cs := by
  rw [separated, if_neg Bool.false_ne_true]
  exact if_pos rfl

theorem separated_eq_none {sep : Char} {cs : List Char} (h : cs.head? ≠ some sep)
    (item : List Char → Option (Nat × List Char)) : separated sep false item cs = none := by
  cases cs with
  | nil => rfl
  | cons c cs =>
    rw [separated, if_neg Bool.false_ne_true]
    exact if_neg fun hc => h (congrArg some hc)

theorem dotted_append (n : Nat) (rest : List Char) :
    dotted n ++ rest = Numeral.decimal (n / 16777216 % 256)
      ++ '.' :: (Numeral.decimal (n / 65536 % 256)
        ++ '.' :: (Numeral.decimal (n / 256 % 256)
          ++ '.' :: (Numeral.decimal (n % 256) ++ rest))) := by
  simp [dotted, octets, Text.join, List.intercalate, List.intersperse]

/-- Four octets are read back where no digit follows. -/
theorem dotted?_dotted {n : Nat} (hn : n < 0x100000000) {rest : List Char}
    (hrest : Stops Numeral.digit? rest) :
    dotted? (dotted n ++ rest) = some (n, rest) := by
  have hpoint : ∀ cs, Stops Numeral.digit? ('.' :: cs) := stops_cons (by decide)
  have hlt : ∀ m : Nat, m % 256 < 256 := fun m => Nat.mod_lt m (by decide)
  have hsum : n / 16777216 % 256 * 16777216 + n / 65536 % 256 * 65536
      + n / 256 % 256 * 256 + n % 256 = n := by omega
  simp [dotted_append, dotted?, octet?_decimal (hlt _) (hpoint _),
    octet?_decimal (hlt _) hrest, hsum]

/-- Without a point no four octets are read. -/
theorem dotted?_eq_none {cs : List Char} (h : '.' ∉ cs) : dotted? cs = none := by
  rw [dotted?]
  cases hoctet : octet? cs with
  | none => rfl
  | some first =>
    obtain ⟨a, rest⟩ := first
    -- The first octet may be there, but no point follows it.
    obtain ⟨front, rfl, -⟩ := bare_octet? hoctet
    have hrest : rest.head? ≠ some '.' :=
      fun hhead => h (List.mem_append_right front (List.mem_of_mem_head? hhead))
    show (separated '.' false octet? rest).bind _ = none
    rw [separated_eq_none hrest]
    rfl

theorem separated_dotted?_eq_none {first : Bool} {cs : List Char} (h : '.' ∉ cs) :
    separated ':' first dotted? cs = none := by
  cases first with
  | true => exact dotted?_eq_none h
  | false =>
    cases cs with
    | nil => rfl
    | cons c cs =>
      by_cases hc : c = ':'
      · subst hc
        rw [separated_cons]
        exact dotted?_eq_none fun hmem => h (List.mem_cons_of_mem _ hmem)
      · have hhead : (c :: cs).head? ≠ some ':' := mt Option.some.inj hc
        exact separated_eq_none hhead _

/-! ### Groups -/

section
variable {first : Bool} {cs rest : List Char}

/-- Reading stops where neither four octets nor a group can be read. -/
theorem groups?_of_none (hdotted : separated ':' first dotted? cs = none)
    (hgroup : separated ':' first group? cs = none) (limit : Nat) :
    groups? limit first cs = ([], false, cs) := by
  cases limit with
  | zero => rfl
  | succ limit => rw [groups?, hdotted, ite_self, hgroup]

/-- A group is read where no four octets can be. -/
theorem groups?_of_group {g : Nat} (hdotted : separated ':' first dotted? cs = none)
    (hgroup : separated ':' first group? cs = some (g, rest)) (limit : Nat) :
    groups? (limit + 1) first cs
      = (g :: (groups? limit false rest).1, (groups? limit false rest).2) := by
  rw [groups?, hdotted, ite_self, hgroup]

/-- Four octets stand for two groups and end the reading. -/
theorem groups?_of_dotted {n : Nat}
    (hdotted : separated ':' first dotted? cs = some (n, rest)) (limit : Nat) :
    groups? (limit + 2) first cs = ([n / 65536, n % 65536], true, rest) := by
  rw [groups?, if_pos (Nat.succ_pos limit), hdotted]

end

/-- Groups with a colon in front of each, but for the first one where nothing stands
before it. -/
def listed (first : Bool) : List Nat → List Char
  | [] => []
  | g :: gs => (if first then [] else [':']) ++ (Numeral.hex g ++ listed false gs)

theorem joinGroups_eq (gs : List Nat) : joinGroups gs = listed true gs := by
  cases gs with
  | nil => rfl
  | cons g gs =>
    induction gs generalizing g with
    | nil => simp [joinGroups, listed, Text.join, List.intercalate]
    | cons h hs ih =>
      have hcons : joinGroups (g :: h :: hs)
          = Numeral.hex g ++ ':' :: joinGroups (h :: hs) := by
        simp [joinGroups, Text.join, List.intercalate]
      rw [hcons, ih]
      rfl

theorem point_not_mem_listed (first : Bool) (gs : List Nat) : '.' ∉ listed first gs := by
  induction gs generalizing first with
  | nil => exact List.not_mem_nil
  | cons g gs ih =>
    have hhex : '.' ∉ Numeral.hex g :=
      fun h => absurd (Numeral.hexDigit?_of_mem_hex h) (by decide)
    cases first <;> simp [listed, hhex, ih]

/-- What may stand behind groups: nothing, or a double colon and no point. -/
inductive Closes : List Char → Prop where
  | nil : Closes []
  | colons {cs : List Char} (h : '.' ∉ cs) : Closes (':' :: ':' :: cs)

namespace Closes

variable {rest : List Char} (h : Closes rest)
include h

theorem point_not_mem : '.' ∉ rest := by
  cases h with
  | nil => exact List.not_mem_nil
  | colons hcs => simpa using hcs

/-- No group goes on into what stands behind it. -/
theorem stops (gs : List Nat) : Stops Numeral.hexDigit? (listed false gs ++ rest) := by
  cases gs with
  | nil =>
    cases h with
    | nil => exact stops_nil _
    | colons => exact stops_cons (by decide) _
  | cons g gs => exact stops_cons (by decide) _

theorem groups?_eq (limit : Nat) (first : Bool) :
    groups? limit first rest = ([], false, rest) := by
  refine groups?_of_none (separated_dotted?_eq_none h.point_not_mem) ?_ limit
  cases h with
  | nil => cases first <;> rfl
  | colons => cases first <;> rfl

end Closes

/-- Groups are read back if there are not too many. -/
theorem groups?_listed {gs : List Nat} (hgs : ∀ g ∈ gs, g < 65536) {rest : List Char}
    (hrest : Closes rest) {limit : Nat} (hlimit : gs.length ≤ limit) (first : Bool) :
    groups? limit first (listed first gs ++ rest) = (gs, false, rest) := by
  induction gs generalizing limit first with
  | nil => exact hrest.groups?_eq limit first
  | cons g gs ih =>
    cases limit with
    | zero => exact absurd hlimit (Nat.not_succ_le_zero _)
    | succ limit =>
      have hpoint : '.' ∉ listed first (g :: gs) ++ rest :=
        fun h => (List.mem_append.mp h).elim (point_not_mem_listed _ _) hrest.point_not_mem
      have hread : group? (Numeral.hex g ++ (listed false gs ++ rest))
          = some (g, listed false gs ++ rest) :=
        group?_hex (hgs g List.mem_cons_self) (hrest.stops gs)
      have hgroup : separated ':' first group? (listed first (g :: gs) ++ rest)
          = some (g, listed false gs ++ rest) := by
        rw [listed, List.append_assoc, List.append_assoc]
        cases first with
        | true => exact hread
        | false => exact (separated_cons ':' group? _).trans hread
      rw [groups?_of_group (separated_dotted?_eq_none hpoint) hgroup, ih
        (fun h hmem => hgs h (List.mem_cons_of_mem g hmem)) (Nat.le_of_succ_le_succ hlimit)]

/-! ### Addresses -/

theorem colons?_joinGroups {gs : List Nat} (hgs : ∀ g ∈ gs, g < 65536)
    (hlength : gs.length = 8) :
    colons? (joinGroups gs) = some (ofGroups gs, []) := by
  have hread := groups?_listed hgs .nil (Nat.le_of_eq hlength) true
  rw [List.append_nil] at hread
  rw [joinGroups_eq, colons?, hread]
  exact if_pos hlength

/-- Groups around a double colon are read with the zeros that are missing between them. -/
theorem colons?_of_around {cs between rest : List Char} {front back : List Nat}
    {embedded : Bool} (hfront : groups? 8 true cs = (front, false, ':' :: ':' :: between))
    (hlength : front.length < 8)
    (hback : groups? (7 - front.length) true between = (back, embedded, rest)) :
    colons? cs = some (ofGroups
      (front ++ List.replicate (8 - front.length - back.length) 0 ++ back), rest) := by
  rw [colons?, hfront]
  simp only [hback]
  rw [if_neg (Nat.ne_of_lt hlength)]
  rfl

theorem colons?_around {front back : List Nat} {zeros : Nat} (hfront : ∀ g ∈ front, g < 65536)
    (hback : ∀ g ∈ back, g < 65536) (hzeros : 0 < zeros)
    (hlength : front.length + zeros + back.length = 8) :
    colons? (joinGroups front ++ ':' :: ':' :: joinGroups back)
      = some (ofGroups (front ++ List.replicate zeros 0 ++ back), []) := by
  have hlimit : front.length ≤ 8 := by omega
  rw [joinGroups_eq, joinGroups_eq]
  have hreadFront :=
    groups?_listed hfront (.colons (point_not_mem_listed true back)) hlimit true
  have hreadBack : groups? (7 - front.length) true (listed true back ++ [])
      = (back, false, []) :=
    groups?_listed hback .nil (by omega) true
  rw [List.append_nil] at hreadBack
  have hmissing : 8 - front.length - back.length = zeros := by omega
  rw [colons?_of_around hreadFront (by omega) hreadBack, hmissing]

theorem colons?_compressed {gs : List Nat} (hgs : ∀ g ∈ gs, g < 65536)
    (hlength : gs.length = 8) :
    colons? (compressed gs) = some (ofGroups gs, []) := by
  rcases compressed_cases gs with h | ⟨front, zeros, back, rfl, hzeros, h⟩
  · rw [h, colons?_joinGroups hgs hlength]
  · rw [List.length_append, List.length_append, List.length_replicate] at hlength
    rw [h]
    refine colons?_around (fun g hg => hgs g ?_) (fun g hg => hgs g ?_) (by omega) hlength
    · exact List.mem_append_left _ (List.mem_append_left _ hg)
    · exact List.mem_append_right _ hg

theorem point_not_mem_compressed (gs : List Nat) : '.' ∉ compressed gs := by
  rcases compressed_cases gs with h | ⟨front, zeros, back, -, -, h⟩
  · rw [h, joinGroups_eq]
    exact point_not_mem_listed true gs
  · rw [h, joinGroups_eq, joinGroups_eq]
    simp [point_not_mem_listed]

/-- An embedded address is read back with its mark: nothing stands in front of the double
colon, and behind it one group and four octets. -/
theorem colons?_embedded {n : Nat} (hn : n < 0x100000000) :
    colons? ([':', ':', 'f', 'f', 'f', 'f', ':'] ++ dotted n)
      = some (0xFFFF * 0x100000000 + n, []) := by
  have hmark : Numeral.hex 0xFFFF = ['f', 'f', 'f', 'f'] := by
    simp [Numeral.hex, Numeral.digits, Numeral.digitChar]
  have hgroup : separated ':' true group? (['f', 'f', 'f', 'f'] ++ ':' :: dotted n)
      = some (0xFFFF, ':' :: dotted n) := by
    rw [← hmark]
    exact group?_hex (by decide) (stops_cons (by decide) _)
  have hdotted : separated ':' false dotted? (':' :: dotted n) = some (n, []) := by
    rw [separated_cons, ← List.append_nil (dotted n)]
    exact dotted?_dotted hn (stops_nil _)
  have hback : groups? 7 true (['f', 'f', 'f', 'f'] ++ ':' :: dotted n)
      = ([0xFFFF, n / 65536, n % 65536], true, []) := by
    rw [groups?_of_group rfl hgroup, groups?_of_dotted hdotted]
  have hfront : groups? 8 true ([':', ':', 'f', 'f', 'f', 'f', ':'] ++ dotted n)
      = ([], false, ':' :: ':' :: (['f', 'f', 'f', 'f'] ++ ':' :: dotted n)) :=
    groups?_of_none rfl rfl 8
  rw [colons?_of_around hfront (by decide) hback]
  have hsum : ofGroups ([] ++ List.replicate 5 0 ++ [0xFFFF, n / 65536, n % 65536])
      = 0xFFFF * 0x100000000 + n := by
    simp [ofGroups]
    omega
  exact congrArg (fun m => some (m, [])) hsum

/-- The text of an address of the newer version is not read as one of the older version,
and its groups are read back. -/
theorem read_chars_v6 (bits : BitVec 128) :
    v4? (chars (v6 bits)) = none ∧ colons? (chars (v6 bits)) = some (bits.toNat, []) := by
  rw [chars]
  split
  · rename_i hmark
    have hlow : bits.toNat % 0x100000000 < 0x100000000 := Nat.mod_lt _ (by decide)
    have hsum : 0xFFFF * 0x100000000 + bits.toNat % 0x100000000 = bits.toNat := by omega
    refine ⟨rfl, ?_⟩
    rw [colons?_embedded hlow, hsum]
  · constructor
    · rw [v4?, dotted?_eq_none (point_not_mem_compressed _)]
      rfl
    · rw [colons?_compressed (fun _ => lt_of_mem_groups) (length_groups _),
        ofGroups_groups bits.isLt]

/-- **An address is read back from its canonical text**, in decimal octets, in groups with
or without a double colon, and with an embedded address. -/
theorem ofChars?_chars (a : Address) : ofChars? a.chars = some a := by
  cases a with
  | v4 bits =>
    rw [ofChars?_eq_v4_iff, chars, v4?, ← List.append_nil (dotted _),
      dotted?_dotted bits.isLt (stops_nil _)]
    exact congrArg some (BitVec.ofNat_toNat ..)
  | v6 bits =>
    obtain ⟨hnone, hcolons⟩ := read_chars_v6 bits
    rw [ofChars?_eq_v6_iff, v6?, hcolons]
    exact ⟨hnone, congrArg some (BitVec.ofNat_toNat ..)⟩

end Address

namespace Network

theorem length?_decimal {bound n : Nat} (h : n ≤ bound) :
    length? bound (Numeral.decimal n) = some n :=
  Numeral.unsigned?_eq_some_iff.mpr ⟨⟨[], 0, .inl rfl, rfl⟩, h⟩

/-- **A network is read back from its text** if its length fits its address. -/
theorem ofChars?_chars {n : Network} (h : n.length.toNat ≤ n.address.width) :
    ofChars? n.chars = some n := by
  obtain ⟨address, length⟩ := n
  have haddress := Address.ofChars?_chars address
  have hslash : '/' ∉ Numeral.decimal length.toNat :=
    fun hmem => absurd (Numeral.isDigit_of_mem_decimal hmem) (by decide)
  have hlength : length.toNat.toUInt8 = length := UInt8.ofNat_toNat
  rw [chars, ofChars?, sides?_of_not_mem (Address.slash_not_mem haddress) hslash]
  simp only [Option.bind_eq_bind, Option.bind_some]
  cases address with
  | v4 bits =>
    have hread : length? 32 (Numeral.decimal length.toNat) = some length.toNat :=
      length?_decimal h
    rw [Address.ofChars?_eq_v4_iff.mp haddress, hread]
    simp only [Option.some_or, Option.bind_some, hlength]
    rfl
  | v6 bits =>
    have hread : length? 128 (Numeral.decimal length.toNat) = some length.toNat :=
      length?_decimal h
    obtain ⟨hnone, hsome⟩ := Address.ofChars?_eq_v6_iff.mp haddress
    rw [hnone, hsome, hread]
    simp only [Option.bind_some, hlength]
    rfl

end Network

end PacketClassifier
