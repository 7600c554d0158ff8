/-
Text written as UTF-8 reads back.

* `Utf8.decode?_encode`, `Utf8.string?_ofString`: the bytes of a text are valid and stand
  for that text;
* `Utf8.decodeLossy_encode`: and there is nothing in them to replace.
* `Utf8.toNat_of_mem_encodeChar`: a byte below 0x80 is always the whole of a character.

Everything rests on one step: the bytes of a character are read as that character,
whatever follows them (`Utf8.step_encodeChar`).
-/
import PacketClassifier.Text.Utf8

namespace PacketClassifier

namespace Utf8

/-- A byte written from a small number has that number as its value. -/
theorem toNat_toUInt8 {n : Nat} (h : n < 256) : n.toUInt8.toNat = n := by
  rw [Nat.toUInt8, UInt8.toNat_ofNat']
  exact Nat.mod_eq_of_lt h

theorem leadBits_one (b : Nat) : leadBits b 0 = b := rfl

theorem leadBits_two (b : Nat) : leadBits b 1 = b - 0xC0 := rfl

theorem leadBits_three (b : Nat) : leadBits b 2 = b - 0xE0 := rfl

theorem leadBits_four (b : Nat) : leadBits b 3 = b - 0xF0 := rfl

theorem continuation_zero (acc length low high : Nat) (bs : Bytes) :
    continuation acc length 0 low high bs = .char (Char.ofNat acc) length := rfl

/-- A continuation byte in its range adds its six bits. -/
theorem continuation_cons {acc length following low high n : Nat} (hn : n < 256)
    (hl : low ≤ n) (hh : n ≤ high) (bs : Bytes) :
    continuation acc length (following + 1) low high (n.toUInt8 :: bs)
      = continuation (acc * 64 + (n - 0x80)) (length + 1) following 0x80 0xBF bs := by
  rw [continuation, toNat_toUInt8 hn, if_pos ⟨hl, hh⟩]

theorem step_toUInt8 {n following low high : Nat} (hn : n < 256)
    (hl : lead? n = some (following, low, high)) (bs : Bytes) :
    step n.toUInt8 bs = continuation (leadBits n following) 1 following low high bs := by
  rw [step, toNat_toUInt8 hn, hl]

theorem lead?_one {n : Nat} (h : n < 0x80) : lead? n = some (0, 0, 0) := by
  rw [lead?, if_pos h]

theorem lead?_two {n : Nat} (h : 0xC2 ≤ n) (h' : n ≤ 0xDF) :
    lead? n = some (1, 0x80, 0xBF) := by
  rw [lead?, if_neg (by omega), if_pos ⟨h, h'⟩]

/-- The bounds of the second of three bytes leave out overlong forms and surrogates. -/
theorem lead?_three {n : Nat} (h : 0xE0 ≤ n) (h' : n ≤ 0xEF) :
    lead? n = some (2, if n = 0xE0 then 0xA0 else 0x80, if n = 0xED then 0x9F else 0xBF) := by
  unfold lead?
  grind

/-- The bounds of the second of four bytes leave out overlong forms and what lies beyond
all characters. -/
theorem lead?_four {n : Nat} (h : 0xF0 ≤ n) (h' : n ≤ 0xF4) :
    lead? n = some (3, if n = 0xF0 then 0x90 else 0x80, if n = 0xF4 then 0x8F else 0xBF) := by
  unfold lead?
  grind

/-- The bytes of a character are read as that character, whatever follows. -/
theorem step_encodeChar {c : Char} {b : UInt8} {bs : Bytes} (h : encodeChar c = b :: bs)
    (rest : Bytes) :
    step b (bs ++ rest) = .char c (bs.length + 1) := by
  have hv : c.toNat < 0xD800 ∨ 0xDFFF < c.toNat ∧ c.toNat < 0x110000 := c.valid
  have hc : Char.ofNat c.toNat = c := Char.ofNat_toNat c
  obtain ⟨n, hn⟩ : ∃ n, c.toNat = n := ⟨_, rfl⟩
  rw [encodeChar, hn] at h
  rw [hn] at hv hc
  -- One case for each number of bytes; the bounds of the second byte are where the ranges
  -- of characters enter.
  split at h
  · rename_i h1
    obtain ⟨rfl, rfl⟩ := List.cons.inj h
    rw [step_toUInt8 (by omega) (lead?_one h1), continuation_zero, leadBits_one, hc]
    rfl
  · split at h
    · rename_i h1 h2
      obtain ⟨rfl, rfl⟩ := List.cons.inj h
      rw [step_toUInt8 (by omega) (lead?_two (by omega) (by omega)), List.cons_append,
        continuation_cons (by omega) (by omega) (by omega), continuation_zero, leadBits_two]
      have e : Char.ofNat ((192 + n / 64 - 192) * 64 + (128 + n % 64 - 128)) = c :=
        (congrArg Char.ofNat (by omega)).trans hc
      rw [e]
      rfl
    · split at h
      · rename_i h1 h2 h3
        obtain ⟨rfl, rfl⟩ := List.cons.inj h
        rw [step_toUInt8 (by omega) (lead?_three (by omega) (by omega)), List.cons_append,
          continuation_cons (by omega) (by split <;> omega) (by split <;> omega),
          List.cons_append, continuation_cons (by omega) (by omega) (by omega),
          continuation_zero, leadBits_three]
        have e : Char.ofNat (((224 + n / 4096 - 224) * 64 + (128 + n / 64 % 64 - 128)) * 64
            + (128 + n % 64 - 128)) = c := (congrArg Char.ofNat (by omega)).trans hc
        rw [e]
        rfl
      · rename_i h1 h2 h3
        obtain ⟨rfl, rfl⟩ := List.cons.inj h
        rw [step_toUInt8 (by omega) (lead?_four (by omega) (by omega)), List.cons_append,
          continuation_cons (by omega) (by split <;> omega) (by split <;> omega),
          List.cons_append, continuation_cons (by omega) (by omega) (by omega),
          List.cons_append, continuation_cons (by omega) (by omega) (by omega),
          continuation_zero, leadBits_four]
        have e :
            Char.ofNat ((((240 + n / 262144 - 240) * 64 + (128 + n / 4096 % 64 - 128)) * 64
              + (128 + n / 64 % 64 - 128)) * 64 + (128 + n % 64 - 128)) = c :=
          (congrArg Char.ofNat (by omega)).trans hc
        rw [e]
        rfl

/-- A byte below 0x80 is no part of a longer character. -/
theorem toNat_of_mem_encodeChar {c : Char} {b : UInt8} (h : b ∈ encodeChar c)
    (hb : b.toNat < 0x80) :
    c.toNat = b.toNat := by
  have hv : c.toNat < 0xD800 ∨ 0xDFFF < c.toNat ∧ c.toNat < 0x110000 := c.valid
  -- No byte of a longer character is below 0x80.
  have hhigh : ∀ n, 0x80 ≤ n → n < 256 → b ≠ n.toUInt8 := by
    rintro n hlow hn rfl
    rw [toNat_toUInt8 hn] at hb
    omega
  simp only [encodeChar] at h
  split at h
  · obtain rfl := List.mem_singleton.mp h
    exact (toNat_toUInt8 (by omega)).symm
  · exfalso
    split at h
    · simp only [List.mem_cons, List.not_mem_nil, or_false] at h
      rcases h with h | h <;> exact hhigh _ (by omega) (by omega) h
    split at h
    · simp only [List.mem_cons, List.not_mem_nil, or_false] at h
      rcases h with h | h | h <;> exact hhigh _ (by omega) (by omega) h
    · simp only [List.mem_cons, List.not_mem_nil, or_false] at h
      rcases h with h | h | h | h <;> exact hhigh _ (by omega) (by omega) h

theorem encodeChar_ne_nil (c : Char) : encodeChar c ≠ [] := by
  simp only [encodeChar]
  split
  · simp
  · split
    · simp
    · split <;> simp

theorem decodeWithin_encode (cs : List Char) (n : Nat) (h : (encode cs).length ≤ n) :
    decodeWithin n (encode cs) = some cs := by
  induction cs generalizing n with
  | nil => cases n <;> rfl
  | cons c cs ih =>
    obtain ⟨b, bs, hb⟩ := List.exists_cons_of_ne_nil (encodeChar_ne_nil c)
    have he : encode (c :: cs) = b :: (bs ++ encode cs) := by
      rw [encode, List.flatMap_cons, hb]
      rfl
    rw [he] at h ⊢
    rw [List.length_cons, List.length_append] at h
    -- There is a byte to read, so the bound is not used up.
    obtain ⟨n, rfl⟩ : ∃ m, n = m + 1 := ⟨n - 1, by omega⟩
    have hd : (bs ++ encode cs).drop (bs.length + 1 - 1) = encode cs := by
      rw [Nat.add_sub_cancel, List.drop_left]
    simp only [decodeWithin, step_encodeChar hb, hd]
    rw [ih n (by omega)]
    rfl

/-- What a text was written to is read as that text. -/
@[simp]
theorem decode?_encode (cs : List Char) : decode? (encode cs) = some cs :=
  decodeWithin_encode cs _ (Nat.le_refl _)

@[simp]
theorem string?_ofString (s : String) : string? (ofString s) = some s := by
  rw [string?, ofString, decode?_encode, Option.map_some, String.ofList_toList]

theorem decodeLossyWithin_eq {n : Nat} :
    ∀ {bs : Bytes} {cs : List Char}, decodeWithin n bs = some cs →
      decodeLossyWithin n bs = cs := by
  induction n with
  | zero =>
    intro bs cs h
    cases bs with
    | nil => exact Option.some.inj h
    | cons b bs => cases h
  | succ n ih =>
    intro bs cs h
    cases bs with
    | nil => exact Option.some.inj h
    | cons b bs =>
      rw [decodeWithin] at h
      rw [decodeLossyWithin]
      cases hs : step b bs with
      | char c length =>
        simp only [hs] at h
        obtain ⟨ds, hds, rfl⟩ := Option.map_eq_some_iff.mp h
        exact congrArg (c :: ·) (ih hds)
      | invalid length =>
        simp only [hs] at h
        cases h

@[simp]
theorem decodeLossy_encode (cs : List Char) : decodeLossy (encode cs) = cs :=
  decodeLossyWithin_eq (decode?_encode cs)

end Utf8

end PacketClassifier
