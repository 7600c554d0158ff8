/-
Fields that were written are read, whatever stands behind them.

`Takes take s field s'` says that a message's way to take fields in turns `s` into `s'` at
the bytes of one field, and `TakesAll take s bs s'` that it does so at the bytes of
several. How far a reader may go and what follows are settled once:

* `TakesAll.readMessage`: a message behind its key and its length is taken in as a whole;
* `TakesAll.readAll`: so is a whole input.

What is left for each message is to say which fields it is written as.
-/
import Mathlib
import PacketClassifier.Proofs.Except
import PacketClassifier.Proofs.Text.Utf8
import PacketClassifier.Proofs.Wire.Varint
import PacketClassifier.Wire.Field

namespace PacketClassifier

namespace Wire

open Steps

/-! ### Single readings -/

theorem varint_of_valid {bs : Bytes} {n : Nat} (h : Varint.Valid bs n) (rest : Bytes) :
    varint (bs ++ rest) = .ok (n, rest) := by
  rw [varint, h.decode?]

theorem varint_encode {n : Nat} (h : n < 2 ^ 64) (rest : Bytes) :
    varint (Varint.encode n ++ rest) = .ok (n, rest) :=
  varint_of_valid (Varint.valid_encode h) rest

theorem WireType.ofCode?_code (w : WireType) : WireType.ofCode? w.code = some w := by
  cases w <;> rfl

theorem WireType.code_lt (w : WireType) : w.code < 8 := by
  cases w <;> decide

/-- Whether bytes spell a key with a field number of 29 bits. -/
structure Key.Spells (bs : Bytes) (k : Key) : Prop where
  valid : Varint.Valid bs (k.number * 8 + k.wire.code)
  pos : 0 < k.number
  lt : k.number < 2 ^ 29

theorem Key.spells_encode {k : Key} (h : 0 < k.number) (h' : k.number < 2 ^ 29) :
    Key.Spells k.encode k := by
  have hc := k.wire.code_lt
  exact ⟨Varint.valid_encode (by omega), h, h'⟩

theorem Key.Spells.ne_nil {bs : Bytes} {k : Key} (h : Key.Spells bs k) : bs ≠ [] :=
  h.valid.spells.ne_nil

/-- A key reads back, however it is spelled. -/
theorem key_of_spells {bs : Bytes} {k : Key} (h : Key.Spells bs k) (rest : Bytes) :
    key (bs ++ rest) = .ok (k, rest) := by
  have hpos := h.pos
  have hlt := h.lt
  have hc := k.wire.code_lt
  have hm : (k.number * 8 + k.wire.code) % 8 = k.wire.code := by omega
  have hd : (k.number * 8 + k.wire.code) / 8 = k.number := by omega
  rw [key, varint_of_valid h.valid, ok_bind]
  simp only [hm, hd, WireType.ofCode?_code]
  rw [if_neg (by omega), if_neg (by omega)]
  rfl

theorem key_encode {k : Key} (h : 0 < k.number) (h' : k.number < 2 ^ 29) (rest : Bytes) :
    key (k.encode ++ rest) = .ok (k, rest) :=
  key_of_spells (Key.spells_encode h h') rest

theorem readNumber_encode {k : Key} (hk : k.wire = .varint) {n : Nat} (h : n < 2 ^ 64)
    (rest : Bytes) :
    readNumber k (Varint.encode n ++ rest) = .ok (n, rest) := by
  rw [readNumber, expect, if_pos hk, ok_bind, varint_encode h]

theorem readBytes_encode {k : Key} (hk : k.wire = .delimited) {value : Bytes}
    (h : value.length < 2 ^ 64) (rest : Bytes) :
    readBytes k (Varint.encode value.length ++ (value ++ rest)) = .ok (value, rest) := by
  rw [readBytes, expect, if_pos hk, ok_bind, varint_encode h, ok_bind]
  show takeBytes value.length (value ++ rest) = _
  rw [takeBytes, if_neg (by simp), List.take_left, List.drop_left]

theorem readString_encode {k : Key} (hk : k.wire = .delimited) {s : String}
    (h : (Utf8.ofString s).length < 2 ^ 64) (rest : Bytes) :
    readString k (Varint.encode (Utf8.ofString s).length ++ (Utf8.ofString s ++ rest))
      = .ok (s, rest) := by
  rw [readString, readBytes_encode hk h, ok_bind]
  simp only [Utf8.string?_ofString]
  rfl

/-! ### Fields of a message -/

variable {σ : Type} {take : FieldReader σ}

/-- Whether the bytes of one field turn `s` into `s'`, whatever follows them. -/
def Takes (take : FieldReader σ) (s : σ) (field : Bytes) (s' : σ) : Prop :=
  field ≠ [] ∧ ∀ rest, ∃ k bs, key (field ++ rest) = .ok (k, bs)
    ∧ take k s bs = .ok (s', rest)

/-- Whether the bytes of several fields turn `s` into `s'`. -/
inductive TakesAll (take : FieldReader σ) : σ → Bytes → σ → Prop where
  | nil (s : σ) : TakesAll take s [] s
  | cons {s t u : σ} {field bs : Bytes} :
      Takes take s field t → TakesAll take t bs u → TakesAll take s (field ++ bs) u

theorem TakesAll.append {s t u : σ} {as bs : Bytes} (h : TakesAll take s as t)
    (h' : TakesAll take t bs u) :
    TakesAll take s (as ++ bs) u := by
  induction h with
  | nil s => exact h'
  | cons hf _ ih =>
    rw [List.append_assoc]
    exact .cons hf (ih h')

theorem takes_numberField {s t : σ} {number value : Nat} (h : 0 < number)
    (h' : number < 2 ^ 29)
    (ht : ∀ rest, take ⟨number, .varint⟩ s (Varint.encode value ++ rest) = .ok (t, rest)) :
    Takes take s (numberField number value) t := by
  refine ⟨fun hn => Varint.encode_ne_nil _ (List.append_eq_nil_iff.mp hn).1, fun rest => ?_⟩
  refine ⟨⟨number, .varint⟩, Varint.encode value ++ rest, ?_, ht rest⟩
  rw [numberField, List.append_assoc]
  exact key_encode (k := ⟨number, .varint⟩) h h' _

/-- Bytes behind their key and their length are taken in by whatever takes in the length
and the bytes. -/
theorem takes_bytesField {s t : σ} {number : Nat} {value : Bytes} (h : 0 < number)
    (h' : number < 2 ^ 29)
    (ht : ∀ rest, take ⟨number, .delimited⟩ s (Varint.encode value.length ++ (value ++ rest))
      = .ok (t, rest)) :
    Takes take s (bytesField number value) t := by
  refine ⟨fun hn => ?_, fun rest => ?_⟩
  · have hk := (List.append_eq_nil_iff.mp (List.append_eq_nil_iff.mp hn).1).1
    exact Varint.encode_ne_nil _ hk
  · refine ⟨⟨number, .delimited⟩, Varint.encode value.length ++ (value ++ rest), ?_, ht rest⟩
    rw [bytesField, List.append_assoc, List.append_assoc]
    exact key_encode (k := ⟨number, .delimited⟩) h h' _

theorem length_le_bytesField (number : Nat) (value : Bytes) :
    value.length ≤ (bytesField number value).length := by
  rw [bytesField, List.length_append]
  exact Nat.le_add_left _ _

/-- Fields are taken in one after another, and what stands behind them comes next. The
bound on the number of fields still suffices there, because a field has a byte at least.
-/
theorem TakesAll.fieldsUntil_append {s t : σ} {bs : Bytes} (h : TakesAll take s bs t)
    {limit : Nat} {rest : Bytes} (hl : limit ≤ rest.length) :
    ∀ {n}, bs.length + rest.length ≤ n + limit →
      ∃ m, rest.length ≤ m + limit
        ∧ fieldsUntil take limit n s (bs ++ rest) = fieldsUntil take limit m t rest := by
  induction h with
  | nil s =>
    intro n hn
    exact ⟨n, by simpa using hn, rfl⟩
  | @cons s t u field bs hf _ ih =>
    intro n hn
    obtain ⟨hne, hk⟩ := hf
    obtain ⟨k, ks, hkey, htake⟩ := hk (bs ++ rest)
    have hpos : 0 < field.length := List.length_pos_iff.mpr hne
    rw [List.length_append] at hn
    obtain ⟨n, rfl⟩ : ∃ m, n = m + 1 := ⟨n - 1, by omega⟩
    obtain ⟨m, hm, heq⟩ := ih (n := n) (by omega)
    refine ⟨m, hm, ?_⟩
    rw [List.append_assoc, fieldsUntil, if_neg (by simp only [List.length_append]; omega),
      hkey, ok_bind]
    simp only [htake, ok_bind]
    exact heq

/-- Fields are taken in up to their end, if they may be as many as they have bytes. -/
theorem TakesAll.fieldsUntil {s t : σ} {bs : Bytes} (h : TakesAll take s bs t) (rest : Bytes)
    {n : Nat} (hn : bs.length ≤ n) :
    fieldsUntil take rest.length n s (bs ++ rest) = .ok (t, rest) := by
  obtain ⟨m, _, heq⟩ :=
    h.fieldsUntil_append (Nat.le_refl rest.length) (Nat.add_le_add_right hn _)
  rw [heq]
  cases m with
  | zero => rfl
  | succ m => rw [Wire.fieldsUntil, if_pos (Nat.le_refl _)]

/-- A message in a field is taken in as a whole. -/
theorem TakesAll.readMessage {take : Nat → FieldReader σ} {depth : Nat} {s t : σ} {bs : Bytes}
    (h : TakesAll (take depth) s bs t) (number : Nat) (hl : bs.length < 2 ^ 64)
    (rest : Bytes) :
    readMessage take (depth + 1) ⟨number, .delimited⟩ s
      (Varint.encode bs.length ++ (bs ++ rest))
      = .ok (t, rest) := by
  have hlen : (bs ++ rest).length - bs.length = rest.length := by
    rw [List.length_append, Nat.add_sub_cancel_left]
  rw [Wire.readMessage, expect, if_pos rfl, ok_bind]
  simp only [varint_encode hl, ok_bind, hlen, h.fieldsUntil rest (Nat.le_refl _)]
  rw [if_neg (by simp), if_pos trivial]
  rfl

theorem TakesAll.readAll {s t : σ} {bs : Bytes} (h : TakesAll take s bs t) :
    readAll take s bs = .ok t := by
  have hf : Wire.fieldsUntil take 0 bs.length s (bs ++ []) = .ok (t, []) :=
    h.fieldsUntil [] (Nat.le_refl _)
  rw [List.append_nil] at hf
  rw [Wire.readAll, hf, ok_bind]
  rfl

end Wire

end PacketClassifier
