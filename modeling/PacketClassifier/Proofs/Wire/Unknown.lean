/-
Fields that a message does not know are skipped.

`Wire.Unknown known depth bs` says that the bytes are well-formed fields whose numbers are
none of the known ones, with no more groups open inside one another than `depth` allows.
Inside a group every number will do, because nobody looks at it.

* `Unknown.skipGroup`: fields inside a group are skipped up to the end of the group;
* `Unknown.takesAll`: a message that knows other numbers only stays as it is.
-/
import PacketClassifier.Proofs.Wire.Field

namespace PacketClassifier

namespace Wire

open Steps

/-- Whether bytes are the value of a field of the given wire type, other than a group. -/
inductive PlainValue : WireType → Bytes → Prop where
  | varint {bs : Bytes} {n : Nat} : Varint.Valid bs n → PlainValue .varint bs
  | fixed64 {bs : Bytes} : bs.length = 8 → PlainValue .fixed64 bs
  | fixed32 {bs : Bytes} : bs.length = 4 → PlainValue .fixed32 bs
  | delimited {length value : Bytes} :
      Varint.Valid length value.length → PlainValue .delimited (length ++ value)

/-- Whether bytes are well-formed fields with other numbers than the known ones. A field
takes one level of the depth, and a group leaves the others to the fields inside it. -/
inductive Unknown : List Nat → Nat → Bytes → Prop where
  | nil {known : List Nat} {depth : Nat} : Unknown known depth []
  | plain {known : List Nat} {depth : Nat} {k : Key} {key value rest : Bytes} :
      k.number ∉ known → Key.Spells key k → PlainValue k.wire value →
        Unknown known (depth + 1) rest →
        Unknown known (depth + 1) (key ++ (value ++ rest))
  | group {known : List Nat} {depth number : Nat} {start body stop rest : Bytes} :
      number ∉ known → Key.Spells start ⟨number, .groupStart⟩ → Unknown [] depth body →
        Key.Spells stop ⟨number, .groupEnd⟩ → Unknown known (depth + 1) rest →
          Unknown known (depth + 1) (start ++ (body ++ (stop ++ rest)))

theorem PlainValue.ne_groupEnd {w : WireType} {value : Bytes} (h : PlainValue w value) :
    w ≠ .groupEnd := by
  cases h <;> exact WireType.noConfusion

theorem takeBytes_append {n : Nat} {value : Bytes} (h : value.length = n) (rest : Bytes) :
    takeBytes n (value ++ rest) = .ok (value, rest) := by
  obtain rfl := h
  rw [takeBytes, if_neg (by simp), List.take_left, List.drop_left]

theorem skipField_plain {k : Key} {value : Bytes} (h : PlainValue k.wire value) (depth : Nat)
    (rest : Bytes) :
    skipField (depth + 1) k (value ++ rest) = .ok rest := by
  obtain ⟨number, wire⟩ := k
  cases h with
  | varint hv =>
    simp only [skipField, varint_of_valid hv, ok_bind]
    rfl
  | fixed64 hl | fixed32 hl =>
    simp only [skipField, takeBytes_append hl, ok_bind]
    rfl
  | delimited hv =>
    simp only [skipField, List.append_assoc, varint_of_valid hv,
      takeBytes_append rfl, ok_bind]
    rfl

/-- Fields inside a group are skipped, and its end with them. -/
theorem Unknown.skipGroup {known : List Nat} {depth : Nat} {bs : Bytes}
    (h : Unknown known depth bs) :
    ∀ {number : Nat} {stop rest : Bytes} {n : Nat}, Key.Spells stop ⟨number, .groupEnd⟩ →
      bs.length < n →
      skipGroup (skipField depth) number n (bs ++ (stop ++ rest)) = .ok rest := by
  induction h with
  | nil =>
    intro number stop rest n hstop hn
    obtain ⟨n, rfl⟩ : ∃ m, n = m + 1 := ⟨n - 1, by omega⟩
    rw [List.nil_append, Wire.skipGroup, key_of_spells hstop, ok_bind]
    simp only [if_true]
    rfl
  | @plain known depth k key value more _ hkey hvalue _ ih =>
    intro number stop rest n hstop hn
    have hpos : 0 < key.length := List.length_pos_iff.mpr hkey.ne_nil
    simp only [List.length_append] at hn
    obtain ⟨n, rfl⟩ : ∃ m, n = m + 1 := ⟨n - 1, by omega⟩
    simp only [List.append_assoc]
    rw [Wire.skipGroup, key_of_spells hkey, ok_bind]
    simp only [if_neg hvalue.ne_groupEnd, skipField_plain hvalue, ok_bind]
    exact ih hstop (by omega)
  | @group known depth inner start body end' more _ hstart _ hend _ ihbody ih =>
    intro number stop rest n hstop hn
    have hpos : 0 < start.length := List.length_pos_iff.mpr hstart.ne_nil
    simp only [List.length_append] at hn
    obtain ⟨n, rfl⟩ : ∃ m, n = m + 1 := ⟨n - 1, by omega⟩
    -- The group inside ends at its own end, whatever number the group around it has.
    have hbody : ∀ rest : Bytes,
        skipField (depth + 1) ⟨inner, .groupStart⟩ (body ++ (end' ++ rest)) = .ok rest := by
      intro rest
      exact ihbody hend (by simp only [List.length_append]; omega)
    simp only [List.append_assoc]
    rw [Wire.skipGroup, key_of_spells hstart, ok_bind]
    simp only [reduceCtorEq, if_false, hbody, ok_bind]
    exact ih hstop (by omega)

variable {σ : Type} {take : FieldReader σ} {known : List Nat} {depth : Nat}

/-- Whether a message skips the fields whose numbers it does not know. -/
def SkipsUnknown (take : FieldReader σ) (known : List Nat) (depth : Nat) : Prop :=
  ∀ k s bs, k.number ∉ known → take k s bs = skipUnknown depth k s bs

theorem takes_unknown {k : Key} {key value : Bytes} {s : σ}
    (ht : SkipsUnknown take known depth) (hk : k.number ∉ known) (hkey : Key.Spells key k)
    (hskip : ∀ rest, skipField depth k (value ++ rest) = .ok rest) :
    Takes take s (key ++ value) s := by
  refine ⟨fun hn => hkey.ne_nil (List.append_eq_nil_iff.mp hn).1,
    fun rest => ⟨k, value ++ rest, ?_, ?_⟩⟩
  · rw [List.append_assoc]
    exact key_of_spells hkey _
  · rw [ht k s _ hk, skipUnknown, hskip, ok_bind]
    rfl

/-- Fields that a message does not know leave it as it is. -/
theorem Unknown.takesAll {bs : Bytes} (h : Unknown known depth bs)
    (ht : SkipsUnknown take known depth) (s : σ) :
    TakesAll take s bs s := by
  induction h with
  | nil => exact .nil s
  | plain hn hkey hvalue _ ih =>
    rw [← List.append_assoc]
    exact .cons (takes_unknown ht hn hkey (skipField_plain hvalue _)) (ih ht)
  | @group known depth number start body stop rest hn hstart hbody hstop _ _ ih =>
    have hskip : ∀ rest : Bytes,
        skipField (depth + 1) ⟨number, .groupStart⟩ ((body ++ stop) ++ rest) = .ok rest := by
      intro rest
      rw [List.append_assoc]
      exact hbody.skipGroup hstop (by simp only [List.length_append]; omega)
    have hfield := takes_unknown (s := s) ht (k := ⟨number, .groupStart⟩) hn hstart hskip
    simpa only [List.append_assoc] using TakesAll.cons hfield (ih ht)

end Wire

end PacketClassifier
