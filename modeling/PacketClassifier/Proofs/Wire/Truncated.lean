/-
A ruleset that is cut off is never misread.

The bytes of a ruleset are records one after another: its traffic, unless that is the
older one, and its rules. Behind a whole record they are the bytes of a shorter ruleset.
Anywhere else the cut falls into a key, a number or a length, which then does not end
(`Wire.varint_take`), or into a rule, whose length is more than what is left
(`Wire.readMessage_take`); so nothing inside a rule is looked at where the rule itself is
not whole. Either way the record is refused (`Wire.Refuses`), and with it everything
(`Wire.TakesAll.readAll_append_eq_error`).

* `Wire.cut_cases`: a cut is behind a record, or the bytes in front of it are refused;
* `Wire.decode_take`: what is decoded of a ruleset that is cut off.
-/
import PacketClassifier.Proofs.Wire.Ruleset

namespace PacketClassifier

namespace Wire

open Steps

/-! ### Values that are cut off -/

theorem varint_take {n i : Nat} (h : i < (Varint.encode n).length) :
    varint ((Varint.encode n).take i) = fail .badVarint := by
  rw [varint, (Varint.spells_encode n).decode?_take h]

theorem key_take {k : Key} {i : Nat} (h : i < k.encode.length) :
    key (k.encode.take i) = fail .badVarint := by
  rw [Key.encode] at h ⊢
  rw [key, varint_take h]
  rfl

/-- What is left of two pieces behind a cut in the second one. -/
theorem take_append_of_le {as bs : Bytes} {i : Nat} (h : as.length ≤ i) :
    (as ++ bs).take i = as ++ bs.take (i - as.length) := by
  rw [List.take_append, List.take_of_length_le h]

theorem readSigned_take {number n i : Nat} (h : i < (Varint.encode n).length) :
    readSigned ⟨number, .varint⟩ ((Varint.encode n).take i) = fail .badVarint := by
  rw [readSigned, readNumber, expect, if_pos rfl, ok_bind, varint_take h]
  rfl

/-- A message that is cut off is refused for its length already. -/
theorem readMessage_take {σ : Type} (take : Nat → FieldReader σ) (depth number : Nat) (s : σ)
    {body : Bytes} {i : Nat} (hl : body.length < 2 ^ 64)
    (h : i < (Varint.encode body.length ++ body).length) :
    ∃ m, readMessage take depth ⟨number, .delimited⟩ s
      ((Varint.encode body.length ++ body).take i) = .error m := by
  cases depth with
  | zero => exact ⟨_, rfl⟩
  | succ depth =>
    rw [readMessage, expect, if_pos rfl, ok_bind]
    by_cases hi : i < (Varint.encode body.length).length
    · rw [List.take_append_of_le_length (Nat.le_of_lt hi), varint_take hi]
      exact ⟨_, rfl⟩
    · rw [List.length_append] at h
      have hshort : (body.take (i - (Varint.encode body.length).length)).length
          < body.length := by
        rw [List.length_take]
        omega
      rw [take_append_of_le (Nat.le_of_not_lt hi), varint_encode hl, ok_bind]
      simp only [if_pos hshort]
      exact ⟨_, rfl⟩

/-! ### Fields that are cut off -/

variable {σ : Type} {take : FieldReader σ} {s t : σ}

/-- Whether the bytes where a field should be are refused. -/
def Refuses (take : FieldReader σ) (s : σ) (bs : Bytes) : Prop :=
  bs ≠ [] ∧ ((∃ m, key bs = .error m) ∨ ∃ k rest m, key bs = .ok (k, rest)
    ∧ take k s rest = .error m)

/-- A field that is cut off is refused, if its value is wherever it is cut off. -/
theorem refuses_take {k : Key} {value : Bytes} {i : Nat} (h : 0 < k.number)
    (h' : k.number < 2 ^ 29) (hi : 0 < i) (hl : i < (k.encode ++ value).length)
    (ht : ∀ j, j < value.length → ∃ m, take k s (value.take j) = .error m) :
    Refuses take s ((k.encode ++ value).take i) := by
  rw [List.length_append] at hl
  constructor
  · intro hn
    have hlen := congrArg List.length hn
    rw [List.length_take, List.length_append, List.length_nil] at hlen
    omega
  · by_cases hk : i < k.encode.length
    · left
      rw [List.take_append_of_le_length (Nat.le_of_lt hk), key_take hk]
      exact ⟨_, rfl⟩
    · right
      obtain ⟨m, hm⟩ := ht (i - k.encode.length) (by omega)
      rw [take_append_of_le (Nat.le_of_not_lt hk), key_encode h h']
      exact ⟨k, _, m, rfl, hm⟩

/-- Where a field is refused, the fields in front of it do not help. -/
theorem TakesAll.readAll_append_eq_error {as bs : Bytes} (h : TakesAll take s as t)
    (hr : Refuses take t bs) :
    ∃ m, Wire.readAll take s (as ++ bs) = .error m := by
  obtain ⟨hne, hr⟩ := hr
  have hpos : 0 < bs.length := List.length_pos_iff.mpr hne
  have hlen : as.length + bs.length ≤ (as ++ bs).length + 0 :=
    Nat.le_of_eq List.length_append.symm
  obtain ⟨n, hn, heq⟩ := h.fieldsUntil_append (Nat.zero_le bs.length) hlen
  obtain ⟨n, rfl⟩ : ∃ m, n = m + 1 := ⟨n - 1, by omega⟩
  rw [Wire.readAll, heq, Wire.fieldsUntil, if_neg (by omega)]
  rcases hr with ⟨m, hm⟩ | ⟨k, rest, m, hk, hm⟩
  · rw [hm]
    exact ⟨m, rfl⟩
  · simp only [hk, ok_bind, hm]
    exact ⟨m, rfl⟩

/-! ### Records of a ruleset -/

theorem encode_append (traffic : Traffic) (front back : List Rule) :
    encode ⟨traffic, front ++ back⟩ = encode ⟨traffic, front⟩ ++ back.flatMap fun r =>
      bytesField 2 (encodeRule r) := by
  rw [encode, encode, List.flatMap_append, List.append_assoc]

/-- A cut through pieces one after another falls into one of them, perhaps in front of all
its bytes. -/
theorem exists_take_flatMap {α : Type} (f : α → Bytes) (as : List α) {k : Nat}
    (h : k < (as.flatMap f).length) :
    ∃ front a back i, as = front ++ a :: back ∧ i < (f a).length
      ∧ k = (front.flatMap f).length + i
      ∧ (as.flatMap f).take k = front.flatMap f ++ (f a).take i := by
  induction as generalizing k with
  | nil => exact absurd h (Nat.not_lt_zero k)
  | cons a as ih =>
    rw [List.flatMap_cons, List.length_append] at h
    by_cases hk : k < (f a).length
    · refine ⟨[], a, as, k, rfl, hk, (Nat.zero_add k).symm, ?_⟩
      rw [List.flatMap_cons, List.take_append_of_le_length (Nat.le_of_lt hk)]
      rfl
    · obtain ⟨front, b, back, i, rfl, hi, heq, htake⟩ := ih (k := k - (f a).length) (by omega)
      refine ⟨a :: front, b, back, i, rfl, hi, ?_, ?_⟩
      · rw [List.flatMap_cons, List.length_append]
        omega
      · rw [List.flatMap_cons, take_append_of_le (Nat.le_of_not_lt hk), htake,
          List.flatMap_cons, List.append_assoc]

theorem refuses_traffic (depth : Nat) (traffic : Traffic) {i : Nat} (hi : 0 < i)
    (hl : i < (plainField 1 (trafficCode traffic)).length) :
    Refuses (takeRuleset depth) .blank ((plainField 1 (trafficCode traffic)).take i) := by
  rw [plainField] at hl ⊢
  split at hl
  · exact absurd hl (Nat.not_lt_zero i)
  · rename_i hz
    rw [if_neg hz]
    refine refuses_take (by decide) (by decide) hi hl fun j hj => ?_
    simp only [takeRuleset, readSigned_take hj]
    exact ⟨_, rfl⟩

theorem refuses_rule (depth : Nat) (s : RulesetFields) (r : Rule) {i : Nat}
    (hb : (encodeRule r).length < 2 ^ 64) (hi : 0 < i)
    (hl : i < (bytesField 2 (encodeRule r)).length) :
    Refuses (takeRuleset depth) s ((bytesField 2 (encodeRule r)).take i) := by
  rw [bytesField, List.append_assoc] at hl ⊢
  refine refuses_take (by decide) (by decide) hi hl fun j hj => ?_
  obtain ⟨m, hm⟩ := readMessage_take takeRule depth 2 .blank hb hj
  simp only [takeRuleset, hm]
  exact ⟨_, rfl⟩

/-- Whether a whole record, or nothing at all, stands in front of a place in the bytes of
a ruleset. -/
def Boundary (s : Ruleset) (k : Nat) : Prop :=
  k = 0 ∨ ∃ front, front <+: s.rules ∧ k = (encode ⟨s.traffic, front⟩).length

/-- A cut is behind a record, or what stands in front of it is refused. -/
theorem cut_cases (s : Ruleset) (h : (encode s).length < 2 ^ 64) {k : Nat}
    (hk : k < (encode s).length) :
    Boundary s k ∨ ∃ m, fields ((encode s).take k) = .error m := by
  obtain ⟨traffic, rules⟩ := s
  have htraffic : encode ⟨traffic, []⟩ = plainField 1 (trafficCode traffic) :=
    List.append_nil _
  have hrules := encode_append traffic [] rules
  rw [List.nil_append] at hrules
  by_cases hk0 : k = 0
  · exact .inl (.inl hk0)
  by_cases hcut : k < (encode ⟨traffic, []⟩).length
  -- The cut falls into the traffic.
  · right
    rw [hrules, List.take_append_of_le_length (Nat.le_of_lt hcut)]
    rw [htraffic] at hcut ⊢
    exact (TakesAll.nil _).readAll_append_eq_error
      (refuses_traffic maxNesting traffic (Nat.pos_of_ne_zero hk0) hcut)
  -- The cut falls into a rule, or in front of one.
  · rw [hrules, List.length_append] at hk
    obtain ⟨front, r, back, i, rfl, hi, heq, htake⟩ :=
      exists_take_flatMap (fun r => bytesField 2 (encodeRule r)) rules
        (k := k - (encode ⟨traffic, []⟩).length) (by omega)
    have hfront := encode_append traffic [] front
    rw [List.nil_append] at hfront
    have hlen : k = (encode ⟨traffic, front⟩).length + i := by
      rw [hfront, List.length_append]
      omega
    have hbytes : (encode ⟨traffic, front ++ r :: back⟩).take k
        = encode ⟨traffic, front⟩ ++ (bytesField 2 (encodeRule r)).take i := by
      rw [hrules, take_append_of_le (Nat.le_of_not_lt hcut), htake, hfront, List.append_assoc]
    rw [encode_append, List.length_append, List.flatMap_cons, List.length_append] at h
    by_cases hi0 : i = 0
    · have hend : k = (encode ⟨traffic, front⟩).length := by omega
      exact .inl (.inr ⟨front, List.prefix_append front (r :: back), hend⟩)
    · right
      have hb := length_le_bytesField 2 (encodeRule r)
      rw [hbytes]
      exact (takesAll_ruleset 96 (by omega)).readAll_append_eq_error
        (refuses_rule maxNesting _ r (by omega) (Nat.pos_of_ne_zero hi0) hi)

theorem decode_nil : decode [] = .ok ⟨.ipv4, []⟩ := by rfl

/-- What stands in front of the end of a record is a ruleset of its own. -/
theorem decode_take_of_front {s : Ruleset} {front : List Rule}
    (h : (encode s).length < 2 ^ 64) (hp : front <+: s.rules) :
    decode ((encode s).take (encode ⟨s.traffic, front⟩).length) = .ok ⟨s.traffic, front⟩ := by
  obtain ⟨traffic, rules⟩ := s
  obtain ⟨back, rfl⟩ := hp
  rw [encode_append, List.length_append] at h
  have hl : (encode ⟨traffic, front⟩).length < 2 ^ 64 := by omega
  rw [encode_append, List.take_left]
  exact decode_encode hl

/-- **A ruleset that is cut off is never misread.** The bytes in front of a cut are
decoded exactly if the cut is behind a whole record or in front of everything. What is
decoded then has the first rules of the ruleset, in that case not all of them if there are
any, and its traffic, which is the older one where nothing is left. Everywhere else the
bytes are no ruleset because they are malformed. -/
theorem decode_take (s : Ruleset) (h : (encode s).length < 2 ^ 63) {k : Nat}
    (hk : k < (encode s).length) :
    ((∃ t, decode ((encode s).take k) = .ok t) ↔ Boundary s k)
      ∧ (∀ t, decode ((encode s).take k) = .ok t →
        t.rules <+: s.rules ∧ (s.rules ≠ [] → t.rules ≠ s.rules)
          ∧ t.traffic = if k = 0 then .ipv4 else s.traffic)
      ∧ ∀ p, decode ((encode s).take k) = .error p → ∃ m, p = .malformed m := by
  have hrefused : ¬ Boundary s k → ∃ m,
      decode ((encode s).take k) = .error (.malformed m) := by
    intro hb
    rcases cut_cases s (by omega) hk with hb' | ⟨m, hm⟩
    · exact absurd hb' hb
    · exact ⟨m, by rw [decode, hm]⟩
  have hdecoded : Boundary s k → ∃ t, decode ((encode s).take k) = .ok t
      ∧ t.rules <+: s.rules ∧ (s.rules ≠ [] → t.rules ≠ s.rules)
      ∧ t.traffic = if k = 0 then .ipv4 else s.traffic := by
    intro hb
    by_cases hk0 : k = 0
    · subst hk0
      exact ⟨_, decode_nil, List.nil_prefix, fun hne he => hne he.symm, rfl⟩
    · obtain ⟨front, hp, rfl⟩ := hb.resolve_left hk0
      refine ⟨_, decode_take_of_front (by omega) hp, hp, fun _ he => ?_, (if_neg hk0).symm⟩
      -- With all rules there is nothing left to cut off.
      have hall : (⟨s.traffic, front⟩ : Ruleset) = s := by
        rw [show front = s.rules from he]
      rw [hall] at hk
      exact Nat.lt_irrefl _ hk
  refine ⟨⟨?_, fun hb => (hdecoded hb).imp fun _ ht => ht.1⟩, ?_, ?_⟩
  · rintro ⟨t, ht⟩
    by_contra hb
    obtain ⟨m, hm⟩ := hrefused hb
    rw [ht] at hm
    cases hm
  · intro t ht
    by_cases hb : Boundary s k
    · obtain ⟨u, hu, hparts⟩ := hdecoded hb
      obtain rfl := Except.ok.inj (ht.symm.trans hu)
      exact hparts
    · obtain ⟨m, hm⟩ := hrefused hb
      rw [ht] at hm
      cases hm
  · intro p hp
    by_cases hb : Boundary s k
    · obtain ⟨u, hu, _⟩ := hdecoded hb
      rw [hp] at hu
      cases hu
    · obtain ⟨m, hm⟩ := hrefused hb
      exact ⟨m, Except.error.inj (hp.symm.trans hm)⟩

/-- A ruleset of twenty bytes, with rules that end behind the thirteenth and the last one. -/
def twoRules : Ruleset := ⟨.ipv6, [⟨1, "a", [.ttl 3]⟩, ⟨2, "b", []⟩]⟩

/-- A cut behind the first rule, and one in the text of the second. -/
theorem decode_take_twoRules :
    (encode twoRules).length < 2 ^ 63 ∧ 13 < (encode twoRules).length
      ∧ 19 < (encode twoRules).length
      ∧ (∃ t, decode ((encode twoRules).take 13) = .ok t
        ∧ t.rules <+: twoRules.rules ∧ t.rules ≠ twoRules.rules ∧ t.traffic = .ipv6)
      ∧ ∃ m, decode ((encode twoRules).take 19) = .error (.malformed m) := by
  have hlen : (encode twoRules).length = 20 := by decide +kernel
  have hl : (encode twoRules).length < 2 ^ 63 := by omega
  have h13 : 13 < (encode twoRules).length := by omega
  have h19 : 19 < (encode twoRules).length := by omega
  refine ⟨hl, h13, h19, ?_, ?_⟩
  · obtain ⟨hiff, hparts, _⟩ := decode_take twoRules hl h13
    have hend : 13 = (encode ⟨.ipv6, [⟨1, "a", [.ttl 3]⟩]⟩).length := by decide +kernel
    obtain ⟨t, ht⟩ := hiff.mpr (.inr ⟨[⟨1, "a", [.ttl 3]⟩], ⟨[⟨2, "b", []⟩], rfl⟩, hend⟩)
    obtain ⟨hfirst, hproper, htraffic⟩ := hparts t ht
    exact ⟨t, ht, hfirst, hproper (by decide), htraffic⟩
  · obtain ⟨hiff, _, hmalformed⟩ := decode_take twoRules hl h19
    have hends : ∀ front ∈ twoRules.rules.inits, 19 ≠ (encode ⟨.ipv6, front⟩).length := by
      decide +kernel
    have hinside : ¬ Boundary twoRules 19 := by
      rintro (h | ⟨front, hp, h⟩)
      · cases h
      · exact hends front ((List.mem_inits front twoRules.rules).mpr hp) h
    cases hd : decode ((encode twoRules).take 19) with
    | ok t => exact absurd (hiff.mp ⟨t, hd⟩) hinside
    | error p =>
      obtain ⟨m, rfl⟩ := hmalformed p hd
      exact ⟨m, rfl⟩

end Wire

end PacketClassifier
