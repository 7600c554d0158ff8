/-
The binary form of a ruleset loses nothing.

Each message is described by the fields that its reading ends with: `addressFields`,
`networkFields`, `entryFields`, `ruleFields`, `rulesetFields`; and by the layout that it
is written as: `addressLayout` and so on. Every padded form of its layout is taken in as
these fields, one lemma for each message, and settling them gives back the value. Zeros
that are left out are the values that a message has before any field is taken in.

* `Wire.bytes_rulesetLayout`: the layout of a ruleset is what is written;
* `Wire.reads_ruleset`: whatever unknown fields stand in between, it is taken in alike;
* `Wire.decode_encode`: reading gives back what was written;
* `Wire.encode_lossless`: so no two rulesets share their bytes, and a look-up hands out
  what was compiled.
-/
import PacketClassifier.Proofs.Wire.Layout
import PacketClassifier.Service.Model

namespace PacketClassifier

namespace Wire

open Steps

/-! ### Words of 128 bits -/

theorem bytes128_length (bits : BitVec 128) : (bytes128 bits).length = 16 := by
  rw [bytes128, List.length_map, List.length_range]

/-- The first `k` bytes stand for the upper `8 * k` bits. -/
theorem foldl_bytes128 (n : Nat) (h : n < 2 ^ 128) (k : Nat) (hk : k ≤ 16) :
    ((List.range k).map fun i => (n / Nat.pow 2 (120 - 8 * i) % 256).toUInt8).foldl
      (fun acc b => acc * 256 + b.toNat) 0 = n / 2 ^ (128 - 8 * k) := by
  induction k with
  | zero => exact (Nat.div_eq_of_lt h).symm
  | succ k ih =>
    have hp : 2 ^ (128 - 8 * k) = 2 ^ (120 - 8 * k) * 256 := by
      rw [show 128 - 8 * k = (120 - 8 * k) + 8 by omega, Nat.pow_add]
    have hs : 128 - 8 * (k + 1) = 120 - 8 * k := by omega
    rw [List.range_succ, List.map_append, List.foldl_append, ih (by omega), hp,
      ← Nat.div_div_eq_div_mul, hs]
    simp only [List.map_cons, List.map_nil, List.foldl_cons, List.foldl_nil]
    rw [Utf8.toNat_toUInt8 (Nat.mod_lt _ (by omega))]
    exact Nat.div_add_mod' _ _

theorem word128_bytes128 (bits : BitVec 128) : word128 (bytes128 bits) = bits := by
  have h := foldl_bytes128 bits.toNat bits.isLt 16 (Nat.le_refl _)
  rw [word128, bytes128, h]
  simp

/-! ### The fields that each message is read to -/

/-- The fields of an address. -/
def addressFields : Address → AddressFields
  | .v4 bits => .number (low32 bits.toNat)
  | .v6 bits => .bytes (bytes128 bits)

/-- The fields of a network. -/
def networkFields (n : Network) : NetworkFields :=
  ⟨addressFields n.address, low32 n.length.toNat⟩

/-- The fields of an entry. -/
def entryFields : Entry → EntryFields
  | .sourceNetwork n => .sourceNetwork (networkFields n)
  | .destinationNetwork n => .destinationNetwork (networkFields n)
  | .sourcePort p => .sourcePort p
  | .destinationPort p => .destinationPort p
  | .baseProtocol n => .baseProtocol n
  | .finalProtocol n => .finalProtocol n
  | .dscp v => .dscp v
  | .ttl v => .ttl v
  | .fragment f => .fragment (fragmentCode f)
  | .icmpV4 t => .icmpV4 t
  | .icmpV6 t => .icmpV6 t
  | .icmpV6Class c => .icmpV6Class (classCode c)

/-- The fields of a rule. -/
def ruleFields (r : Rule) : RuleFields := ⟨r.number, r.result, r.entries.map entryFields⟩

/-- The fields of a ruleset. -/
def rulesetFields (s : Ruleset) : RulesetFields :=
  ⟨trafficCode s.traffic, s.rules.map ruleFields⟩

/-! ### Numbers that were written -/

theorem low32_toNat (w : UInt32) : low32 w.toNat = w := by
  have hw : w.toNat < 4294967296 := w.toNat_lt
  rw [low32, Nat.mod_eq_of_lt hw]
  exact UInt32.ofNat_toNat

theorem low32_of_lt {n : Nat} (h : n < 4294967296) : (low32 n).toNat = n := by
  rw [low32, Nat.mod_eq_of_lt h]
  exact Nat.mod_eq_of_lt h

theorem signed32_of_lt {n : Nat} (h : n < 2147483648) : signed32 n = n := by
  have hm : n % 4294967296 = n := Nat.mod_eq_of_lt (by omega)
  rw [signed32, hm, if_pos h]
  omega

theorem readWord_encode {number n : Nat} (h : n < 2 ^ 64) (rest : Bytes) :
    readWord ⟨number, .varint⟩ (Varint.encode n ++ rest) = .ok (low32 n, rest) := by
  rw [readWord, readNumber_encode rfl h]
  rfl

theorem readWord_toNat {number : Nat} (w : UInt32) (rest : Bytes) :
    readWord ⟨number, .varint⟩ (Varint.encode w.toNat ++ rest) = .ok (w, rest) := by
  have hw := w.toNat_lt
  rw [readWord_encode (by omega), low32_toNat]

theorem readSigned_encode {number n : Nat} (h : n < 2147483648) (rest : Bytes) :
    readSigned ⟨number, .varint⟩ (Varint.encode n ++ rest) = .ok ((n : Int), rest) := by
  rw [readSigned, readNumber_encode rfl (by omega), ok_bind]
  simp only [signed32_of_lt h]
  rfl

/-! ### How each message is written -/

/-- The fields that an entry knows. Those of the other messages are the first two or three. -/
def entryNumbers : List Nat := [1, 2, 3, 4, 5, 6, 7, 8, 9, 10, 11, 12]

/-- How an address is written. -/
def addressLayout (a : Address) : Layout := .bare (encodeAddress a) .done

/-- How a network is written. -/
def networkLayout (n : Network) : Layout :=
  .message 1 [1, 2] (addressLayout n.address) (.plain 2 n.length.toNat .done)

/-- How a message type is written. -/
def icmpLayout (t : IcmpType) : Layout :=
  .plain 1 t.type.toNat (match t.code with
    | some code => .bare (numberField 2 code.toNat) .done
    | none => .done)

/-- How an entry is written. -/
def entryLayout : Entry → Layout
  | .sourceNetwork n => .message 1 [1, 2] (networkLayout n) .done
  | .destinationNetwork n => .message 2 [1, 2] (networkLayout n) .done
  | .icmpV4 t => .message 10 [1, 2] (icmpLayout t) .done
  | .icmpV6 t => .message 11 [1, 2] (icmpLayout t) .done
  | e => .bare (encodeEntry e) .done

/-- How a rule is written. An empty result is left out. -/
def ruleLayout (r : Rule) : Layout :=
  let entries := Layout.repeated 3 entryNumbers entryLayout r.entries
  .plain 1 r.number.toNat
    (if r.result.isEmpty then entries
      else .bare (bytesField 2 (Utf8.ofString r.result)) entries)

/-- How a ruleset is written. -/
def rulesetLayout (s : Ruleset) : Layout :=
  .plain 1 (trafficCode s.traffic) (.repeated 2 [1, 2, 3] ruleLayout s.rules)

theorem bytes_networkLayout (n : Network) : (networkLayout n).bytes = encodeNetwork n := by
  have haddress : (addressLayout n.address).bytes = encodeAddress n.address :=
    List.append_nil _
  rw [networkLayout, Layout.bytes, Layout.bytes_plain, haddress]
  exact congrArg _ (List.append_nil _)

theorem bytes_icmpLayout (t : IcmpType) : (icmpLayout t).bytes = encodeIcmp t := by
  obtain ⟨type, code⟩ := t
  rw [icmpLayout, Layout.bytes_plain, encodeIcmp]
  cases code with
  | none => rfl
  | some code => exact congrArg _ (List.append_nil _)

theorem bytes_entryLayout (e : Entry) : (entryLayout e).bytes = encodeEntry e := by
  cases e with
  | sourceNetwork n | destinationNetwork n =>
    rw [entryLayout, Layout.bytes, bytes_networkLayout]
    exact List.append_nil _
  | icmpV4 t | icmpV6 t =>
    rw [entryLayout, Layout.bytes, bytes_icmpLayout]
    exact List.append_nil _
  | _ => exact List.append_nil _

theorem bytes_ruleLayout (r : Rule) : (ruleLayout r).bytes = encodeRule r := by
  have hentries : (Layout.repeated 3 entryNumbers entryLayout r.entries).bytes
      = r.entries.flatMap fun e => bytesField 3 (encodeEntry e) := by
    simp only [Layout.bytes_repeated, bytes_entryLayout]
  rw [ruleLayout, Layout.bytes_plain, encodeRule, List.append_assoc, ← hentries]
  cases r.result.isEmpty <;> rfl

/-- The layout of a ruleset is what is written. -/
theorem bytes_rulesetLayout (s : Ruleset) : (rulesetLayout s).bytes = encode s := by
  rw [rulesetLayout, Layout.bytes_plain, encode]
  simp only [Layout.bytes_repeated, bytes_ruleLayout]

theorem nesting_icmpLayout (t : IcmpType) : (icmpLayout t).nesting = 0 := by
  obtain ⟨type, code⟩ := t
  rw [icmpLayout, Layout.nesting_plain]
  cases code <;> rfl

theorem nesting_entryLayout_le (e : Entry) : (entryLayout e).nesting ≤ 2 := by
  have hnetwork : ∀ n, (networkLayout n).nesting = 1 := by
    intro n
    rw [networkLayout, Layout.nesting, Layout.nesting_plain]
    rfl
  cases e with
  | sourceNetwork n | destinationNetwork n =>
    rw [entryLayout, Layout.nesting, hnetwork]
    decide
  | icmpV4 t | icmpV6 t =>
    rw [entryLayout, Layout.nesting, nesting_icmpLayout]
    decide
  | _ => exact Nat.zero_le _

theorem nesting_ruleLayout_le (r : Rule) : (ruleLayout r).nesting ≤ 3 := by
  have hentries := Layout.nesting_repeated_le 3 entryNumbers nesting_entryLayout_le r.entries
  rw [ruleLayout, Layout.nesting_plain]
  cases r.result.isEmpty <;> exact hentries

theorem nesting_rulesetLayout_le (s : Ruleset) : (rulesetLayout s).nesting ≤ 4 := by
  rw [rulesetLayout, Layout.nesting_plain]
  exact Layout.nesting_repeated_le 2 _ nesting_ruleLayout_le s.rules

/-! ### Each message skips the other fields -/

theorem skips_address (depth : Nat) : SkipsUnknown (takeAddress depth) [1, 2] depth := by
  intro k s bs hk
  unfold takeAddress
  split <;> simp_all

theorem skips_network (depth : Nat) : SkipsUnknown (takeNetwork depth) [1, 2] depth := by
  intro k s bs hk
  unfold takeNetwork
  split <;> simp_all

theorem skips_icmp (depth : Nat) : SkipsUnknown (takeIcmp depth) [1, 2] depth := by
  intro k s bs hk
  unfold takeIcmp
  split <;> simp_all

theorem skips_entry (depth : Nat) : SkipsUnknown (takeEntry depth) entryNumbers depth := by
  intro k s bs hk
  rw [entryNumbers] at hk
  unfold takeEntry
  split <;> simp_all

theorem skips_rule (depth : Nat) : SkipsUnknown (takeRule depth) [1, 2, 3] depth := by
  intro k s bs hk
  unfold takeRule
  split <;> simp_all

theorem skips_ruleset (depth : Nat) : SkipsUnknown (takeRuleset depth) [1, 2] depth := by
  intro k s bs hk
  unfold takeRuleset
  split <;> simp_all

/-! ### Every padded form is taken in -/

theorem reads_address (depth : Nat) (a : Address) :
    Reads takeAddress [1, 2] depth .absent (addressLayout a) (addressFields a) := by
  refine .bare (skips_address depth) (fun _ => ?_) (.done (skips_address depth))
  cases a with
  | v4 bits =>
    have hb := bits.isLt
    refine takes_numberField (by omega) (by omega) fun rest => ?_
    simp only [takeAddress, readWord_encode (show bits.toNat < 2 ^ 64 by omega)]
    rfl
  | v6 bits =>
    have hl := bytes128_length bits
    refine takes_bytesField (by omega) (by omega) fun rest => ?_
    simp only [takeAddress, readBytes_encode (k := ⟨2, .delimited⟩) rfl
      (show (bytes128 bits).length < 2 ^ 64 by omega)]
    rfl

theorem reads_network (depth : Nat) (n : Network) :
    Reads takeNetwork [1, 2] (depth + 1) .blank (networkLayout n) (networkFields n) := by
  have hb := n.length.toNat_lt
  have hskips := skips_network (depth + 1)
  refine .message (t := ⟨addressFields n.address, 0⟩) hskips (by omega) (by omega)
    (fun bs rest hm => ?_)
    (reads_address depth n.address) ?_
  · simp only [takeNetwork, NetworkFields.blank, hm]
    rfl
  -- The length is left out where it is zero, as it is before it is taken in.
  · refine .plain hskips (fun hz => ?_)
      (takes_numberField (by omega) (by omega) fun rest => ?_) (.done hskips)
    · rw [networkFields, hz]
      rfl
    · simp only [takeNetwork, readWord_encode (show n.length.toNat < 2 ^ 64 by omega)]
      rfl

theorem reads_icmp (depth : Nat) (t : IcmpType) :
    Reads takeIcmp [1, 2] depth blankIcmp (icmpLayout t) t := by
  obtain ⟨type, code⟩ := t
  have hskips := skips_icmp depth
  refine .plain (t := ⟨type, none⟩) hskips (fun hz => ?_)
    (takes_numberField (by omega) (by omega) fun rest => ?_) ?_
  · rw [UInt32.toNat_inj.mp (show type.toNat = (0 : UInt32).toNat from hz)]
    rfl
  · simp only [takeIcmp, readWord_toNat]
    rfl
  -- A code that is zero is written nevertheless, so no code and the code zero stay apart.
  · cases code with
    | none => exact .done hskips
    | some code =>
      refine .bare hskips (fun _ => takes_numberField (by omega) (by omega) fun rest => ?_)
        (.done hskips)
      simp only [takeIcmp, readWord_toNat]
      rfl

theorem reads_wordEntry {depth number : Nat} (f : UInt32 → EntryFields) (w : UInt32)
    (h : 0 < number) (h' : number < 2 ^ 29)
    (ht : ∀ bs, takeEntry depth ⟨number, .varint⟩ .absent bs
      = inField "RuleMatch" "entry" (mapValue f (readWord ⟨number, .varint⟩ bs))) :
    Reads takeEntry entryNumbers depth .absent
      (.bare (numberField number w.toNat) .done) (f w) := by
  have hskips := skips_entry depth
  refine .bare hskips (fun _ => takes_numberField h h' fun rest => ?_) (.done hskips)
  rw [ht, readWord_toNat]
  rfl

theorem reads_choiceEntry {depth number : Nat} (f : Int → EntryFields) {n : Nat}
    (hn : n < 2147483648) (h : 0 < number) (h' : number < 2 ^ 29)
    (ht : ∀ bs, takeEntry depth ⟨number, .varint⟩ .absent bs
      = inField "RuleMatch" "entry" (mapValue f (readSigned ⟨number, .varint⟩ bs))) :
    Reads takeEntry entryNumbers depth .absent
      (.bare (numberField number n) .done) (f n) := by
  have hskips := skips_entry depth
  refine .bare hskips (fun _ => takes_numberField h h' fun rest => ?_) (.done hskips)
  rw [ht, readSigned_encode hn]
  rfl

theorem reads_messageEntry {τ : Type} {take : Nat → FieldReader τ} {blank t : τ}
    {depth number : Nat} (f : τ → EntryFields) {known : List Nat} {layout : Layout}
    (h : 0 < number) (h' : number < 2 ^ 29)
    (ht : ∀ bs, takeEntry (depth + 1) ⟨number, .delimited⟩ .absent bs
      = inField "RuleMatch" "entry"
        (mapValue f (readMessage take (depth + 1) ⟨number, .delimited⟩ blank bs)))
    (hi : Reads take known depth blank layout t) :
    Reads takeEntry entryNumbers (depth + 1) .absent
      (.message number known layout .done) (f t) := by
  have hskips := skips_entry (depth + 1)
  refine .message hskips h h' (fun bs rest hm => ?_) hi (.done hskips)
  rw [ht, hm]
  rfl

theorem reads_entry (depth : Nat) (e : Entry) :
    Reads takeEntry entryNumbers (depth + 2) .absent (entryLayout e) (entryFields e) := by
  cases e with
  | sourceNetwork n =>
    exact reads_messageEntry .sourceNetwork (by omega) (by omega) (fun _ => rfl)
      (reads_network _ n)
  | destinationNetwork n =>
    exact reads_messageEntry .destinationNetwork (by omega) (by omega) (fun _ => rfl)
      (reads_network _ n)
  | sourcePort p => exact reads_wordEntry .sourcePort p (by omega) (by omega) fun _ => rfl
  | destinationPort p =>
    exact reads_wordEntry .destinationPort p (by omega) (by omega) fun _ => rfl
  | baseProtocol n => exact reads_wordEntry .baseProtocol n (by omega) (by omega) fun _ => rfl
  | finalProtocol n =>
    exact reads_wordEntry .finalProtocol n (by omega) (by omega) fun _ => rfl
  | dscp v => exact reads_wordEntry .dscp v (by omega) (by omega) fun _ => rfl
  | ttl v => exact reads_wordEntry .ttl v (by omega) (by omega) fun _ => rfl
  | fragment f =>
    exact reads_choiceEntry .fragment (by cases f <;> decide) (by omega)
      (by omega) fun _ => rfl
  | icmpV4 t =>
    exact reads_messageEntry .icmpV4 (by omega) (by omega) (fun _ => rfl) (reads_icmp _ t)
  | icmpV6 t =>
    exact reads_messageEntry .icmpV6 (by omega) (by omega) (fun _ => rfl) (reads_icmp _ t)
  | icmpV6Class c =>
    exact reads_choiceEntry .icmpV6Class (by cases c <;> decide) (by omega)
      (by omega) fun _ => rfl

theorem reads_rule (depth : Nat) (r : Rule) :
    Reads takeRule [1, 2, 3] (depth + 3) .blank (ruleLayout r) (ruleFields r) := by
  obtain ⟨number, result, entries⟩ := r
  have hskips := skips_rule (depth + 3)
  have hentries : Reads takeRule [1, 2, 3] (depth + 3) ⟨number, result, []⟩
      (.repeated 3 entryNumbers entryLayout entries)
        ⟨number, result, entries.map entryFields⟩ := by
    refine .repeated (RuleFields.mk number result) hskips (by omega) (by omega)
      (fun es e bs rest hm => ?_)
      (reads_entry depth) entries []
    simp only [takeRule, hm]
    rfl
  refine .plain (t := ⟨number, "", []⟩) hskips (fun hz => ?_)
    (takes_numberField (by omega) (by omega) fun rest => ?_) ?_
  · rw [UInt32.toNat_inj.mp (show number.toNat = (0 : UInt32).toNat from hz)]
    rfl
  · simp only [takeRule, readWord_toNat]
    rfl
  · cases he : result.isEmpty with
    | true =>
      rw [String.isEmpty_iff.mp he] at hentries ⊢
      exact hentries
    | false =>
      refine .bare hskips
        (fun hl => takes_bytesField (by omega) (by omega) fun rest => ?_) hentries
      have hb := length_le_bytesField 2 (Utf8.ofString result)
      simp only [takeRule,
        readString_encode (k := ⟨2, .delimited⟩) rfl (Nat.lt_of_le_of_lt hb hl)]
      rfl

/-- Every padded form of what is written for a ruleset is taken in as its fields. -/
theorem reads_ruleset (depth : Nat) (s : Ruleset) :
    Reads takeRuleset [1, 2] (depth + 4) .blank (rulesetLayout s) (rulesetFields s) := by
  obtain ⟨traffic, rules⟩ := s
  have ht : trafficCode traffic < 2147483648 := by cases traffic <;> decide
  have hskips := skips_ruleset (depth + 4)
  refine .plain (t := ⟨trafficCode traffic, []⟩) hskips (fun hz => ?_)
    (takes_numberField (by omega) (by omega) fun rest => ?_) ?_
  · rw [hz]
    rfl
  · simp only [takeRuleset, readSigned_encode ht]
    rfl
  · refine .repeated (RulesetFields.mk (trafficCode traffic)) hskips (by omega) (by omega)
      (fun rs r bs rest hm => ?_)
      (reads_rule depth) rules []
    simp only [takeRuleset, hm]
    rfl

theorem takesAll_ruleset (depth : Nat) {s : Ruleset} (h : (encode s).length < 2 ^ 64) :
    TakesAll (takeRuleset (depth + 4)) .blank (encode s) (rulesetFields s) := by
  rw [← bytes_rulesetLayout] at h ⊢
  exact (reads_ruleset depth s).takesAll
    (Nat.le_trans (nesting_rulesetLayout_le s) (Nat.le_add_left 4 depth)) h

/-! ### The fields mean what was written -/

theorem settleTraffic_code (t : Traffic) : settleTraffic (trafficCode t) = .ok t := by
  cases t <;> rfl

theorem settleFragment_code (f : Fragment) : settleFragment (fragmentCode f) = .ok f := by
  cases f <;> rfl

theorem settleClass_code (c : IcmpClass) : settleClass (classCode c) = .ok c := by
  cases c <;> rfl

theorem settleAddress_fields (a : Address) : settleAddress (addressFields a) = .ok a := by
  cases a with
  | v4 bits =>
    have hb : bits.toNat < 4294967296 := bits.isLt
    rw [addressFields, settleAddress, low32_of_lt hb, BitVec.ofNat_toNat, BitVec.setWidth_eq]
  | v6 bits =>
    rw [addressFields, settleAddress, if_pos (bytes128_length bits), word128_bytes128]

theorem settleNetwork_fields (n : Network) : settleNetwork (networkFields n) = .ok n := by
  have hb : n.length.toNat < 256 := n.length.toNat_lt
  -- The length is written as a number of 32 bits and must come back as one of eight.
  have hl : (low32 n.length.toNat).toNat = n.length.toNat := low32_of_lt (by omega)
  have hw : (low32 n.length.toNat).toUInt8 = n.length := by
    apply UInt8.toNat_inj.mp
    rw [UInt32.toNat_toUInt8, hl]
    exact Nat.mod_eq_of_lt hb
  rw [settleNetwork, networkFields]
  simp only [settleAddress_fields, ok_bind, hl, hw]
  rw [if_pos (by omega)]
  rfl

theorem settleEntry_fields (e : Entry) : settleEntry (entryFields e) = .ok e := by
  cases e with
  | sourceNetwork n | destinationNetwork n =>
    rw [entryFields, settleEntry, settleNetwork_fields]
    rfl
  | fragment f =>
    rw [entryFields, settleEntry, settleFragment_code]
    rfl
  | icmpV6Class c =>
    rw [entryFields, settleEntry, settleClass_code]
    rfl
  | _ => rfl

theorem settleRule_fields (r : Rule) : settleRule (ruleFields r) = .ok r := by
  rw [settleRule, ruleFields, mapM_map_eq_ok settleEntry_fields]
  rfl

theorem settle_fields (s : Ruleset) : settle (rulesetFields s) = .ok s := by
  rw [settle, rulesetFields, settleTraffic_code, ok_bind, mapM_map_eq_ok settleRule_fields]
  rfl

theorem decode_of_takesAll {s : Ruleset} {bs : Bytes}
    (h : TakesAll (takeRuleset maxNesting) .blank bs (rulesetFields s)) :
    decode bs = .ok s := by
  have hf : fields bs = .ok (rulesetFields s) := h.readAll
  rw [decode, hf]
  exact settle_fields s

theorem decode_encode {s : Ruleset} (h : (encode s).length < 2 ^ 64) :
    decode (encode s) = .ok s :=
  decode_of_takesAll (takesAll_ruleset 96 h)

/-- **The binary form loses nothing.** A ruleset is read back from its bytes, no other
ruleset has these bytes, and a look-up of a name that the ruleset is compiled under hands
out bytes that stand for exactly this ruleset. -/
theorem encode_lossless (s : Ruleset) (h : (encode s).length < 2 ^ 63) :
    decode (encode s) = .ok s
      ∧ (∀ t, encode t = encode s → t = s)
      ∧ ∀ (service : ModelService) (files : Files) (name : String) (m : Model)
          (c : Classifier),
          (service.refresh files).compiled = some m → m.get? name = some c → c.ruleset = s →
            ∃ bytes, (service.lookup files name).1 = some bytes ∧ decode bytes = .ok s := by
  have hd : decode (encode s) = .ok s := decode_encode (by omega)
  refine ⟨hd, fun t ht => ?_, fun service files name m c hm hc hs => ?_⟩
  · have hdt : decode (encode t) = .ok t := decode_encode (by rw [ht]; omega)
    rw [ht, hd] at hdt
    exact (Except.ok.inj hdt).symm
  · refine ⟨encode s, ?_, hd⟩
    rw [ModelService.lookup, hm, Option.bind_some, hc, Option.map_some, Classifier.encode, hs]

/-- A ruleset in which every value that may be left out is left out somewhere. -/
def defaults : Ruleset :=
  ⟨.ipv4, [⟨0, "", []⟩,
    ⟨4294967295, "é\x00", [.sourceNetwork ⟨.v4 0, 0⟩, .destinationNetwork ⟨.v6 1, 255⟩,
    .sourcePort 0, .ttl 4294967295, .fragment .any, .icmpV4 ⟨0, none⟩, .icmpV6 ⟨0, some 0⟩,
    .icmpV6Class .info]⟩]⟩

theorem encode_lossless_defaults :
    (encode defaults).length < 2 ^ 63
      ∧ decode (encode defaults) = .ok defaults
      ∧ ∃ bytes, ((ModelService.mk ⟨false, ["cfg.json"]⟩ none
            (some ⟨[("g", ⟨.group, "g", defaults⟩)], [], []⟩) none).lookup .empty "g").1
          = some bytes
          ∧ decode bytes = .ok defaults := by
  have hl : (encode defaults).length < 2 ^ 63 := by decide +kernel
  obtain ⟨hd, _, hlookup⟩ := encode_lossless defaults hl
  exact ⟨hl, hd, hlookup _ _ _ ⟨[("g", ⟨.group, "g", defaults⟩)], [], []⟩ _ (by cbv) rfl rfl⟩

end Wire

end PacketClassifier
