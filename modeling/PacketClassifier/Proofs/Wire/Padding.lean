/-
Unknown fields never change what is decoded.

A writer that knows more fields than these messages may put them anywhere, and the lengths
around them grow. The layout of a ruleset is what is written for it
(`Wire.bytes_rulesetLayout`), and each message in it takes in its own fields and skips the
others (`Wire.reads_ruleset`), so all padded forms are read as the same ruleset:
`Wire.decode_padded`.
-/
import PacketClassifier.Proofs.Wire.Ruleset

namespace PacketClassifier

namespace Wire

/-- **Unknown fields never change what is decoded.** The fields of the layout of a ruleset
are the bytes that are written for it. Put in front of, between and behind the fields of
any message in it, at any depth, any number of well-formed fields that this message does
not know, groups among them that open no deeper than a reader follows: the ruleset is
still read from these bytes. -/
theorem decode_padded (s : Ruleset) {bs : Bytes}
    (h : Padded [1, 2] maxNesting (rulesetLayout s) bs) (hl : bs.length < 2 ^ 63) :
    (rulesetLayout s).bytes = encode s ∧ decode bs = .ok s := by
  have htakes : TakesAll (takeRuleset maxNesting) .blank bs (rulesetFields s) :=
    reads_ruleset 96 s bs h (by omega)
  exact ⟨bytes_rulesetLayout s, decode_of_takesAll htakes⟩

/-- A ruleset in which every kind of message stands. -/
def nested : Ruleset :=
  ⟨.ipv6, [⟨7, "r", [.sourceNetwork ⟨.v4 0x0A000000, 8⟩, .icmpV4 ⟨8, some 0⟩]⟩]⟩

/-- Its bytes with a field of every wire type put in, each in another message: a number in
the ruleset, four bytes in the rule, a group with a number in three bytes and another
group in an entry, two bytes in the network, eight in the address, and a number under the
largest field number in the message type. -/
def interspersed : Bytes :=
  [8, 1, 0x78, 5, 18, 59, 8, 7, 18, 1, 114, 0x75, 1, 2, 3, 4,
    26, 32, 0x6B, 8, 0x80, 0x80, 0, 0x13, 0x14, 0x6C,
      10, 22, 10, 14, 8, 128, 128, 128, 80, 0x49, 1, 2, 3, 4, 5, 6, 7, 8, 0x1A, 2,
      255, 255, 16, 8,
    26, 13, 82, 11, 8, 8, 0xF8, 0xFF, 0xFF, 0xFF, 0x0F, 0x80, 0, 16, 0]

theorem decode_padded_nested :
    Padded [1, 2] maxNesting (rulesetLayout nested) interspersed
      ∧ interspersed.length < 2 ^ 63
      ∧ decode interspersed = .ok nested := by
  have hkey : ∀ k : Key, 0 < k.number ∧ k.number < 2 ^ 29 → Key.Spells k.encode k :=
    fun _ h => Key.spells_encode h.1 h.2
  have hnumber : Varint.Valid [0x80, 0x80, 0] 0 :=
    ⟨.more (by decide) (.more (by decide) (.last (by decide))), by decide, by decide⟩
  have hgroup : Unknown entryNumbers 98 _ :=
    .group (by decide) (hkey ⟨13, .groupStart⟩ (by decide))
      (.plain (by decide) (hkey ⟨1, .varint⟩ (by decide)) (.varint hnumber)
        (.group (by decide) (hkey ⟨2, .groupStart⟩ (by decide)) .nil
          (hkey _ (by decide)) .nil))
      (hkey _ (by decide)) .nil
  have height : PlainValue .fixed64 [1, 2, 3, 4, 5, 6, 7, 8] := .fixed64 rfl
  have haddress : Padded [1, 2] 96 (addressLayout (.v4 0x0A000000)) _ :=
    .bare (.unknown (.plain (by decide) (hkey ⟨9, .fixed64⟩ (by decide)) height .nil) .done)
  have htwo : PlainValue .delimited (Varint.encode 2 ++ [255, 255]) :=
    .delimited (Varint.valid_encode (by decide))
  have hnetwork : Padded [1, 2] 97 (networkLayout ⟨.v4 0x0A000000, 8⟩) _ :=
    .message haddress (.unknown
      (.plain (by decide) (hkey ⟨3, .delimited⟩ (by decide)) htwo .nil) (.bare .done))
  have hzero : Varint.Valid [0x80, 0] 0 :=
    ⟨.more (by decide) (.last (by decide)), by decide, by decide⟩
  have hicmp : Padded [1, 2] 97 (icmpLayout ⟨8, some 0⟩) _ :=
    .bare (.unknown (.plain (by decide) (hkey ⟨536870911, .varint⟩ (by decide))
      (.varint hzero) .nil) (.bare .done))
  have hsource :
      Padded entryNumbers 98 (entryLayout (.sourceNetwork ⟨.v4 0x0A000000, 8⟩)) _ :=
    .unknown hgroup (.message hnetwork .done)
  have htype : Padded entryNumbers 98 (entryLayout (.icmpV4 ⟨8, some 0⟩)) _ :=
    .message hicmp .done
  have hfour : PlainValue .fixed32 [1, 2, 3, 4] := .fixed32 rfl
  have hrule : Padded [1, 2, 3] 99
      (ruleLayout ⟨7, "r", [.sourceNetwork ⟨.v4 0x0A000000, 8⟩, .icmpV4 ⟨8, some 0⟩]⟩) _ :=
    .bare (.bare (.unknown (.plain (by decide) (hkey ⟨14, .fixed32⟩ (by decide)) hfour .nil)
      (.message hsource (.message htype .done))))
  have hfive : Varint.Valid [5] 5 := ⟨.last (by decide), by decide, by decide⟩
  have hruleset : Padded [1, 2] maxNesting (rulesetLayout nested) _ :=
    .bare (.unknown (.plain (by decide) (hkey ⟨15, .varint⟩ (by decide)) (.varint hfive) .nil)
      (.message hrule .done))
  have hpadded : Padded [1, 2] maxNesting (rulesetLayout nested) interspersed := by
    convert hruleset using 1
    cbv
  exact ⟨hpadded, by decide, (decode_padded nested hpadded (by decide)).2⟩

end Wire

end PacketClassifier
