/-
Compiled networks and their texts.

The networks that are compiled are the canonical ones (`Match.canonical_iff_compiled`): no
match yields another, and the text of a canonical network, written as a prefix in a match,
yields this one. So a text names one compiled network and no other.

* `Match.location_text`: a prefix that is the text of a network is read as this network.
* `Match.text_names_network`: what this comes to for compiled networks.
-/
import PacketClassifier.Proofs.Address.RoundTrip
import PacketClassifier.Proofs.Match.WellFormed

namespace PacketClassifier

namespace Match

open Json (Members)

theorem location_text {key : String} (hkey : key ≠ "host") {n : Network}
    (h : n.length.toNat ≤ n.address.width) :
    location key (.str n.text) = .ok (.network n) := by
  have hread : Network.ofText? n.text = some n := by
    rw [Network.ofText?, Network.text, String.toList_ofList]
    exact Network.ofChars?_chars h
  simp only [location, string, Steps.ok_bind, if_neg hkey, hread]
  rfl

/-! ### Matches with one network -/

/-- The source of a packet in one network. -/
def sourceOf (n : Network) : Json := .obj [("ipv4", .obj [("prefix", .str n.text)])]

theorem endpoint_sourceOf {n : Network} (h : n.length.toNat ≤ n.address.width) :
    endpoint (sourceOf n) = .ok [.location (.network n)] := by
  have hlocation : location "prefix" (.str n.text) = .ok (.network n) :=
    location_text (by decide) h
  have hfield : endpointField ("ipv4", .obj [("prefix", .str n.text)])
      = .ok [.location (.network n)] := by
    simp [endpointField, members, Members.sorted, hlocation, Steps.ok_bind]
  simp [endpoint, sourceOf, members, Members.sorted, hfield, Steps.ok_bind]

theorem entries_sourceOf {n : Network} (h : n.length.toNat ≤ n.address.width) :
    entries [(Kind.source.name, sourceOf n)] = .ok [.sourceNetwork n.masked] := by
  rw [entries, predicates_singleton, predicate?, Kind.ofName?_name]
  simp only [predicateOf, endpoint_sourceOf h]
  rfl

/-- The canonical networks are those that are compiled from matches. -/
theorem canonical_iff_compiled {n : Network} :
    n.Canonical ↔ ∃ ms es, entries ms = .ok es
      ∧ (.sourceNetwork n ∈ es ∨ .destinationNetwork n ∈ es) := by
  constructor
  · intro hn
    refine ⟨_, _, entries_sourceOf hn.length_le, .inl ?_⟩
    rw [Network.masked_of_canonical hn]
    exact List.mem_singleton_self _
  · rintro ⟨ms, es, hes, hsource | hdestination⟩
    · exact wellFormed_of_mem_entries hes hsource
    · exact wellFormed_of_mem_entries hes hdestination

/-- **The text of a compiled network names it.** Written as a prefix, under any key but
that of a host, the text of a canonical network is read as this network and compiled to it
again. These are exactly the networks in the entries of matches, and two of them that have
one text are the same. -/
theorem text_names_network {key : String} (hkey : key ≠ "host") :
    (∀ n : Network, n.Canonical →
      location key (.str n.text) = .ok (.network n) ∧ (Location.network n).compiled = n)
      ∧ (∀ n : Network, n.Canonical ↔
        ∃ ms es, entries ms = .ok es ∧ (.sourceNetwork n ∈ es ∨ .destinationNetwork n ∈ es))
      ∧ ∀ m n : Network, m.Canonical → n.Canonical → m.text = n.text → m = n := by
  refine ⟨fun n hn => ⟨location_text hkey hn.length_le, Network.masked_of_canonical hn⟩,
    fun n => canonical_iff_compiled, fun m n hm hn htext => ?_⟩
  have hread := location_text hkey hm.length_le
  rw [htext, location_text hkey hn.length_le] at hread
  exact (Location.network.inj (Except.ok.inj hread)).symm

/-- A network with two runs of two zero groups in its address. -/
def twoRuns : Network := ⟨.v6 0x00010000000000020000000000030000, 112⟩

/-- A network of the newer version around addresses of the older one. -/
def embedding : Network := ⟨.v6 0xFFFF0A010200, 120⟩

theorem text_names_network_compressed :
    "prefix" ≠ "host" ∧ twoRuns.Canonical ∧ embedding.Canonical
      ∧ twoRuns.text = "1::2:0:0:3:0/112"
      ∧ location "prefix" (.str "1::2:0:0:3:0/112") = .ok (.network twoRuns)
      ∧ embedding.text = "::ffff:10.1.2.0/120"
      ∧ location "prefix" (.str "::ffff:10.1.2.0/120") = .ok (.network embedding)
      ∧ (Location.network embedding).compiled = embedding := by
  have hkey : "prefix" ≠ "host" := by decide
  have htwoRuns : twoRuns.Canonical := by decide
  have hembedding : embedding.Canonical := by decide
  have htext : twoRuns.text = "1::2:0:0:3:0/112" := by decide +kernel
  have htext' : embedding.text = "::ffff:10.1.2.0/120" := by decide +kernel
  obtain ⟨hnames, -, -⟩ := text_names_network hkey
  obtain ⟨hread, -⟩ := hnames twoRuns htwoRuns
  obtain ⟨hread', hcompiled⟩ := hnames embedding hembedding
  rw [htext] at hread
  rw [htext'] at hread'
  exact ⟨hkey, htwoRuns, hembedding, htext, hread, htext', hread', hcompiled⟩

end Match

end PacketClassifier
