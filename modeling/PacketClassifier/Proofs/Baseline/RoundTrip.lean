/-
What is kept comes back as it was.

`Baseline.load_save` says for which documents this is so. Whatever stood in the two files
before makes no difference, and the order of keys, the kind of a number and every
character of a string come back. Only how deep a document nests counts: it is kept in any
case, but a reader does not follow it further than `Json.maxDepth`
(`Baseline.depth_load_le`).
-/
import Mathlib
import PacketClassifier.Proofs.Baseline
import PacketClassifier.Proofs.Json.Legible

namespace PacketClassifier

namespace Baseline

/-- What is loaded never nests deeper than a reader goes. -/
theorem depth_load_le (files : Files) (path : Path) :
    (load files path).depth ≤ Json.maxDepth := by
  rcases load_eq_empty_or files path with hempty | ⟨text, ht⟩
  · rw [hempty]
    decide
  · exact (Json.legible_of_ofText? ht).depth_le

/-- **Round trip.** Where there is room for a document and its checksum, whatever files
stand there, every object can be kept, and there is room again. An object without
floating-point numbers, all of whose integers have 64 bits, is loaded afterwards exactly
as it was, unless it nests deeper than a reader goes. -/
theorem load_save {files made : Files} {path : Path} {place : Location} {name : String}
    {doc : Json} (hm : files.makeDirectories path.parent = (.ok (), made))
    (hroom : Room made path place name) (ho : doc.isObject = true) (hk : doc.Keyed)
    (hx : doc.Exact) :
    ∃ saved, save files path doc = (.ok (), saved) ∧ Room saved path place name
      ∧ (load saved path = doc ↔ doc.depth ≤ Json.maxDepth) := by
  obtain ⟨saved, hsave, hroom', hnode, _⟩ := save_of_room hm hroom ho
  refine ⟨saved, hsave, hroom', ?_, ?_⟩
  · intro hload
    rw [← hload]
    exact depth_load_le saved path
  · intro hdepth
    exact load_of_read (Files.read_of_node hnode) ho ⟨hk, hx, hdepth⟩

/-- Arrays around the largest integer. -/
def nestedArrays : Nat → Json
  | 0 => .int 18446744073709551615
  | n + 1 => .arr [nestedArrays n]

theorem nestedArrays_spec (n : Nat) :
    (nestedArrays n).Keyed ∧ (nestedArrays n).Exact ∧ (nestedArrays n).depth = n := by
  induction n with
  | zero => exact ⟨trivial, ⟨by decide, by decide⟩, rfl⟩
  | succ n ih =>
    obtain ⟨hk, hx, hd⟩ := ih
    refine ⟨⟨hk, trivial⟩, ⟨hx, trivial⟩, ?_⟩
    rw [nestedArrays, Json.depth, Json.depthItems, Json.depthItems, hd, Nat.max_zero]

/-- An object with the nested arrays, under a key that has to be escaped, and with empty
containers. -/
def nestedDocument (n : Nat) : Json :=
  .obj [("é\"\\\n", nestedArrays n), ("a", .arr []), ("A", .obj []),
    ("m", .int (-9223372036854775808))]

/-- A directory where something else stands at the path of the document and beside it. -/
def untidy : Files :=
  ⟨.directory 0 [("doc.json", .file [123] 1), ("doc.json.sha256", .file [255] 2)], [], 3⟩

theorem room_untidy : Room untidy ⟨false, ["doc.json"]⟩ [] "doc.json" := by
  have hends : (Path.mk false ["doc.json"]).endsInDots = false
      ∧ (Path.mk false ["doc.json"]).endsInSlash = false
      ∧ (checksumPath ⟨false, ["doc.json"]⟩).endsInSlash = false := ⟨by cbv, by cbv, by cbv⟩
  refine ⟨hends, by cbv, by cbv, 0, _, rfl, ?_, ?_⟩
  · intro n hn
    cases hn
    rfl
  · intro n hn
    cases hn
    exact ⟨_, _, rfl⟩

theorem load_save_nested :
    untidy.makeDirectories (Path.mk false ["doc.json"]).parent = (.ok (), untidy)
      ∧ Room untidy ⟨false, ["doc.json"]⟩ [] "doc.json"
      ∧ (∃ saved, save untidy ⟨false, ["doc.json"]⟩ (nestedDocument 126) = (.ok (), saved)
        ∧ load saved ⟨false, ["doc.json"]⟩ = nestedDocument 126)
      ∧ ∃ saved, save untidy ⟨false, ["doc.json"]⟩ (nestedDocument 127) = (.ok (), saved)
        ∧ load saved ⟨false, ["doc.json"]⟩ ≠ nestedDocument 127 := by
  have hm : untidy.makeDirectories (Path.mk false ["doc.json"]).parent
      = (.ok (), untidy) := by cbv
  have hspec : ∀ n, (nestedDocument n).Keyed ∧ (nestedDocument n).Exact
      ∧ (nestedDocument n).depth = max n 1 + 1 := by
    intro n
    obtain ⟨hk, hx, hd⟩ := nestedArrays_spec n
    have hkeys : ["é\"\\\n", "a", "A", "m"].Nodup := by decide
    refine ⟨⟨hkeys, hk, trivial, ⟨List.nodup_nil, trivial⟩, trivial, trivial⟩,
      ⟨hx, trivial, trivial, ⟨by decide, by decide⟩, trivial⟩, ?_⟩
    simp only [nestedDocument, Json.depth, Json.depthItems, Json.depthMembers, hd]
    omega
  obtain ⟨hk, hx, hd⟩ := hspec 126
  obtain ⟨hk', hx', hd'⟩ := hspec 127
  obtain ⟨saved, hsave, _, hload⟩ := load_save hm room_untidy rfl hk hx
  obtain ⟨saved', hsave', _, hload'⟩ := load_save hm room_untidy rfl hk' hx'
  refine ⟨hm, room_untidy, ⟨saved, hsave, hload.mpr ?_⟩, saved', hsave', fun h => ?_⟩
  · rw [hd]
    decide
  · have hdeep := hload'.mp h
    rw [hd'] at hdeep
    exact absurd hdeep (by decide)

end Baseline

end PacketClassifier
