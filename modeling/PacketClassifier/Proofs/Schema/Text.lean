/-
Records read back from text.

A record that is read from text is never a whole document. But where all members of an
object are fields of the record and can be written without loss, its text is read for the
same record as the object itself (`Schema.ofText?_write`).
-/
import PacketClassifier.Proofs.Json.RoundTrip
import PacketClassifier.Schema.Text

namespace PacketClassifier

namespace Schema

open Json (Members Layout)

theorem givesOnce_of_nodup (fields : List String) {ms : Members} (h : (Assoc.keys ms).Nodup) :
    givesOnce fields (.obj ms) = true := by
  refine List.all_eq_true.mpr fun f _ => decide_eq_true ?_
  exact List.nodup_iff_count.mp (h.filter _) f

/-- The text of an object is read like the object, if all its members are fields of the
record. -/
theorem ofText?_write {α : Type} {l : Layout} (hl : l.Blank) (name : String) {shape : Shape α}
    {ms : Members} (hn : (Assoc.keys ms).Nodup)
    (hm : ∀ m ∈ ms, m.1 ∈ shape.names ∧ m.2.Exact ∧ m.2.depth ≤ innerDepth) :
    ofText? name shape (Json.write l 0 (.obj ms))
      = (record name shape (.obj ms)).toOption := by
  -- Every member is a field, so no value is passed over.
  have hread : ∀ m ∈ ms, memberValue shape.names m.1 = Json.Read.value innerDepth
      ∧ Json.Reads l innerDepth m.2 := by
    intro m h
    obtain ⟨hfield, hexact, hdepth⟩ := hm m h
    refine ⟨?_, Json.reads_of_exact hl hexact hdepth⟩
    funext cs
    rw [memberValue, if_pos (List.contains_iff_mem.mpr hfield)]
  obtain ⟨cs, htext, hobject⟩ := Json.object_write hl hread 0 []
  rw [List.append_nil] at htext
  have hdocument : document? shape.names (Json.write l 0 (.obj ms)) = some (.obj ms, []) := by
    rw [document?, htext, Json.skipBlank_cons rfl]
    exact hobject
  rw [ofText?, hdocument]
  show (if givesOnce shape.names (.obj ms) = true then _ else none) = _
  rw [if_pos (givesOnce_of_nodup _ hn)]

end Schema

end PacketClassifier
