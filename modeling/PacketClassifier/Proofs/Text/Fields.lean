/-
Fields of a text.

A text has fields if it consists of them, with one blank at least between any two and any
number of blanks at both ends (`Text.Separated`). Every text has exactly one list of
fields (`Text.fields_eq_iff`).
-/
import Mathlib.Data.List.Basic
import PacketClassifier.Text.Blank

namespace PacketClassifier

namespace Text

/-- Whether characters can be a field: there are some, and none is blank. -/
def IsField (cs : List Char) : Prop := cs ≠ [] ∧ ∀ c ∈ cs, isBlank c = false

/-- Whether a text consists of fields with blanks between them. -/
inductive Separated : List Char → List (List Char) → Prop where
  | nil : Separated [] []
  | blank {c : Char} {cs : List Char} {fs : List (List Char)} (hc : isBlank c = true)
      (h : Separated cs fs) :
      Separated (c :: cs) fs
  /-- A field that the text ends with. -/
  | last {f : List Char} (hf : IsField f) : Separated f [f]
  | field {f : List Char} {c : Char} {cs : List Char} {fs : List (List Char)} (hf : IsField f)
      (hc : isBlank c = true) (h : Separated cs fs) : Separated (f ++ c :: cs) (f :: fs)

theorem consField_of_not_blank {c : Char} (hc : isBlank c = false) (fs : List (List Char)) :
    consField c fs = (c :: fs.headD []) :: fs.tail := by
  cases fs with
  | nil => rw [consField, hc]; rfl
  | cons f fs => rw [consField, hc]; rfl

/-- A field is put together character by character, in front of what the next field has so
far. -/
theorem foldr_consField {f : List Char} (hf : IsField f) (fs : List (List Char)) :
    f.foldr consField fs = (f ++ fs.headD []) :: fs.tail := by
  obtain ⟨hne, hblank⟩ := hf
  induction f with
  | nil => exact absurd rfl hne
  | cons c f ih =>
    have hc := hblank c List.mem_cons_self
    rw [List.foldr_cons, consField_of_not_blank hc]
    by_cases hnil : f = []
    · subst hnil
      rfl
    · rw [ih hnil fun d hd => hblank d (List.mem_cons_of_mem c hd)]
      rfl

/-- After a blank, nothing of a field has been read. -/
theorem headD_consField_of_blank {c : Char} (hc : isBlank c = true) (fs : List (List Char)) :
    (consField c fs).headD [] = [] := by
  cases fs with
  | nil => rw [consField, hc]; rfl
  | cons f fs =>
    rw [consField, hc]
    cases f with
    | nil => rfl
    | cons _ _ => rfl

theorem filter_consField_of_blank {c : Char} (hc : isBlank c = true) (fs : List (List Char)) :
    (consField c fs).filter (! ·.isEmpty) = fs.filter (! ·.isEmpty) := by
  cases fs with
  | nil => rw [consField, hc]; rfl
  | cons f fs =>
    rw [consField, hc]
    cases f with
    | nil => rfl
    | cons _ _ => rfl

theorem fields_blank {c : Char} (hc : isBlank c = true) (cs : List Char) :
    fields (c :: cs) = fields cs :=
  filter_consField_of_blank hc _

theorem fields_append {f : List Char} (hf : IsField f) {cs : List Char}
    (h : (cs.foldr consField []).headD [] = []) : fields (f ++ cs) = f :: fields cs := by
  rw [fields, fields, List.foldr_append, foldr_consField hf, h, List.append_nil]
  rw [List.filter_cons_of_pos (by simpa using hf.1)]
  cases hr : cs.foldr consField [] with
  | nil => rfl
  | cons g gs =>
    rw [hr] at h
    obtain rfl : g = [] := h
    rfl

/-- The fields of a text are those that it consists of. -/
theorem Separated.fields_eq {cs : List Char} {fs : List (List Char)} (h : Separated cs fs) :
    fields cs = fs := by
  induction h with
  | nil => rfl
  | blank hc _ ih => rw [fields_blank hc, ih]
  | @last f hf =>
    have happend : fields (f ++ []) = f :: fields [] := fields_append hf rfl
    rwa [List.append_nil] at happend
  | @field f c cs fs hf hc _ ih =>
    have hgap : ((c :: cs).foldr consField []).headD [] = [] := headD_consField_of_blank hc _
    rw [fields_append hf hgap, fields_blank hc, ih]

/-- A character that is not blank makes a field of its own, or the first field longer. -/
theorem Separated.exists_cons {c : Char} (hc : isBlank c = false) {cs : List Char}
    {fs : List (List Char)} (h : Separated cs fs) : ∃ gs, Separated (c :: cs) gs := by
  have hfield : ∀ f : List Char, (∀ d ∈ f, isBlank d = false) → IsField (c :: f) :=
    fun f hf => ⟨List.cons_ne_nil c f, List.forall_mem_cons.mpr ⟨hc, hf⟩⟩
  cases h with
  | nil => exact ⟨_, .last (hfield [] fun _ hd => absurd hd List.not_mem_nil)⟩
  | blank hd hcs =>
    exact ⟨_, .field (hfield [] fun _ hd => absurd hd List.not_mem_nil) hd hcs⟩
  | last hf => exact ⟨_, .last (hfield _ hf.2)⟩
  | field hf hd hcs => exact ⟨_, .field (hfield _ hf.2) hd hcs⟩

/-- Every text consists of fields. -/
theorem exists_separated (cs : List Char) : ∃ fs, Separated cs fs := by
  induction cs with
  | nil => exact ⟨[], .nil⟩
  | cons c cs ih =>
    obtain ⟨fs, hfs⟩ := ih
    cases hc : isBlank c with
    | true => exact ⟨fs, .blank hc hfs⟩
    | false => exact hfs.exists_cons hc

theorem fields_eq_iff {cs : List Char} {fs : List (List Char)} :
    fields cs = fs ↔ Separated cs fs := by
  refine ⟨?_, Separated.fields_eq⟩
  rintro rfl
  obtain ⟨fs, hfs⟩ := exists_separated cs
  rwa [hfs.fields_eq]

end Text

end PacketClassifier
