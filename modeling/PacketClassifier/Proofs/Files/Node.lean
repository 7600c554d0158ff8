/-
One entry of a directory.

An edit at a location changes one entry of the directory that the location stands in and
nothing else of it (`Node.edit_append`), and it succeeds exactly if the directory is there
and the change admits what the entry is (`Node.edit_append_inv`). So two entries of one
directory do not get in each other's way.
-/
import PacketClassifier.Files.Node

namespace PacketClassifier

namespace Node

theorem find_append {place : Location} {name : String} {stamp : Nat}
    {es : List (String × Node)} {root n : Node}
    (hf : root.find place = .ok (directory stamp es)) (hl : es.lookup name = some n) :
    root.find (place ++ [name]) = .ok n := by
  induction place generalizing root with
  | nil =>
    obtain rfl : root = directory stamp es := Except.ok.inj hf
    simp [find, hl]
  | cons x place ih =>
    cases root with
    | file _ _ => cases hf
    | socket _ => cases hf
    | directory s ds =>
      rw [List.cons_append, find]
      rw [find] at hf
      cases hx : ds.lookup x with
      | none => simp [hx] at hf
      | some child =>
        simp only [hx] at hf
        exact ih hf

/-- An edit that the entry admits changes the entry. -/
theorem edit_append {change : Option Node → Except IoFault Node} {place : Location}
    {name : String} {stamp : Nat} {es : List (String × Node)} {root m : Node}
    (hf : root.find place = .ok (directory stamp es)) (hc : change (es.lookup name) = .ok m) :
    ∃ edited, root.edit change (place ++ [name]) = .ok edited
      ∧ edited.find place = .ok (directory stamp (Assoc.insert name m es)) := by
  induction place generalizing root with
  | nil =>
    obtain rfl : root = directory stamp es := Except.ok.inj hf
    refine ⟨directory stamp (Assoc.insert name m es), ?_, rfl⟩
    rw [List.nil_append, edit]
    cases hl : es.lookup name with
    | none =>
      rw [hl] at hc
      simp [hc, Except.map]
    | some n =>
      rw [hl] at hc
      simp [edit, hc, Except.map]
  | cons x place ih =>
    cases root with
    | file _ _ => cases hf
    | socket _ => cases hf
    | directory s ds =>
      rw [find] at hf
      cases hx : ds.lookup x with
      | none => simp [hx] at hf
      | some child =>
        simp only [hx] at hf
        obtain ⟨edited, he, hfound⟩ := ih hf
        refine ⟨directory s (Assoc.insert x edited ds), ?_, ?_⟩
        -- The directory on the way puts the edited child back under its name.
        · rw [List.cons_append, edit, hx]
          simp [he, Except.map]
        · simp [find, hfound]

/-- An edit that succeeded found the directory, and the entry admitted it. -/
theorem edit_append_inv {change : Option Node → Except IoFault Node} {place : Location}
    {name : String} {root edited : Node}
    (h : root.edit change (place ++ [name]) = .ok edited) :
    ∃ stamp es m, root.find place = .ok (directory stamp es)
      ∧ change (es.lookup name) = .ok m := by
  induction place generalizing root edited with
  | nil =>
    cases root with
    | file _ _ => cases h
    | socket _ => cases h
    | directory stamp es =>
      rw [List.nil_append, edit] at h
      cases hl : es.lookup name with
      | none =>
        -- The edit asks the change about what stands there, whether it is there or not.
        cases hc : change none with
        | error e => simp [hl, hc, Except.map] at h
        | ok m => exact ⟨stamp, es, m, rfl, by rw [hl, hc]⟩
      | some n =>
        cases hc : change (some n) with
        | error e => simp [hl, hc, edit, Except.map] at h
        | ok m => exact ⟨stamp, es, m, rfl, by rw [hl, hc]⟩
  | cons x place ih =>
    cases root with
    | file _ _ => cases h
    | socket _ => cases h
    | directory s ds =>
      rw [List.cons_append, edit] at h
      cases hx : ds.lookup x with
      | none => simp [hx] at h
      | some child =>
        cases he : child.edit change (place ++ [name]) with
        | error e => simp [hx, he, Except.map] at h
        | ok inner =>
          obtain ⟨stamp, es, m, hf, hc⟩ := ih he
          exact ⟨stamp, es, m, by rw [find, hx]; exact hf, hc⟩

theorem edit_of_find {change : Option Node → Except IoFault Node} {location : Location}
    {root n : Node} {fault : IoFault} (hf : root.find location = .ok n)
    (hc : change (some n) = .error fault) :
    root.edit change location = .error fault := by
  induction location generalizing root with
  | nil =>
    obtain rfl : root = n := Except.ok.inj hf
    rw [edit, hc]
  | cons x location ih =>
    cases root with
    | file _ _ => cases hf
    | socket _ => cases hf
    | directory s ds =>
      rw [find] at hf
      rw [edit]
      cases hx : ds.lookup x with
      | none => simp [hx] at hf
      | some child =>
        simp only [hx] at hf
        simp [ih hf, Except.map]

theorem walk_append (root : Node) (here : Location) (pieces rest : List String) :
    root.walk here (pieces ++ rest)
      = (root.walk here pieces).bind fun there => root.walk there rest := by
  induction pieces generalizing here with
  | nil => rfl
  | cons piece pieces ih =>
    rw [List.cons_append, walk, walk]
    split
    · split
      · exact ih _
      · rfl
    · rfl
    · rfl

theorem walk_singleton {root : Node} {here there : Location} {name : String}
    (hn : Path.staysInPlace name = false) (hup : name ≠ "..") :
    root.walk here [name] = .ok there ↔
      (∃ stamp es, root.find here = .ok (directory stamp es))
        ∧ name.utf8ByteSize ≤ longestName
        ∧ there = here ++ [name] := by
  rw [walk]
  cases root.find here with
  | error e => simp
  | ok n =>
    cases n with
    | file _ _ => simp
    | socket _ => simp
    | directory stamp es =>
      have hstep : here.step name = here ++ [name] := by
        rw [Location.step, hn, if_neg Bool.false_ne_true, if_neg hup]
      by_cases hlen : name.utf8ByteSize ≤ longestName
      · simp [hlen, walk, hstep, eq_comm]
      · simp [hlen]

end Node

end PacketClassifier
