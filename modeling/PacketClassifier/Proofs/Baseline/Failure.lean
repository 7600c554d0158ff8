/-
What is loaded after a document could not be kept.

Keeping a document takes several steps, and `Baseline.Ending` lists where they can end.
All but one of the failures come before the document takes its place, and then whatever
was loaded before is loaded still (`Baseline.load_of_save_error`). The one that comes
later is a checksum that cannot be written (`Baseline.Unsealed`): the new document is
there by then (`Baseline.save_of_unsealed`).
-/
import PacketClassifier.Proofs.Baseline
import PacketClassifier.Proofs.Files.Failure

namespace PacketClassifier

namespace Baseline

variable {files : Files} {path : Path} {doc : Json}

/-- Whether a document would take its place without a checksum beside it. -/
def Unsealed (files : Files) (path : Path) (doc : Json) : Prop :=
  doc.isObject = true ∧ ∃ made placed fault,
    files.makeDirectories path.parent = (.ok (), made)
    ∧ made.replace path (content doc) = .ok placed
    ∧ placed.write (checksumPath path) (Utf8.ofString (Sha256.hex (content doc)))
        = .error fault

/-- How the attempt to keep a document can end. -/
inductive Ending (files : Files) (path : Path) (doc : Json) :
    Except Error Unit × Files → Prop where
  | noObject (ho : doc.isObject = false) : Ending files path doc (.error .notAnObject, files)
  | noDirectory {fault : IoFault} {made : Files}
      (hm : files.makeDirectories path.parent = (.error fault, made)) :
      Ending files path doc (.error (.io fault), made)
  | noPlace {fault : IoFault} {made : Files}
      (hm : files.makeDirectories path.parent = (.ok (), made))
      (hr : made.replace path (content doc) = .error fault) :
      Ending files path doc (.error (.io fault), made)
  | noChecksum {fault : IoFault} {placed : Files} (hu : Unsealed files path doc)
      (hread : placed.read path = .ok (content doc)) :
      Ending files path doc (.error (.io fault), placed)
  | kept {saved : Files} (ho : doc.isObject = true) : Ending files path doc (.ok (), saved)

theorem save_ends (files : Files) (path : Path) (doc : Json) :
    Ending files path doc (save files path doc) := by
  rw [save]
  cases ho : doc.isObject with
  | false => exact .noObject ho
  | true =>
    rw [if_pos rfl]
    cases hm : files.makeDirectories path.parent with
    | mk result made =>
      cases result with
      | error fault => exact .noDirectory hm
      | ok _ =>
        simp only [write]
        cases hr : made.replace path (content doc) with
        | error fault => exact .noPlace hm hr
        | ok placed =>
          simp only []
          cases hw : placed.write (checksumPath path)
              (Utf8.ofString (Sha256.hex (content doc))) with
          | error fault =>
            exact .noChecksum ⟨ho, made, placed, fault, hm, hr, hw⟩ (Files.read_replace hr)
          | ok saved => exact .kept ho

theorem load_of_locate_error {fault : IoFault} (h : files.locate path = .error fault) :
    load files path = .empty := by
  refine load_of_read_error fun bs hr => ?_
  obtain ⟨location, _, hl, _⟩ := Files.read_eq_ok hr
  rw [h] at hl
  cases hl

/-- A document that would be left without a checksum takes its place, and the attempt
fails. -/
theorem save_of_unsealed (h : Unsealed files path doc) :
    ∃ fault placed, save files path doc = (.error (.io fault), placed)
      ∧ placed.read path = .ok (content doc) := by
  obtain ⟨ho, made, placed, fault, hm, hr, hw⟩ := h
  refine ⟨fault, placed, ?_, Files.read_replace hr⟩
  rw [save, if_pos ho, hm]
  simp only [write, hr, hw]
  rfl

/-- A failure that is not about the checksum leaves what is loaded as it was. -/
theorem load_of_save_error {e : Error} {after : Files}
    (h : save files path doc = (.error e, after)) (hu : ¬ Unsealed files path doc) :
    load after path = load files path := by
  have hend := save_ends files path doc
  rw [h] at hend
  cases hl : files.locate path with
  | ok location =>
    -- The path leads somewhere, so there is no directory to make.
    have hsame := Files.makeDirectories_of_isDirectory (Files.isDirectory_parent hl)
    cases hend with
    | noObject _ => rfl
    | noDirectory hm =>
      rw [hsame] at hm
      cases hm
    | noPlace hm _ =>
      rw [hsame] at hm
      rw [(Prod.mk.inj hm).2]
    | noChecksum hu' _ => exact absurd hu' hu
  | error fault =>
    -- Nothing is loaded before, and directories alone do not make a file.
    rw [load_of_locate_error hl]
    cases hend with
    | noObject _ => exact load_of_locate_error hl
    | noDirectory hm =>
      obtain ⟨fault', hl'⟩ := Files.locate_of_makeDirectories_error hm
      exact load_of_locate_error hl'
    | noPlace hm hr =>
      refine load_of_read_error fun bs hread => ?_
      have hp : path.pieces ≠ [] := by
        intro hp
        have hnames : path.parent.names = [] := by
          rw [Path.names_parent]
          simp [Path.names, hp]
        rw [Files.makeDirectories_of_isDirectory (.inl hnames)] at hm
        obtain ⟨_, _, hl', _⟩ := Files.read_eq_ok hread
        rw [← (Prod.mk.inj hm).2, hl] at hl'
        cases hl'
      obtain ⟨placed, hplaced⟩ := Files.replace_of_read hread hp (content doc)
      rw [hr] at hplaced
      cases hplaced
    | noChecksum hu' _ => exact absurd hu' hu

end Baseline

end PacketClassifier
