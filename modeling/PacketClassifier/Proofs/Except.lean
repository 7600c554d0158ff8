/-
Steps that may fail, one after another.

Readers, compilers and services are all written as such steps. `Steps.ok_bind` is the law
by which a proof goes past one step, and `Steps.bind_pure_eq_ok_iff` and
`Steps.bind_pure_eq_error_iff` look behind a last one that only changes the value. Of a
step along a list, `Steps.mapM_eq_ok_iff` and `Steps.mapM_eq_error_iff` say when it
succeeds and which failure it ends with.

Two programs are compared by `Steps.Related`: they succeed or fail together, their values
are related, and so are their failures. Programs that are made of related steps are
related (`Steps.Related.bind`, `Steps.Related.mapM`).
-/
import Mathlib.Data.List.Forall2

namespace PacketClassifier

namespace Steps

variable {ε α β : Type}

/-- A step that succeeded hands its value on. -/
theorem ok_bind (a : α) (f : α → Except ε β) : ((Except.ok a : Except ε α) >>= f) = f a := rfl

/-- A step whose value is changed afterwards succeeds with the changed values. -/
theorem bind_pure_eq_ok_iff {x : Except ε α} {g : α → β} {b : β} :
    (x >>= fun a => pure (g a)) = .ok b ↔ ∃ a, x = .ok a ∧ g a = b := by
  constructor
  · intro h
    cases x with
    | error e => cases h
    | ok a => exact ⟨a, rfl, Except.ok.inj h⟩
  · rintro ⟨a, rfl, rfl⟩
    rfl

theorem exists_bind_pure_eq_ok_iff {x : Except ε α} {g : α → β} :
    (∃ b, (x >>= fun a => pure (g a)) = .ok b) ↔ ∃ a, x = .ok a := by
  simp only [bind_pure_eq_ok_iff]
  constructor
  · rintro ⟨_, a, ha, _⟩
    exact ⟨a, ha⟩
  · rintro ⟨a, ha⟩
    exact ⟨g a, a, ha, rfl⟩

theorem bind_pure_eq_error_iff {x : Except ε α} {g : α → β} {e : ε} :
    (x >>= fun a => pure (g a)) = .error e ↔ x = .error e := by
  constructor
  · intro h
    cases x with
    | error d => exact congrArg Except.error (Except.error.inj h)
    | ok a => cases h
  · rintro rfl
    rfl

theorem mapM_map_eq_ok {f : α → Except ε β} {g : β → α} (h : ∀ b, f (g b) = .ok b)
    (bs : List β) :
    (bs.map g).mapM f = .ok bs := by
  induction bs with
  | nil => rfl
  | cons b bs ih =>
    rw [List.map_cons, List.mapM_cons, h, ok_bind, ih, ok_bind]
    rfl

/-! ### Steps along a list -/

variable {f : α → Except ε β} {xs : List α} {ys : List β} {e : ε}

theorem mapM_eq_ok_iff :
    xs.mapM f = .ok ys ↔ List.Forall₂ (fun x y => f x = .ok y) xs ys := by
  induction xs generalizing ys with
  | nil =>
    rw [List.forall₂_nil_left_iff]
    exact ⟨fun h => (Except.ok.inj h).symm, fun h => congrArg Except.ok h.symm⟩
  | cons x xs ih =>
    rw [List.mapM_cons, List.forall₂_cons_left_iff]
    constructor
    · intro h
      cases hx : f x with
      | error e =>
        rw [hx] at h
        cases h
      | ok y =>
        cases hxs : xs.mapM f with
        | error e =>
          rw [hx, hxs] at h
          cases h
        | ok zs =>
          rw [hx, hxs] at h
          exact ⟨y, zs, rfl, ih.mp hxs, (Except.ok.inj h).symm⟩
    · rintro ⟨y, zs, hx, hxs, rfl⟩
      rw [hx, ih.mpr hxs]
      rfl

/-- Every value that comes out of steps along a list comes out of one of them. -/
theorem exists_of_mem_mapM (h : xs.mapM f = .ok ys) {y : β} (hy : y ∈ ys) :
    ∃ x ∈ xs, f x = .ok y := by
  have hall := mapM_eq_ok_iff.mp h
  clear h
  induction hall with
  | nil => exact absurd hy List.not_mem_nil
  | @cons x z xs zs hx _ ih =>
    rcases List.mem_cons.mp hy with rfl | hy
    · exact ⟨x, List.mem_cons_self, hx⟩
    · obtain ⟨w, hw, hz⟩ := ih hy
      exact ⟨w, List.mem_cons_of_mem _ hw, hz⟩

/-- Steps along a list succeed if each of them does. -/
theorem exists_mapM_eq_ok_iff : (∃ ys, xs.mapM f = .ok ys) ↔ ∀ x ∈ xs, ∃ y, f x = .ok y := by
  induction xs with
  | nil => exact iff_of_true ⟨[], rfl⟩ fun _ h => absurd h List.not_mem_nil
  | cons x xs ih =>
    rw [List.forall_mem_cons, ← ih]
    constructor
    · rintro ⟨ys, h⟩
      obtain ⟨y, zs, hx, hxs, _⟩ := List.forall₂_cons_left_iff.mp (mapM_eq_ok_iff.mp h)
      exact ⟨⟨y, hx⟩, zs, mapM_eq_ok_iff.mpr hxs⟩
    · rintro ⟨⟨y, hx⟩, zs, hxs⟩
      exact ⟨y :: zs, mapM_eq_ok_iff.mpr (.cons hx (mapM_eq_ok_iff.mp hxs))⟩

/-- Steps along a list end with the failure of the first one that fails. -/
theorem mapM_eq_error_iff : xs.mapM f = .error e ↔
    ∃ front x back, xs = front ++ x :: back ∧ (∀ y ∈ front, ∃ b, f y = .ok b)
      ∧ f x = .error e := by
  induction xs with
  | nil =>
    refine iff_of_false (fun h => nomatch h) ?_
    rintro ⟨front, x, back, h, _⟩
    cases front <;> cases h
  | cons x xs ih =>
    rw [List.mapM_cons]
    constructor
    · intro h
      cases hx : f x with
      | error d =>
        rw [hx] at h
        obtain rfl : d = e := Except.error.inj h
        exact ⟨[], x, xs, rfl, fun _ hm => absurd hm List.not_mem_nil, hx⟩
      | ok y =>
        cases hxs : xs.mapM f with
        | ok zs =>
          rw [hx, hxs] at h
          cases h
        | error d =>
          rw [hx, hxs] at h
          rw [hxs] at ih
          obtain ⟨front, z, back, rfl, hfront, hz⟩ := ih.mp h
          exact ⟨x :: front, z, back, rfl, List.forall_mem_cons.mpr ⟨⟨y, hx⟩, hfront⟩, hz⟩
    · rintro ⟨front, z, back, h, hfront, hz⟩
      cases front with
      | nil =>
        obtain ⟨rfl, rfl⟩ := List.cons.inj h
        rw [hz]
        rfl
      | cons y front =>
        obtain ⟨rfl, rfl⟩ := List.cons.inj h
        obtain ⟨⟨b, hx⟩, hrest⟩ := List.forall_mem_cons.mp hfront
        rw [hx, ih.mpr ⟨front, z, back, rfl, hrest, hz⟩]
        rfl

/-! ### Related steps -/

/-- Two steps that end alike: with related values or with related failures. -/
inductive Related {ε δ α β : Type} (E : ε → δ → Prop) (R : α → β → Prop) :
    Except ε α → Except δ β → Prop where
  | ok {a : α} {b : β} (h : R a b) : Related E R (.ok a) (.ok b)
  | error {e : ε} {d : δ} (h : E e d) : Related E R (.error e) (.error d)

variable {δ γ α' β' : Type} {E : ε → δ → Prop} {R : α → β → Prop} {S : α' → β' → Prop}

/-- Related programs go on as related programs. -/
theorem Related.bind {x : Except ε α} {y : Except δ β} {f : α → Except ε α'}
    {g : β → Except δ β'} (h : Related E R x y)
    (hfg : ∀ a b, R a b → Related E S (f a) (g b)) : Related E S (x >>= f) (y >>= g) := by
  cases h with
  | ok hab => exact hfg _ _ hab
  | error he => exact .error he

theorem Related.imp {R' : α → β → Prop} {x : Except ε α} {y : Except δ β}
    (h : Related E R x y) (hR : ∀ a b, R a b → R' a b) : Related E R' x y := by
  cases h with
  | ok hab => exact .ok (hR _ _ hab)
  | error he => exact .error he

theorem Related.map {x : Except ε α} {y : Except δ β} {f : α → α'} {g : β → β'}
    (h : Related E R x y) (hfg : ∀ a b, R a b → S (f a) (g b)) :
    Related E S (x >>= fun a => pure (f a)) (y >>= fun b => pure (g b)) :=
  h.bind fun a b hab => .ok (hfg a b hab)

theorem Related.map_eq {γ' : Type} {x : Except ε γ} {y : Except δ γ} (h : Related E Eq x y)
    (f : γ → γ') :
    Related E Eq (x >>= fun a => pure (f a)) (y >>= fun a => pure (f a)) :=
  h.map fun _ _ => congrArg f

/-- Two steps that succeed with related values or both fail, whatever the failures are. -/
abbrev Alike (R : α → β → Prop) : Except ε α → Except δ β → Prop :=
  Related (fun _ _ => True) R

/-- Related steps along related lists. -/
theorem Related.mapM {f : α → Except ε α'} {g : β → Except δ β'} {as : List α} {bs : List β}
    (h : List.Forall₂ R as bs) (hfg : ∀ a b, R a b → Related E S (f a) (g b)) :
    Related E (List.Forall₂ S) (as.mapM f) (bs.mapM g) := by
  induction h with
  | nil => exact .ok .nil
  | cons hab _ ih =>
    rw [List.mapM_cons, List.mapM_cons]
    exact (hfg _ _ hab).bind fun a b hr => ih.map fun as bs hrs => .cons hr hrs

/-- A step ends like itself. -/
theorem Alike.refl {R : α → α → Prop} (h : ∀ a, R a a) (x : Except ε α) : Alike R x x := by
  cases x with
  | ok a => exact .ok (h a)
  | error e => exact .error trivial

theorem Alike.toOption {R : α → β → Prop} {x : Except ε α} {y : Except δ β}
    (h : Alike R x y) :
    Option.Rel R x.toOption y.toOption := by
  cases h with
  | ok hab => exact .some hab
  | error _ => exact .none

theorem Alike.eq_ok_iff {x : Except ε α} {y : Except δ α} (h : Alike Eq x y) (a : α) :
    x = .ok a ↔ y = .ok a := by
  cases h with
  | ok hab => rw [hab, Except.ok.injEq, Except.ok.injEq]
  | error _ =>
    constructor
    · intro hx
      cases hx
    · intro hy
      cases hy

theorem Alike.exists_error_iff {x : Except ε α} {y : Except δ β} (h : Alike R x y) :
    (∃ e, x = .error e) ↔ ∃ d, y = .error d := by
  cases h with
  | ok _ =>
    constructor
    · rintro ⟨_, hx⟩
      cases hx
    · rintro ⟨_, hy⟩
      cases hy
  | error _ => exact iff_of_true ⟨_, rfl⟩ ⟨_, rfl⟩

theorem Alike.trans {η : Type} {T : γ → α' → Prop} {x : Except ε γ} {y : Except δ β}
    {z : Except η α'} {Q : γ → β → Prop} {P : β → α' → Prop} (h : Alike Q x y)
    (h' : Alike P y z) (hqp : ∀ a b c, Q a b → P b c → T a c) :
    Alike T x z := by
  cases h with
  | ok hab =>
    cases h' with
    | ok hbc => exact .ok (hqp _ _ _ hab hbc)
  | error _ =>
    cases h' with
    | error _ => exact .error trivial

end Steps

end PacketClassifier
