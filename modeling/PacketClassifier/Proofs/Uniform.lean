/-
Steps that depend on something without showing it.

A family of steps is uniform (`Steps.Uniform`) if all of them fail, and in the same way,
or all of them succeed. What is known of the values is said of the value as a function of
the index, and for lists place by place (`Steps.Placewise`): then their length does not
depend on the index. Families that are made of uniform steps are uniform
(`Steps.Uniform.bind`, `Steps.Uniform.mapM`).
-/
import PacketClassifier.Proofs.Except

namespace PacketClassifier

namespace Steps

variable {ι ε α β γ : Type} {P : (ι → α) → Prop} {Q : (ι → β) → Prop}

/-- Whether steps all fail with the same failure, or all succeed with values of which
something holds. -/
def Uniform (P : (ι → α) → Prop) (x : ι → Except ε α) : Prop :=
  (∃ e, ∀ i, x i = .error e) ∨ ∃ a, P a ∧ ∀ i, x i = .ok (a i)

theorem Uniform.ok {a : ι → α} (h : P a) : Uniform P fun i => (.ok (a i) : Except ε α) :=
  .inr ⟨a, h, fun _ => rfl⟩

theorem Uniform.error (e : ε) : Uniform P fun _ => (.error e : Except ε α) :=
  .inl ⟨e, fun _ => rfl⟩

theorem Uniform.imp {P' : (ι → α) → Prop} {x : ι → Except ε α} (h : Uniform P x)
    (hp : ∀ a, P a → P' a) :
    Uniform P' x := by
  rcases h with he | ⟨a, ha, hx⟩
  · exact .inl he
  · exact .inr ⟨a, hp a ha, hx⟩

theorem Uniform.bind {x : ι → Except ε α} {f : ι → α → Except ε β} (h : Uniform P x)
    (hf : ∀ a, P a → Uniform Q fun i => f i (a i)) : Uniform Q fun i => x i >>= f i := by
  rcases h with ⟨e, he⟩ | ⟨a, ha, hx⟩
  · left
    refine ⟨e, fun i => ?_⟩
    show x i >>= f i = .error e
    rw [he i]
    rfl
  · have heq : (fun i => x i >>= f i) = fun i => f i (a i) := by
      funext i
      rw [hx i]
      rfl
    rw [heq]
    exact hf a ha

theorem Uniform.map {x : ι → Except ε α} {g : ι → α → β} (h : Uniform P x)
    (hg : ∀ a, P a → Q fun i => g i (a i)) :
    Uniform Q fun i => x i >>= fun a => pure (g i a) :=
  h.bind fun a ha => .ok (hg a ha)

/-! ### Lists place by place -/

/-- Whether something holds of every place of a list whose length does not depend on the
index. -/
def Placewise (P : (ι → α) → Prop) (as : ι → List α) : Prop :=
  ∃ places : List (ι → α), (∀ a ∈ places, P a) ∧ as = fun i => places.map fun a => a i

theorem Placewise.nil : Placewise P fun _ => [] :=
  ⟨[], fun _ h => absurd h List.not_mem_nil, rfl⟩

theorem Placewise.cons {a : ι → α} {as : ι → List α} (h : P a) (hs : Placewise P as) :
    Placewise P fun i => a i :: as i := by
  obtain ⟨places, hp, rfl⟩ := hs
  exact ⟨a :: places, List.forall_mem_cons.mpr ⟨h, hp⟩, rfl⟩

theorem Placewise.append {as bs : ι → List α} (h : Placewise P as) (h' : Placewise P bs) :
    Placewise P fun i => as i ++ bs i := by
  obtain ⟨places, hp, rfl⟩ := h
  obtain ⟨places', hp', rfl⟩ := h'
  refine ⟨places ++ places', fun a ha => ?_, ?_⟩
  · exact (List.mem_append.mp ha).elim (hp a) (hp' a)
  · funext i
    rw [List.map_append]

theorem Placewise.flatMap {as : ι → List α} {g : α → List β} (h : Placewise P as)
    (hg : ∀ a, P a → Placewise Q fun i => g (a i)) :
    Placewise Q fun i => (as i).flatMap g := by
  obtain ⟨places, hp, rfl⟩ := h
  induction places with
  | nil => exact .nil
  | cons a places ih =>
    rw [List.forall_mem_cons] at hp
    exact (hg a hp.1).append (ih hp.2)

theorem Placewise.map {as : ι → List α} {g : α → β} (h : Placewise P as)
    (hg : ∀ a, P a → Q fun i => g (a i)) :
    Placewise Q fun i => (as i).map g := by
  obtain ⟨places, hp, rfl⟩ := h
  refine ⟨places.map fun a i => g (a i), fun b hb => ?_, ?_⟩
  · obtain ⟨a, ha, rfl⟩ := List.mem_map.mp hb
    exact hg a (hp a ha)
  · funext i
    rw [List.map_map, List.map_map]
    rfl

/-- Uniform steps along a list. -/
theorem Uniform.mapM {xs : List γ} {f : ι → γ → Except ε α}
    (h : ∀ x ∈ xs, Uniform P fun i => f i x) :
    Uniform (Placewise P) fun i => xs.mapM (f i) := by
  induction xs with
  | nil => exact .ok .nil
  | cons x xs ih =>
    rw [List.forall_mem_cons] at h
    simp only [List.mapM_cons]
    refine h.1.bind fun a ha => ?_
    exact (ih h.2).map fun as has => has.cons ha

end Steps

end PacketClassifier
