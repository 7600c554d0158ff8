/-
How messages are written, with and without unknown fields in between.

A `Wire.Layout` lists the fields that a message is written as, those with a message inside
them together with its own layout. `Layout.bytes` is what is written, and `Wire.Padded`
says that bytes are a layout with unknown fields put in before, between and behind the
fields of every message in it, where the lengths around them are those of the longer
messages.

* `Padded.bytes`: putting in nothing is one way to do so;
* `Reads`: whether every padded form of a layout is taken in alike, with one lemma for
  each kind of field.
-/
import PacketClassifier.Proofs.Wire.Unknown

namespace PacketClassifier

namespace Wire

/-- The fields of a message one after another. -/
inductive Layout where
  | done
  /-- A field without fields inside it. -/
  | bare (field : Bytes) (more : Layout)
  /-- A field with a message inside it, and the field numbers that this message knows. -/
  | message (number : Nat) (known : List Nat) (inner : Layout) (more : Layout)

namespace Layout

/-- A field that is left out when its number is zero. -/
def plain (number value : Nat) (more : Layout) : Layout :=
  if value = 0 then more else .bare (numberField number value) more

/-- What is written. -/
def bytes : Layout → Bytes
  | done => []
  | bare field more => field ++ more.bytes
  | message number _ inner more => bytesField number inner.bytes ++ more.bytes

/-- How many messages stand inside one another at most. -/
def nesting : Layout → Nat
  | done => 0
  | bare _ more => more.nesting
  | message _ _ inner more => max (inner.nesting + 1) more.nesting

theorem bytes_plain (number value : Nat) (more : Layout) :
    (plain number value more).bytes = plainField number value ++ more.bytes := by
  rw [plain, plainField]
  split <;> rfl

theorem nesting_plain (number value : Nat) (more : Layout) :
    (plain number value more).nesting = more.nesting := by
  rw [plain]
  split <;> rfl

/-- Messages under one field number, one after another. -/
def repeated {α : Type} (number : Nat) (known : List Nat) (layout : α → Layout)
    (as : List α) : Layout :=
  as.foldr (fun a more => .message number known (layout a) more) .done

theorem bytes_repeated {α : Type} (number : Nat) (known : List Nat) (layout : α → Layout)
    (as : List α) :
    (repeated number known layout as).bytes = as.flatMap fun a =>
      bytesField number (layout a).bytes := by
  induction as with
  | nil => rfl
  | cons a as ih =>
    rw [List.flatMap_cons, ← ih]
    rfl

theorem nesting_repeated_le {α : Type} (number : Nat) (known : List Nat) {layout : α → Layout}
    {n : Nat} (h : ∀ a, (layout a).nesting ≤ n) (as : List α) :
    (repeated number known layout as).nesting ≤ n + 1 := by
  induction as with
  | nil => exact Nat.zero_le _
  | cons a as ih => exact Nat.max_le.mpr ⟨Nat.succ_le_succ (h a), ih⟩

end Layout

/-- Whether bytes are a layout with unknown fields put in. A message inside has one level
of the depth less. -/
inductive Padded : List Nat → Nat → Layout → Bytes → Prop where
  | done {known : List Nat} {depth : Nat} : Padded known depth .done []
  | unknown {known : List Nat} {depth : Nat} {layout : Layout} {pad bs : Bytes} :
      Unknown known depth pad → Padded known depth layout bs →
        Padded known depth layout (pad ++ bs)
  | bare {known : List Nat} {depth : Nat} {more : Layout} {field bs : Bytes} :
      Padded known depth more bs → Padded known depth (.bare field more) (field ++ bs)
  | message {known known' : List Nat} {depth number : Nat} {inner more : Layout}
      {body bs : Bytes} :
      Padded known' depth inner body → Padded known (depth + 1) more bs →
        Padded known (depth + 1) (.message number known' inner more)
          (bytesField number body ++ bs)

/-- What is written is a padded form of its layout, with nothing put in. -/
theorem Padded.bytes {layout : Layout} {depth : Nat} (known : List Nat)
    (h : layout.nesting ≤ depth) :
    Padded known depth layout layout.bytes := by
  induction layout generalizing known depth with
  | done => exact .done
  | bare field more ih => exact .bare (ih known h)
  | message number known' inner more ihinner ihmore =>
    obtain ⟨hinner, hmore⟩ := Nat.max_le.mp h
    obtain ⟨depth, rfl⟩ : ∃ d, depth = d + 1 := ⟨depth - 1, by omega⟩
    exact .message (ihinner known' (Nat.le_of_succ_le_succ hinner)) (ihmore known hmore)

/-! ### Taking in every padded form -/

variable {σ τ α β : Type} {take : Nat → FieldReader σ} {known : List Nat} {depth : Nat}
    {s t u : σ} {more : Layout}

/-- Whether every padded form of a layout turns `s` into `t`. -/
def Reads (take : Nat → FieldReader σ) (known : List Nat) (depth : Nat) (s : σ)
    (layout : Layout) (t : σ) : Prop :=
  ∀ bs, Padded known depth layout bs → bs.length < 2 ^ 64 → TakesAll (take depth) s bs t

theorem Reads.takesAll {layout : Layout} (h : Reads take known depth s layout t)
    (hn : layout.nesting ≤ depth) (hl : layout.bytes.length < 2 ^ 64) :
    TakesAll (take depth) s layout.bytes t :=
  h _ (.bytes known hn) hl

theorem Reads.done (ht : SkipsUnknown (take depth) known depth) :
    Reads take known depth s .done s := by
  intro bs hp hl
  generalize hd : Layout.done = layout at hp
  induction hp with
  | done => exact .nil s
  | unknown hpad _ ih =>
    rw [List.length_append] at hl
    exact (hpad.takesAll ht s).append (ih ht (by omega) hd)
  | bare _ _ | message _ _ _ _ => cases hd

theorem Reads.bare {field : Bytes} (ht : SkipsUnknown (take depth) known depth)
    (hf : field.length < 2 ^ 64 → Takes (take depth) s field t)
    (hm : Reads take known depth t more u) :
    Reads take known depth s (.bare field more) u := by
  intro bs hp hl
  generalize hd : Layout.bare field more = layout at hp
  induction hp with
  | unknown hpad _ ih =>
    rw [List.length_append] at hl
    exact (hpad.takesAll ht s).append (ih ht hf hm (by omega) hd)
  | bare hmore _ =>
    obtain ⟨rfl, rfl⟩ := Layout.bare.inj hd
    rw [List.length_append] at hl
    exact .cons (hf (by omega)) (hm _ hmore (by omega))
  | done | message _ _ _ _ => cases hd

theorem Reads.plain {number value : Nat} (ht : SkipsUnknown (take depth) known depth)
    (hz : value = 0 → s = t) (hf : Takes (take depth) s (numberField number value) t)
    (hm : Reads take known depth t more u) :
    Reads take known depth s (.plain number value more) u := by
  rw [Layout.plain]
  split
  · rename_i hv
    rw [hz hv]
    exact hm
  · exact .bare ht (fun _ => hf) hm

/-- A message inside a field is read with its own way to take fields in, and its length is
that of its padded form. -/
theorem Reads.message {inner : Nat → FieldReader τ} {blank a : τ} {number : Nat}
    {known' : List Nat} {layout : Layout}
    (ht : SkipsUnknown (take (depth + 1)) known (depth + 1)) (h : 0 < number)
    (h' : number < 2 ^ 29)
    (hf : ∀ bs rest, readMessage inner (depth + 1) ⟨number, .delimited⟩ blank bs
      = .ok (a, rest) → take (depth + 1) ⟨number, .delimited⟩ s bs = .ok (t, rest))
    (hi : Reads inner known' depth blank layout a)
    (hm : Reads take known (depth + 1) t more u) :
    Reads take known (depth + 1) s (.message number known' layout more) u := by
  intro bs hp hl
  generalize hd : Layout.message number known' layout more = whole, hn : depth + 1 = n at hp
  induction hp with
  | unknown hpad _ ih =>
    rw [List.length_append] at hl
    subst hn
    exact (hpad.takesAll ht s).append (ih ht hm (by omega) hd rfl)
  | @message _ _ _ _ _ _ body bs hbody hmore _ _ =>
    obtain ⟨rfl, rfl, rfl, rfl⟩ := Layout.message.inj hd
    obtain rfl := Nat.succ.inj hn
    have hle := length_le_bytesField number body
    rw [List.length_append] at hl
    refine .cons (takes_bytesField h h' fun rest => hf _ _ ?_) (hm _ hmore (by omega))
    exact (hi _ hbody (by omega)).readMessage number (by omega) rest
  | done | bare _ _ => cases hd

/-- Messages under one field number are taken in one after another, behind those that were
there. -/
theorem Reads.repeated {inner : Nat → FieldReader τ} {blank : τ} {number : Nat}
    {known' : List Nat} {layout : α → Layout} {fields : α → τ} (state : List τ → σ)
    (ht : SkipsUnknown (take (depth + 1)) known (depth + 1)) (h : 0 < number)
    (h' : number < 2 ^ 29)
    (hf : ∀ ts a bs rest, readMessage inner (depth + 1) ⟨number, .delimited⟩ blank bs
      = .ok (a, rest) → take (depth + 1) ⟨number, .delimited⟩ (state ts) bs
      = .ok (state (ts ++ [a]), rest))
    (hi : ∀ a, Reads inner known' depth blank (layout a) (fields a)) (as : List α) :
    ∀ ts, Reads take known (depth + 1) (state ts) (.repeated number known' layout as)
      (state (ts ++ as.map fields)) := by
  induction as with
  | nil =>
    intro ts
    rw [List.map_nil, List.append_nil]
    exact .done ht
  | cons a as ih =>
    intro ts
    rw [List.map_cons, List.append_cons]
    exact .message ht h h' (hf ts _) (hi a) (ih _)

end Wire

end PacketClassifier
