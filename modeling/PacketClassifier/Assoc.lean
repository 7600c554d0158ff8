/-
Lists of named values in insertion order.

`Assoc.insert` is the write of a map that remembers when a key first came in: a new key
goes to the end, a known one keeps its place and takes the new value. `Assoc.insertNew`
never overwrites. Reading is `List.lookup`, and `Assoc.ofList` inserts the entries of a
list one after another.

* `lookup_insert_self`, `lookup_insert_of_ne`: what reading finds after a write;
* `keys_insert`: where the write leaves the keys.
-/
namespace PacketClassifier

namespace Assoc

variable {κ α : Type} [BEq κ]

/-- Sets the value of a key: a new key goes to the end, a known one keeps its place. -/
def insert (key : κ) (value : α) : List (κ × α) → List (κ × α)
  | [] => [(key, value)]
  | e :: es => if e.1 == key then (key, value) :: es else e :: insert key value es

/-- Sets the value of a key that has none yet. -/
def insertNew (key : κ) (value : α) (es : List (κ × α)) : List (κ × α) :=
  if (es.lookup key).isSome then es else es ++ [(key, value)]

/-- Inserts the entries of a list from the left. -/
def ofList (es : List (κ × α)) : List (κ × α) := es.foldl (fun acc e => insert e.1 e.2 acc) []

omit [BEq κ] in
/-- The keys, in order. -/
def keys (es : List (κ × α)) : List κ := es.map (·.1)

/-- Whether a key has a value. -/
def contains (es : List (κ × α)) (key : κ) : Bool := (es.lookup key).isSome

variable [LawfulBEq κ]

/-- A key that was set has the value that it was set to. -/
@[simp]
theorem lookup_insert_self (key : κ) (value : α) (es : List (κ × α)) :
    (insert key value es).lookup key = some value := by
  induction es with
  | nil => simp [insert]
  | cons e es ih =>
    obtain ⟨k, v⟩ := e
    by_cases h : k == key
    · simp [insert, h]
    · have hk : (key == k) = false := by simpa using fun e : key = k => h (by simp [e])
      simp [insert, h, List.lookup_cons, hk, ih]

/-- Setting a key leaves the values of the others. -/
theorem lookup_insert_of_ne {key other : κ} (h : other ≠ key) (value : α)
    (es : List (κ × α)) :
    (insert key value es).lookup other = es.lookup other := by
  have hf : (other == key) = false := by simpa using h
  induction es with
  | nil => simp [insert, List.lookup_cons, hf]
  | cons e es ih =>
    obtain ⟨k, v⟩ := e
    by_cases hk : k = key
    · subst hk
      simp [insert, List.lookup_cons, hf]
    · simp [insert, hk, List.lookup_cons, ih]

/-- A new key goes to the end, and a known one keeps its place. -/
theorem keys_insert [DecidableEq κ] (key : κ) (value : α) (es : List (κ × α)) :
    keys (insert key value es) = if key ∈ keys es then keys es else keys es ++ [key] := by
  induction es with
  | nil => simp [insert, keys]
  | cons e es ih =>
    obtain ⟨k, v⟩ := e
    by_cases hk : k = key
    · subst hk
      simp [insert, keys]
    · have hne : ¬ key = k := fun h => hk h.symm
      by_cases hm : key ∈ keys es <;> simp [keys] at ih hm
        <;> simp [insert, keys, hk, hne, ih, hm]

end Assoc

end PacketClassifier
