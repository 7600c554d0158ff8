/-
The newest events of a log.

A log is read from its last line on. So many lines are looked at, and the events among
them are handed out. A line that is no event is looked at like any other, so each one
among the last lines keeps an event further up from being found.

* `Audit.newestFirst_eq`: what is handed out, and the events in front of it.
* `Audit.recent_eq`: which events are handed out, and when these are as many of the newest
  as were asked for.
* `Audit.torn_line_displaces`: an event that is not found behind a line that was cut off.
-/
import Mathlib
import PacketClassifier.Audit
import PacketClassifier.Proofs.Text.Pieces

namespace PacketClassifier

namespace Audit

/-- The events of a text, newest first. -/
def newestFirst (text : List Char) : List Event :=
  (Text.lines text).reverse.filterMap Event.ofLine?

/-- The last lines of a text, the last one first. -/
def lastLines (text : List Char) (count : Nat) : List (List Char) :=
  (Text.lines text).reverse.take count

/-- The lines in front of the last ones, from the last one on. -/
def earlierLines (text : List Char) (count : Nat) : List (List Char) :=
  (Text.lines text).reverse.drop count

/-- How many of the last lines are no events. -/
def misread (text : List Char) (count : Nat) : Nat :=
  (lastLines text count).countP fun line => (Event.ofLine? line).isNone

/-- The events of the last lines are the newest ones. -/
theorem newestFirst_eq (text : List Char) (count : Nat) :
    newestFirst text = recentIn text count
      ++ (earlierLines text count).filterMap Event.ofLine? := by
  rw [newestFirst, ← List.take_append_drop count (Text.lines text).reverse,
    List.filterMap_append]
  rfl

/-- Every line that is looked at is an event or is not. -/
theorem length_recentIn (text : List Char) (count : Nat) :
    (recentIn text count).length + misread text count
      = min count (Text.lines text).length := by
  have hsplit := List.length_eq_countP_add_countP (l := lastLines text count) fun line =>
    (Event.ofLine? line).isSome
  have hlength : (lastLines text count).length = min count (Text.lines text).length := by
    rw [lastLines, List.length_take, List.length_reverse]
  simp only [decide_not, Bool.decide_eq_true, Option.not_isSome] at hsplit
  rw [← hlength, hsplit, recentIn, List.length_filterMap_eq_countP]
  rfl

theorem earlierLines_eq_nil {text : List Char} {count : Nat}
    (h : (Text.lines text).length ≤ count) :
    earlierLines text count = [] := by
  rw [earlierLines, List.drop_eq_nil_iff, List.length_reverse]
  exact h

/-- Each of the last lines that is no event costs an event. -/
theorem recentIn_eq (text : List Char) (count : Nat) :
    recentIn text count = (newestFirst text).take (count - misread text count) := by
  have hlength := length_recentIn text count
  rw [newestFirst_eq text count]
  rcases Nat.le_total count (Text.lines text).length with hle | hle
  · have hcount : count - misread text count = (recentIn text count).length := by omega
    rw [hcount, List.take_left]
  · rw [earlierLines_eq_nil hle, List.filterMap_nil, List.append_nil,
      List.take_of_length_le (by omega)]

/-- As many of the newest events as were asked for are handed out exactly if all of the
last lines are events or none of the lines in front of them is. -/
theorem recentIn_eq_take_iff (text : List Char) (count : Nat) :
    recentIn text count = (newestFirst text).take count ↔
      misread text count = 0 ∨ ∀ line ∈ earlierLines text count,
        Event.ofLine? line = none := by
  have hlength := length_recentIn text count
  rw [newestFirst_eq text count, List.take_append, List.take_of_length_le (by omega),
    List.self_eq_append_right, List.take_eq_nil_iff, List.filterMap_eq_nil_iff]
  rcases Nat.le_total count (Text.lines text).length with hle | hle
  · have hcount : count - (recentIn text count).length = misread text count := by omega
    rw [hcount]
  · have hnone : ∀ line ∈ earlierLines text count, Event.ofLine? line = none := by
      rw [earlierLines_eq_nil hle]
      exact fun _ hm => absurd hm List.not_mem_nil
    exact iff_of_true (.inr hnone) (.inr hnone)

/-- **The events in the last lines of a log.** Whatever a log consists of, the newest of
its events are handed out, newest first, and as many as were asked for but one less for
each of the last lines that is no event. These are all that were asked for exactly if
there is no such line or no event in front of the last lines. A log that is no text gives
a failure. -/
theorem recent_eq (files : Files) (path : Path) (count : Nat) :
    recent files path count
        = (files.readText path).map
            (fun text => (newestFirst text).take (count - misread text count))
      ∧ ∀ text, recentIn text count = (newestFirst text).take count ↔
        misread text count = 0 ∨ ∀ line ∈ earlierLines text count,
          Event.ofLine? line = none := by
  refine ⟨?_, fun text => recentIn_eq_take_iff text count⟩
  rw [recent]
  simp only [recentIn_eq]

/-- The line of an event. -/
def whole : List Char := "[\"2024-01-01T00:00:00Z\",\"commit\",true,3,null]".toList

/-- The start of a line that was not written to its end. -/
def torn : List Char := "[\"2024-0".toList

/-- The newest event of a log is not found behind a line that was cut off. -/
theorem torn_line_displaces :
    (∃ e, newestFirst (whole ++ '\n' :: torn) = [e]) ∧ recentIn (whole ++ '\n' :: torn) 1 = []
      ∧ ¬ ∀ text count, recentIn text count = (newestFirst text).take count := by
  have hlines : Text.lines (whole ++ '\n' :: torn) = [whole, torn] := by
    rw [Text.lines_cons (by decide)]
    cbv
  have hwhole : ∃ e, Event.ofLine? whole = some e :=
    ⟨⟨⟨1704067200, 0⟩, .commit, true, .int 3, none⟩, by cbv⟩
  have htorn : Event.ofLine? torn = none := by cbv
  obtain ⟨e, he⟩ := hwhole
  have hnewest : newestFirst (whole ++ '\n' :: torn) = [e] := by
    rw [newestFirst, hlines]
    simp only [List.reverse_cons, List.reverse_nil, List.nil_append, List.cons_append,
      List.filterMap_cons, htorn, he, List.filterMap_nil]
  have hrecent : recentIn (whole ++ '\n' :: torn) 1 = [] := by
    rw [recentIn, hlines]
    simp only [List.reverse_cons, List.reverse_nil, List.nil_append, List.cons_append,
      List.take_succ_cons, List.take_zero, List.filterMap_cons, htorn, List.filterMap_nil]
  refine ⟨⟨e, hnewest⟩, hrecent, fun hall => ?_⟩
  have hone := hall (whole ++ '\n' :: torn) 1
  rw [hnewest, hrecent] at hone
  cases hone

end Audit

end PacketClassifier
