/-
One operation, one line.

The text of an operation has no control character in it, so the only line feed that is
sent for an operation is the one at its end, whatever its path, its command and its scope
are made of. The bytes that are sent for operations one after another fall into their
lines again (`Controller.lines_sent`), each line is read as its operation
(`Operation.ofLine?_line`), and no delivery shows the controller anything else
(`Controller.received_of_offers`).

* `Controller.one_line_each`: all of this together.
* `Controller.deliver_of_consent`: a controller that consents to everything takes everything.
-/
import PacketClassifier.Proofs.Json.Compact
import PacketClassifier.Proofs.Provision.Delivery
import PacketClassifier.Proofs.Schema.Text
import PacketClassifier.Proofs.Text.Utf8
import PacketClassifier.Provision.Controller

namespace PacketClassifier

namespace Operation

/-! ### The line of an operation -/

/-- What an operation is written to is read as that operation. -/
theorem reader_toJson (o : Operation) : reader o.toJson = .ok o := by
  obtain ⟨path, command, scope, verb⟩ := o
  cases verb <;> rfl

/-- The line of an operation is read as that operation. -/
theorem ofLine?_line (o : Operation) : ofLine? (Utf8.ofString o.line) = some o := by
  have hkeys : ["path", "command", "scope", "verb"].Nodup := by decide
  have hfield : ∀ key ∈ ["path", "command", "scope", "verb"], key ∈ shape.names := by decide
  rw [ofLine?, Utf8.ofString, Utf8.decode?_encode, Option.bind_some, line, Json.compact,
    String.toList_ofList, toJson]
  refine (Schema.ofText?_write Json.Layout.blank_compact "Operation"
    ?_ fun m hm => ?_).trans ?_
  · exact hkeys
  · refine ⟨hfield m.1 (List.mem_map_of_mem hm), ?_⟩
    simp only [List.mem_cons, List.not_mem_nil, or_false] at hm
    rcases hm with rfl | rfl | rfl | rfl <;> exact ⟨trivial, Nat.zero_le _⟩
  · exact congrArg Except.toOption o.reader_toJson

theorem newline_not_mem_line (o : Operation) : Controller.newline ∉ Utf8.ofString o.line := by
  intro h
  obtain ⟨c, hc, hb⟩ := List.mem_flatMap.mp h
  rw [line, Json.compact, String.toList_ofList] at hc
  have hlow := Json.visible_write 0 c hc
  rw [Utf8.toNat_of_mem_encodeChar hb (by decide)] at hlow
  exact absurd hlow (by decide)

end Operation

namespace Controller

/-! ### What is sent -/

/-- What is sent for operations one after another. -/
def sent (os : List Operation) : Bytes := os.flatMap Operation.bytes

theorem sent_cons (o : Operation) (os : List Operation) :
    sent (o :: os) = Utf8.ofString o.line ++ newline :: sent os := by
  rw [sent, List.flatMap_cons, Operation.bytes, List.append_assoc]
  rfl

/-- Behind the last line feed there is nothing. -/
theorem splitOn_sent (os : List Operation) :
    (sent os).splitOn newline = os.map (fun o => Utf8.ofString o.line) ++ [[]] := by
  induction os with
  | nil => rfl
  | cons o os ih =>
    rw [sent_cons, List.splitOn_append_cons_self_of_not_mem o.newline_not_mem_line, ih]
    rfl

theorem lines_sent (os : List Operation) :
    lines (sent os) = os.map fun o => Utf8.ofString o.line := by
  rw [lines, splitOn_sent, List.getLast?_concat, List.dropLast_concat]
  exact List.append_nil _

/-- The operations can be read off their bytes. -/
theorem map_ofLine?_lines_sent (os : List Operation) :
    (lines (sent os)).map Operation.ofLine? = os.map some := by
  rw [lines_sent, List.map_map, Function.comp_def]
  simp only [Operation.ofLine?_line]

theorem sent_injective : Function.Injective sent := by
  intro os ps h
  refine List.map_injective_iff.mpr (fun _ _ => Option.some.inj) ?_
  rw [← map_ofLine?_lines_sent, h, map_ofLine?_lines_sent]

/-! ### Deliveries -/

/-- What is sent for an operation is a line to the controller. -/
theorem write_bytes (s : Session) (o : Operation) : s.write o.bytes = s.exchange o.line := by
  have hlines := lines_sent [o]
  rw [sent, List.flatMap_singleton] at hlines
  rw [Session.write, hlines, List.map_singleton, List.foldl_cons, List.foldl_nil,
    Utf8.ofString, Utf8.decodeLossy_encode, String.ofList_toList]

/-- When the connection has ended an operation fails and nothing is sent. Otherwise one
line is sent, whatever the answer is. -/
theorem received_send {o : Operation} {s after : Session} {answer : Except StoreFault Unit}
    (h : send o s = (answer, after)) :
    after.received = s.received ∧ answer = .error (.io .brokenPipe)
      ∨ after.received = s.received ++ [o.line] := by
  cases hc : s.closed with
  | true =>
    have hsend : send o s = (.error (.io .brokenPipe), s) := if_pos hc
    obtain ⟨rfl, rfl⟩ := Prod.mk.inj (hsend.symm.trans h)
    exact .inl ⟨rfl, rfl⟩
  | false =>
    right
    simp only [send, hc, Bool.false_eq_true, if_false, write_bytes] at h
    split at h
    · obtain ⟨-, rfl⟩ := Prod.mk.inj h
      rfl
    · obtain ⟨-, rfl⟩ := Prod.mk.inj h
      rfl

/-- A controller that consents to everything takes everything. -/
theorem deliver_of_consent (os : List Operation) :
    ∀ received, (deliver send os ⟨[], [], false, received⟩).1 = .ok () := by
  induction os with
  | nil => exact fun _ => rfl
  | cons o os ih =>
    intro received
    have hverdict : verdict o (Utf8.ofString "ok") = .ok () := by
      rw [verdict]
      rfl
    have hsend : send o ⟨[], [], false, received⟩
        = (.ok (), ⟨[], [], false, received ++ [o.line]⟩) := by
      have hline : nextLine Reply.consent.bytes = (Utf8.ofString "ok", []) := by decide
      simp only [send, Bool.false_eq_true, if_false, write_bytes, Session.exchange,
        List.head?_nil, Option.getD_none, List.nil_append, hline, hverdict]
      rfl
    simp only [deliver, bind, StateT.bind, hsend]
    exact ih _

/-- However a delivery goes, the controller receives the lines of the first so many
operations, and of all of them if all are taken. -/
theorem received_of_offers {os : List Operation} {j : Store.Journal}
    {result : Except StoreFault Unit} {s after : Session} (h : Offers os j result)
    (ha : Store.Answers send s j after) :
    ∃ ps, ps <+: os ∧ after.received = s.received ++ ps.map Operation.line
      ∧ (result = .ok () → ps = os) := by
  induction h generalizing s with
  | done =>
    cases ha
    exact ⟨[], List.prefix_rfl, (List.append_nil _).symm, fun _ => rfl⟩
  | accepted _ ih =>
    cases ha with
    | next ho ha =>
      obtain ⟨ps, hprefix, hreceived, hall⟩ := ih ha
      rcases received_send ho with ⟨-, hanswer⟩ | hone
      · cases hanswer
      · refine ⟨_ :: ps, (List.prefix_cons_inj _).mpr hprefix, ?_,
          fun hr => congrArg _ (hall hr)⟩
        rw [hreceived, hone, List.append_assoc]
        rfl
  | refused o os fault =>
    cases ha with
    | next ho ha =>
      cases ha
      rcases received_send ho with ⟨hnone, -⟩ | hone
      · exact ⟨[], List.nil_prefix, hnone.trans (List.append_nil _).symm,
          fun hr => nomatch hr⟩
      · exact ⟨[o], ⟨os, rfl⟩, hone, fun hr => nomatch hr⟩

/-- **One operation, one line.** Whatever the texts of operations are made of, what is
sent for them ends with a line feed and falls into as many lines as there are operations,
and each line is read as the operation in its place. So different operations are never
sent alike. However a delivery goes, what the controller received was sent for the first
so many operations, and for all of them if all are taken. -/
theorem one_line_each (os : List Operation) :
    (sent os).splitOn newline = lines (sent os) ++ [[]] ∧ (lines (sent os)).length = os.length
      ∧ (∀ i : Nat, (lines (sent os))[i]?.bind Operation.ofLine? = os[i]?)
      ∧ (∀ ps, sent ps = sent os ↔ ps = os)
      ∧ ∀ s, ∃ ps new, ps <+: os ∧ (deliver send os s).2.received = s.received ++ new
        ∧ new.map (fun line => Operation.ofLine? (Utf8.ofString line)) = ps.map some
        ∧ ((deliver send os s).1 = .ok () → ps = os) := by
  refine ⟨?_, ?_, fun i => ?_, fun ps => sent_injective.eq_iff, fun s => ?_⟩
  · rw [splitOn_sent, lines_sent]
  · rw [lines_sent, List.length_map]
  · rw [lines_sent, List.getElem?_map]
    cases os[i]? with
    | none => rfl
    | some o => rw [Option.map_some, Option.bind_some, Operation.ofLine?_line]
  · obtain ⟨journal, result, after, hoffers, hanswers⟩ := exists_offers send os s
    obtain ⟨ps, hprefix, hreceived, hall⟩ := received_of_offers hoffers hanswers
    rw [deliver_of_offers hoffers hanswers]
    refine ⟨ps, ps.map Operation.line, hprefix, hreceived, ?_, hall⟩
    rw [List.map_map, Function.comp_def]
    simp only [Operation.ofLine?_line]

/-- Operations whose texts look like the end of a line and like another operation. -/
def deceptive : List Operation :=
  [⟨"a\nb", "\"\\\r\t", "é", .set⟩, ⟨"", "\"\x7d\n\x7b\"path\":\"a\"", "ALL\n", .delete⟩]

theorem one_line_each_deceptive :
    (lines (sent deceptive)).length = 2
      ∧ (lines (sent deceptive))[1]?.bind Operation.ofLine? = deceptive[1]?
      ∧ ∃ new, (deliver send deceptive (.start [])).2.received = new
        ∧ new.map (fun line => Operation.ofLine? (Utf8.ofString line))
            = deceptive.map some := by
  obtain ⟨-, hlength, hread, -, hdeliver⟩ := one_line_each deceptive
  obtain ⟨ps, new, -, hreceived, hnew, hall⟩ := hdeliver (.start [])
  obtain rfl := hall (deliver_of_consent deceptive [])
  exact ⟨hlength, hread 1, new, hreceived, hnew⟩

end Controller

end PacketClassifier
