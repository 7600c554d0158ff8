/-
Numbers that are found again by their names.

A number is written as a name in one order of preference, and a name is read as a number
in another, so not every number survives. `Registry.Retraceable` lists the numbers that do
for a registry text: the common ones, those that nobody declares, and those whose name
means nothing else.
-/
import PacketClassifier.Proofs.Protocol.Registry

namespace PacketClassifier

namespace Protocol

namespace Registry

variable {text : List Char} {n : UInt32}

/-- The numbers whose names lead back to them. -/
inductive Retraceable (text : List Char) : UInt32 → Prop where
  | icmp : Retraceable text 1
  | tcp : Retraceable text 6
  | udp : Retraceable text 17
  /-- The short name of this one is not built in, and has to be declared. -/
  | icmpv6 (h : (ofText text).number? "icmpv6" = some 58) : Retraceable text 58
  /-- A number that no line declares is written in decimal. -/
  | undeclared {n : UInt32} (hn : n ≠ 58) (h : ∀ d ∈ declarations text, d.number ≠ n) :
      Retraceable text n
  /-- The name on the first line of a number is not read as anything else, and no later
  line gives it another number. -/
  | declared {n : UInt32} (front : List Declaration) (d : Declaration)
      (back : List Declaration) (hn : n ∉ [1, 6, 17, 58])
      (hlines : declarations text = front ++ d :: back) (hd : d.number = n)
      (hfront : ∀ e ∈ front, e.number ≠ n) (hdigits : ¬ d.name.toList.all Numeral.isDigit)
      (hany : d.name = "ip" ∨ d.name = "ipv6" → n = 0)
      (hcommon : d.name ∉ ["icmp", "tcp", "udp", "ipv6-icmp"])
      (hback : ∀ e ∈ back, e.name = d.name → e.number = n) : Retraceable text n

/-! ### Names of numbers -/

theorem nameOf_of_not_common (r : Registry) (h : n ∉ [1, 6, 17, 58]) :
    r.nameOf n = (r.name? n).getD (Numeral.text n.toNat) := by
  simp only [List.mem_cons, List.not_mem_nil, or_false, not_or] at h
  rw [nameOf, if_neg h.1, if_neg h.2.1, if_neg h.2.2.1, if_neg h.2.2.2]

theorem name?_of_undeclared (h : ∀ d ∈ declarations text, d.number ≠ n) :
    (ofText text).name? n = none := by
  show (ofDeclarations (declarations text)).name? n = none
  rw [name?_ofDeclarations, List.find?_eq_none.mpr fun d hd => by simpa using h d hd]
  rfl

theorem name?_of_first {front back : List Declaration} {d : Declaration}
    (h : declarations text = front ++ d :: back) (hd : d.number = n)
    (hfront : ∀ e ∈ front, e.number ≠ n) :
    (ofText text).name? n = some d.name := by
  have hfirst : (declarations text).find? (·.number = n) = some d := by
    rw [List.find?_eq_some_iff_append]
    exact ⟨by simpa using hd, front, back, h, fun e he => by simpa using hfront e he⟩
  show (ofDeclarations (declarations text)).name? n = _
  rw [name?_ofDeclarations, hfirst]
  rfl

/-! ### Numbers of names -/

/-- A decimal number is read as itself, whatever the registry says. -/
theorem numberOf_text (r : Registry) (n : UInt32) :
    r.numberOf (Numeral.text n.toNat) = n := by
  have hdigits : (Numeral.text n.toNat).toList.all Numeral.isDigit = true := by
    rw [Numeral.text, String.toList_ofList]
    exact List.all_eq_true.mpr fun c hc => Numeral.isDigit_of_mem_decimal hc
  have hword : Numeral.word? (Numeral.text n.toNat) = some n := by
    rw [Numeral.word?_eq_some_iff, Numeral.text, String.toList_ofList]
    exact ⟨[], 0, .inl rfl, rfl⟩
  have hany : ¬ (Numeral.text n.toNat = "ip" ∨ Numeral.text n.toNat = "ipv6") := by
    rintro (h | h)
    · rw [h] at hdigits
      exact absurd hdigits (by decide)
    · rw [h] at hdigits
      exact absurd hdigits (by decide)
  have hne : Numeral.text n.toNat ≠ "" := by
    intro h
    have hnil := congrArg String.toList h
    rw [Numeral.text, String.toList_ofList] at hnil
    exact Numeral.decimal_ne_nil _ hnil
  rw [numberOf, if_neg hany, if_pos ⟨hne, hdigits⟩, hword, Option.getD_some]

theorem numberOf_of_common (r : Registry) (name : String) (h : (name, n) ∈ common) :
    r.numberOf name = n := by
  have hall : ∀ e ∈ common, ¬ (e.1 = "ip" ∨ e.1 = "ipv6") ∧ ¬ e.1.toList.all Numeral.isDigit
      ∧ common.lookup e.1 = some e.2 := by decide
  obtain ⟨hany, hdigits, hlookup⟩ := hall _ h
  rw [numberOf, if_neg hany, if_neg fun hd => hdigits hd.2, hlookup]

/-- The name of a common number does not depend on the registry, and neither does what it
is read as. -/
theorem numberOf_nameOf_common (r : Registry) (h : n ∈ [1, 6, 17]) :
    r.numberOf (r.nameOf n) = n := by
  simp only [List.mem_cons, List.not_mem_nil, or_false] at h
  rcases h with rfl | rfl | rfl
  · exact r.numberOf_of_common "icmp" (by decide)
  · exact r.numberOf_of_common "tcp" (by decide)
  · exact r.numberOf_of_common "udp" (by decide)

/-- A name that is nothing else is looked up. -/
theorem numberOf_of_plain (r : Registry) {name : String}
    (hany : ¬ (name = "ip" ∨ name = "ipv6")) (hdigits : ¬ name.toList.all Numeral.isDigit)
    (hcommon : name ∉ ["icmp", "tcp", "udp", "ipv6-icmp"]) :
    r.numberOf name = (r.number? name).getD 0 := by
  have hlookup : common.lookup name = none :=
    Assoc.lookup_eq_none_iff_not_mem_keys.mpr hcommon
  rw [numberOf, if_neg hany, if_neg fun h => hdigits h.2, hlookup]

/-- The last line with a name decides, so it is enough that none behind the first one says
otherwise. -/
theorem number?_of_first {front back : List Declaration} {d : Declaration}
    (h : declarations text = front ++ d :: back)
    (hback : ∀ e ∈ back, e.name = d.name → e.number = d.number) :
    (ofText text).number? d.name = some d.number := by
  show (ofDeclarations (declarations text)).number? d.name = _
  rw [number?_ofDeclarations, h, List.reverse_append, List.reverse_cons, List.append_assoc,
    List.find?_append]
  cases hlast : back.reverse.find? (·.name = d.name) with
  | none => simp
  | some e =>
    have hname : e.name = d.name := by simpa using List.find?_some hlast
    have hmem : e ∈ back := List.mem_reverse.mp (List.mem_of_find?_eq_some hlast)
    rw [Option.some_or, Option.some_or, Option.map_some, hback e hmem hname]

/-- The name on the first line of a number leads back to it, if it is not read as anything
else and no later line gives it another number. -/
theorem numberOf_nameOf_declared {front back : List Declaration} {d : Declaration}
    (hn : n ∉ [1, 6, 17, 58]) (hlines : declarations text = front ++ d :: back)
    (hd : d.number = n) (hfront : ∀ e ∈ front, e.number ≠ n)
    (hdigits : ¬ d.name.toList.all Numeral.isDigit)
    (hany : d.name = "ip" ∨ d.name = "ipv6" → n = 0)
    (hcommon : d.name ∉ ["icmp", "tcp", "udp", "ipv6-icmp"])
    (hback : ∀ e ∈ back, e.name = d.name → e.number = n) :
    (ofText text).numberOf ((ofText text).nameOf n) = n := by
  rw [nameOf_of_not_common _ hn, name?_of_first hlines hd hfront, Option.getD_some]
  by_cases hip : d.name = "ip" ∨ d.name = "ipv6"
  · rw [numberOf, if_pos hip, hany hip]
  · rw [numberOf_of_plain _ hip hdigits hcommon,
      number?_of_first hlines fun e he hname => hd ▸ hback e he hname, Option.getD_some, hd]

/-- A number that no line declares is written in decimal, unless it has a fixed name. -/
theorem nameOf_of_undeclared (hn : n ∉ [1, 6, 17, 58])
    (h : ∀ d ∈ declarations text, d.number ≠ n) :
    (ofText text).nameOf n = Numeral.text n.toNat := by
  rw [nameOf_of_not_common _ hn, name?_of_undeclared h, Option.getD_none]

/-- **Numbers survive naming.** Whatever a registry text says, the name of a number is
read as that number again, if the number is a common one, or no line declares it, or if
the name on its first line is not read as anything else and no later line gives it another
number. A number that no line declares and that has no fixed name is written in decimal.
-/
theorem numberOf_nameOf (h : Retraceable text n) :
    (ofText text).numberOf ((ofText text).nameOf n) = n
      ∧ (n ∉ [1, 6, 17, 58] → (∀ d ∈ declarations text, d.number ≠ n) →
        (ofText text).nameOf n = Numeral.text n.toNat) := by
  refine ⟨?_, nameOf_of_undeclared⟩
  cases h with
  | icmp => exact numberOf_nameOf_common _ (by decide)
  | tcp => exact numberOf_nameOf_common _ (by decide)
  | udp => exact numberOf_nameOf_common _ (by decide)
  | icmpv6 h =>
    show (ofText text).numberOf "icmpv6" = 58
    rw [numberOf_of_plain _ (by decide) (by decide) (by decide), h, Option.getD_some]
  | undeclared hn h =>
    by_cases hcommon : n ∈ [1, 6, 17]
    · exact numberOf_nameOf_common _ hcommon
    · have hnot : n ∉ [1, 6, 17, 58] := by
        simp only [List.mem_cons, List.not_mem_nil, or_false, not_or] at hcommon ⊢
        exact ⟨hcommon.1, hcommon.2.1, hcommon.2.2, hn⟩
      rw [nameOf_of_undeclared hnot h, numberOf_text]
  | declared front d back hn hlines hd hfront hdigits hany hcommon hback =>
    exact numberOf_nameOf_declared hn hlines hd hfront hdigits hany hcommon hback

/-- Zero goes by a name that means any protocol, and the name of 202 was that of another
number before. But the name of 200 is given to 202 further down. -/
theorem numberOf_nameOf_colliding :
    Retraceable colliding 0 ∧ (ofText colliding).numberOf ((ofText colliding).nameOf 0) = 0
      ∧ Retraceable colliding 202
      ∧ (ofText colliding).numberOf ((ofText colliding).nameOf 202) = 202
      ∧ Retraceable colliding 47 ∧ (ofText colliding).nameOf 47 = Numeral.text 47
      ∧ (ofText colliding).numberOf ((ofText colliding).nameOf 47) = 47
      ∧ (ofText colliding).numberOf ((ofText colliding).nameOf 200) = 202 := by
  have hzero : Retraceable colliding 0 :=
    .declared [] _ _ (by decide) declarations_colliding rfl (by decide) (by decide)
      (fun _ => rfl) (by decide) (by decide)
  have hlast : Retraceable colliding 202 :=
    .declared [⟨"ip", 0, ["IP"]⟩, ⟨"late", 200, ["sooner"]⟩,
      ⟨"sooner", 201, []⟩] _ _ (by decide) declarations_colliding
      rfl (by decide) (by decide) (by decide) (by decide) (by decide)
  have hnobody : ∀ d ∈ declarations colliding, d.number ≠ 47 := by
    rw [declarations_colliding]
    decide
  have hnone : Retraceable colliding 47 := .undeclared (by decide) hnobody
  obtain ⟨hnumber, hdecimal⟩ := numberOf_nameOf hnone
  refine ⟨hzero, (numberOf_nameOf hzero).1, hlast, (numberOf_nameOf hlast).1, hnone,
    hdecimal (by decide) hnobody,
    hnumber, ?_⟩
  cbv

end Registry

end Protocol

end PacketClassifier
