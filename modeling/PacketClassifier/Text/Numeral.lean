/-
Decimal and hexadecimal numerals over lists of characters.

* `Numeral.decimal n` writes `n` with no leading zero, and `Numeral.value?` reads any
  non-empty run of digits; `value?_decimal` says that the one reads the other back, and
  `hexValue?_hex` says so for base sixteen.
* `Numeral.unsigned? bound` is the reading used for numbers inside strings: one optional
  plus sign, any number of leading zeros, nothing else, and a value of at most `bound`.
* `Numeral.padded width n` writes at least `width` digits, and `Numeral.hex` writes base
  sixteen.
-/
namespace PacketClassifier

namespace Numeral

/-- The largest number of 32 bits. -/
def max32 : Nat := 4294967295

/-- The character of a digit below sixteen, in lower case. -/
def digitChar (d : Nat) : Char :=
  if d < 10 then Char.ofNat (48 + d) else Char.ofNat (87 + d)

/-- The value of a decimal digit. -/
def digit? (c : Char) : Option Nat :=
  if 48 ≤ c.toNat ∧ c.toNat ≤ 57 then some (c.toNat - 48) else none

/-- The value of a hexadecimal digit of either case. -/
def hexDigit? (c : Char) : Option Nat :=
  if 48 ≤ c.toNat ∧ c.toNat ≤ 57 then some (c.toNat - 48)
  else if 97 ≤ c.toNat ∧ c.toNat ≤ 102 then some (c.toNat - 87)
  else if 65 ≤ c.toNat ∧ c.toNat ≤ 70 then some (c.toNat - 55)
  else none

/-- Whether a character is one of the ten ASCII digits. -/
def isDigit (c : Char) : Bool := (digit? c).isSome

/-- The digits of `n` in base `b`, most significant first; zero is one digit. -/
def digits (b : Nat) (n : Nat) : List Char :=
  if n < b ∨ b < 2 then [digitChar n] else digits b (n / b) ++ [digitChar (n % b)]
termination_by n
decreasing_by exact Nat.div_lt_self (by omega) (by omega)

/-- The decimal numeral of a natural number. -/
def decimal (n : Nat) : List Char := digits 10 n

/-- The hexadecimal numeral of a natural number, in lower case. -/
def hex (n : Nat) : List Char := digits 16 n

/-- The decimal numeral of an integer, with a minus sign in front of a negative one. -/
def integer : Int → List Char
  | .ofNat n => decimal n
  | .negSucc n => '-' :: decimal (n + 1)

/-- A decimal numeral filled up with zeros on the left to at least `width` digits. -/
def padded (width n : Nat) : List Char :=
  List.replicate (width - (decimal n).length) '0' ++ decimal n

/-- Continues the value `acc` by a run of digits of base `b`. -/
def accumulate (b : Nat) (digit? : Char → Option Nat) (acc : Nat) : List Char → Option Nat
  | [] => some acc
  | c :: cs => (digit? c).bind fun d => accumulate b digit? (b * acc + d) cs

/-- The value of a non-empty run of decimal digits, leading zeros allowed. -/
def value? : List Char → Option Nat
  | [] => none
  | cs => accumulate 10 digit? 0 cs

/-- The value of a non-empty run of hexadecimal digits. -/
def hexValue? : List Char → Option Nat
  | [] => none
  | cs => accumulate 16 hexDigit? 0 cs

/-- A number of at most `bound`, written with one optional plus sign and any leading zeros. -/
def unsigned? (bound : Nat) (cs : List Char) : Option Nat :=
  (value? (if cs.head? = some '+' then cs.tail else cs)).filter (· ≤ bound)

/-- A number of 32 bits, written with one optional plus sign and any leading zeros. -/
def word? (text : String) : Option UInt32 :=
  (unsigned? max32 text.toList).map Nat.toUInt32

/-- The decimal numeral of a natural number, as a string. -/
def text (n : Nat) : String := String.ofList (decimal n)

theorem digit?_digitChar {d : Nat} (h : d < 10) : digit? (digitChar d) = some d := by
  have all : ∀ d < 10, digit? (digitChar d) = some d := by decide
  exact all d h

theorem hexDigit?_digitChar {d : Nat} (h : d < 16) : hexDigit? (digitChar d) = some d := by
  have all : ∀ d < 16, hexDigit? (digitChar d) = some d := by decide
  exact all d h

/-- A run of digits is read from the left. -/
theorem accumulate_append (b : Nat) (digit? : Char → Option Nat) (acc : Nat)
    (cs ds : List Char) :
    accumulate b digit? acc (cs ++ ds)
      = (accumulate b digit? acc cs).bind fun n => accumulate b digit? n ds := by
  induction cs generalizing acc with
  | nil => rfl
  | cons c cs ih =>
    simp only [List.cons_append, accumulate]
    cases digit? c with
    | none => rfl
    | some d => exact ih _

/-- Digits are read back in their base. -/
theorem accumulate_digits {b : Nat} {digit? : Char → Option Nat} (hb : 2 ≤ b)
    (hdigit : ∀ d < b, digit? (digitChar d) = some d) (n : Nat) :
    accumulate b digit? 0 (digits b n) = some n := by
  fun_induction digits b n with
  | case1 n h =>
    have hn : n < b := by omega
    simp [accumulate, hdigit n hn]
  | case2 n h ih =>
    rw [accumulate_append, ih]
    simp [accumulate, hdigit _ (Nat.mod_lt n (by omega)), Nat.div_add_mod]

theorem accumulate_decimal (n : Nat) : accumulate 10 digit? 0 (decimal n) = some n :=
  accumulate_digits (by decide) (fun _ => digit?_digitChar) n

theorem accumulate_hex (n : Nat) : accumulate 16 hexDigit? 0 (hex n) = some n :=
  accumulate_digits (by decide) (fun _ => hexDigit?_digitChar) n

theorem digits_ne_nil (b n : Nat) : digits b n ≠ [] := by
  unfold digits
  split <;> simp

theorem decimal_ne_nil (n : Nat) : decimal n ≠ [] := digits_ne_nil 10 n

/-- A decimal numeral reads back. -/
@[simp]
theorem value?_decimal (n : Nat) : value? (decimal n) = some n := by
  rw [value?]
  · exact accumulate_decimal n
  · exact decimal_ne_nil n

/-- A hexadecimal numeral reads back. -/
@[simp]
theorem hexValue?_hex (n : Nat) : hexValue? (hex n) = some n := by
  rw [hexValue?]
  · exact accumulate_hex n
  · exact digits_ne_nil 16 n

end Numeral

end PacketClassifier
