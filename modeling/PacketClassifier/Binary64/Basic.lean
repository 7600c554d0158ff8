/-
Finite binary floating-point numbers of 64 bits, held as their bit pattern.

A finite pattern is a sign and an exact value `mantissa · 2 ^ exponent`. `Binary64.same`
is equality of values, under which the two zeros agree. `Binary64.ofRatio?` rounds a
non-negative fraction to the nearest pattern, a tie to the even one, and has no answer
beyond the largest finite number.
-/
namespace PacketClassifier

/-- A floating-point number of 64 bits. -/
structure Binary64 where
  /-- Sign, eleven bits of exponent and 52 bits of fraction. -/
  bits : Nat
  deriving DecidableEq, Repr, Inhabited

namespace Binary64

/-- The value of the sign bit. -/
def signUnit : Nat := 0x8000000000000000

/-- The value of the lowest bit of the exponent; the fraction lies below it. -/
def exponentUnit : Nat := 0x10000000000000

/-- Whether the sign bit is set. -/
def isNegative (x : Binary64) : Bool := x.bits / signUnit % 2 == 1

/-- The pattern without its sign. -/
def magnitude (x : Binary64) : Nat := x.bits % signUnit

/-- The stored exponent, zero for the smallest numbers. -/
def stored (x : Binary64) : Nat := x.magnitude / exponentUnit

/-- The stored fraction. -/
def fraction (x : Binary64) : Nat := x.magnitude % exponentUnit

/-- The mantissa of the exact value. -/
def mantissa (x : Binary64) : Nat :=
  if x.stored = 0 then x.fraction else exponentUnit + x.fraction

/-- The binary exponent of the exact value. -/
def exponent (x : Binary64) : Int := (max x.stored 1 : Nat) - 1075

/-- Whether the value is zero, of either sign. -/
def isZero (x : Binary64) : Bool := x.magnitude == 0

/-- Equality of values: equal patterns, or two zeros. -/
def same (x y : Binary64) : Bool := x.bits == y.bits || (x.isZero && y.isZero)

/-- The number with the given sign and magnitude. -/
def ofMagnitude (negative : Bool) (magnitude : Nat) : Binary64 :=
  ⟨if negative then signUnit + magnitude else magnitude⟩

/-- The first magnitude that is not finite. -/
def overflow : Nat := 2047 * exponentUnit

/-- The quotient rounded to the nearest integer, a tie to the even one. -/
def roundDiv (num den : Nat) : Nat :=
  let q := num / den
  let twice := 2 * (num % den)
  if twice < den then q else if den < twice then q + 1 else q + q % 2

/-- The binary logarithm of a positive fraction, rounded down. -/
def log2Ratio (num den : Nat) : Int :=
  let guess : Int := (Nat.log2 num : Int) - Nat.log2 den
  if den * Nat.pow 2 guess.toNat ≤ num * Nat.pow 2 (-guess).toNat then guess else guess - 1

/-- The magnitude nearest to a positive fraction. -/
def nearest (num den : Nat) : Nat :=
  let q : Int := max (-1074) (log2Ratio num den - 52)
  (q + 1074).toNat * exponentUnit + roundDiv (num * Nat.pow 2 (-q).toNat)
    (den * Nat.pow 2 q.toNat)

/-- The number nearest to a fraction, unless it is too large. -/
def ofRatio? (negative : Bool) (num den : Nat) : Option Binary64 :=
  let m := if num = 0 then 0 else nearest num den
  if m < overflow then some (ofMagnitude negative m) else none

end Binary64

end PacketClassifier
