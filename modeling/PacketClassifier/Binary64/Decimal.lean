/-
Decimal text of binary floating-point numbers.

* `Binary64.ofDecimal? negative digits exponent` is the number nearest to
  `digits · 10 ^ exponent`.
* `Binary64.shortest` finds the fewest decimal digits that read back, and of those the
  nearest to the value, with a tie to the even digit.
* `Binary64.decimal` writes these digits with a point or an exponent always: positional
  while the decimal exponent is at least -5 and below 16, scientific otherwise.
-/
import PacketClassifier.Binary64.Basic
import PacketClassifier.Text.Numeral

namespace PacketClassifier

namespace Binary64

/-- The number nearest to `digits · 10 ^ exponent`. Values outside every exponent that can
matter are settled before the power is computed. -/
def ofDecimal? (negative : Bool) (digits : Nat) (exponent : Int) : Option Binary64 :=
  let size : Int := (Numeral.decimal digits).length + exponent
  if digits = 0 ∨ size < -330 then some (ofMagnitude negative 0)
  else if 400 < size then none
  else ofRatio? negative (digits * Nat.pow 10 exponent.toNat) (Nat.pow 10 (-exponent).toNat)

/-- The reals that round to a positive number, in units of a quarter of its last place:
the lower end, the value, the upper end, and whether the ends belong to the interval. -/
structure Interval where
  low : Nat
  value : Nat
  high : Nat
  /-- Whether the ends round to the number too. -/
  closed : Bool

/-- The rounding interval of a positive number. The gap below a power of two is half as
wide. -/
def interval (x : Binary64) : Interval where
  low := 4 * x.mantissa - (if x.fraction = 0 ∧ 1 < x.stored then 1 else 2)
  value := 4 * x.mantissa
  high := 4 * x.mantissa + 2
  closed := x.mantissa % 2 == 0

/-- The multiple of `10 ^ place` nearest to the value among the two neighbours that lie in
the interval. The interval's unit is `scale / step` of the decimal place. -/
def onGrid? (i : Interval) (scale step : Nat) : Option Nat :=
  let inside (c : Nat) : Bool :=
    if i.closed then decide (i.low * scale ≤ c * step ∧ c * step ≤ i.high * scale)
    else decide (i.low * scale < c * step ∧ c * step < i.high * scale)
  let below := i.value * scale / step
  let gapBelow := i.value * scale - below * step
  let gapAbove := (below + 1) * step - i.value * scale
  match inside below, inside (below + 1) with
  | true, true =>
    if gapBelow < gapAbove then some below
    else if gapAbove < gapBelow then some (below + 1)
    else some (below + below % 2)
  | true, false => some below
  | false, true => some (below + 1)
  | false, false => none

/-- Searches decimal places downward for the first grid with a point in the interval. -/
def searchGrid (i : Interval) (unit : Int) : (fuel : Nat) → (place : Int) → Nat × Int
  | 0, place => (0, place)
  | fuel + 1, place =>
    let scale := Nat.pow 2 unit.toNat * Nat.pow 10 (-place).toNat
    let step := Nat.pow 2 (-unit).toNat * Nat.pow 10 place.toNat
    match onGrid? i scale step with
    | some c => (c, place)
    | none => searchGrid i unit fuel (place - 1)

/-- The shortest digits that read back as a positive number, with the decimal place of the
last one. -/
def shortest (x : Binary64) : Nat × Int :=
  let unit := x.exponent - 2
  let top : Int := ((Nat.log2 x.mantissa + 1 : Nat) + x.exponent) * 30103 / 100000 + 1
  searchGrid (interval x) unit 40 top

/-- Digits and decimal place in positional or scientific notation. -/
def layout (digits : List Char) (place : Int) : List Char :=
  let exponent : Int := place + digits.length - 1
  if exponent < -5 ∨ 16 ≤ exponent then
    let mantissa := match digits with
      | [d] => [d]
      | d :: ds => d :: '.' :: ds
      | [] => []
    mantissa ++ 'e' :: (if exponent < 0 then '-' else '+') :: Numeral.decimal exponent.natAbs
  else if 0 ≤ place then digits ++ List.replicate place.toNat '0' ++ ['.', '0']
  else if 0 ≤ exponent then
    let whole := exponent.toNat + 1
    digits.take whole ++ '.' :: digits.drop whole
  else '0' :: '.' :: List.replicate (-exponent - 1).toNat '0' ++ digits

/-- The shortest decimal text that reads back as the number. -/
def decimal (x : Binary64) : List Char :=
  let body := if x.isZero then ['0', '.', '0']
    else layout (Numeral.decimal x.shortest.1) x.shortest.2
  if x.isNegative then '-' :: body else body

end Binary64

end PacketClassifier
