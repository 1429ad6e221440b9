import XmlWorkload.Decimal.Binary64

/-!
# The shortest decimal that reads back

Among the decimals that round to a given value of the 64-bit format, the one with the fewest digits
is chosen, of several the one nearest to the value, and of two equally near the one with an even
last digit.  The decimals that round to a value fill an interval from halfway to the value below to
halfway to the value above; its ends belong to it when the significand is even.  Everything is
computed in whole numbers, so nothing is lost on the way.
-/

set_option autoImplicit false

namespace XmlWorkload.Decimal

/-- A decimal number: `digits * 10 ^ exponent`. -/
structure Numeral where
  /-- The digits, read as a whole number. -/
  digits : Nat
  /-- The exponent of the power of ten. -/
  exponent : Int
  deriving DecidableEq, Repr

namespace Numeral

/-- Drops trailing zeros of the digits into the exponent, at most `fuel` of them. -/
def stripZeros : Nat → Numeral → Numeral
  | 0, numeral => numeral
  | fuel + 1, numeral =>
    if numeral.digits % 10 = 0 ∧ numeral.digits ≠ 0 then
      stripZeros fuel ⟨numeral.digits / 10, numeral.exponent + 1⟩
    else numeral

end Numeral

namespace Binary64

/-- The two sides of a comparison of `digits * 10 ^ place` with `quarters * 2 ^ (exponent - 2)`:
the factor of the digits and the factor of the quarters. -/
def crossFactors (value : Binary64) (place : Int) : Nat × Nat :=
  let shift := value.exponent - 2
  (Nat.pow 10 place.toNat * Nat.pow 2 (-shift).toNat,
    Nat.pow 2 shift.toNat * Nat.pow 10 (-place).toNat)

/-- Four times the significand at the lower end of the interval that rounds to the value. -/
def lowerQuarters (value : Binary64) : Nat :=
  if value.narrowBelow then 4 * value.significand - 1 else 4 * value.significand - 2

/-- Four times the significand at the upper end of the interval that rounds to the value. -/
def upperQuarters (value : Binary64) : Nat := 4 * value.significand + 2

/-- Whether a decimal lies in the interval that rounds to the value. -/
def readsBack (value : Binary64) (numeral : Numeral) : Bool :=
  let factors := value.crossFactors numeral.exponent
  let point := numeral.digits * factors.1
  let lower := value.lowerQuarters * factors.2
  let upper := value.upperQuarters * factors.2
  if value.significand % 2 = 0 then decide (lower ≤ point ∧ point ≤ upper)
  else decide (lower < point ∧ point < upper)

/-- The neighbour of the value among the multiples of `10 ^ place` that reads back; of two that do
the nearer, of two equally near the even one. -/
def neighbour? (value : Binary64) (place : Int) : Option Numeral :=
  let factors := value.crossFactors place
  let exact := 4 * value.significand * factors.2
  let below := exact / factors.1
  let low : Numeral := ⟨below, place⟩
  let high : Numeral := ⟨below + 1, place⟩
  match value.readsBack low, value.readsBack high with
  | true, false => some low
  | false, true => some high
  | false, false => none
  | true, true =>
    match compare (2 * exact) ((2 * below + 1) * factors.1) with
    | .lt => some low
    | .gt => some high
    | .eq => if below % 2 = 0 then some low else some high

/-- Whether the value is below `10 ^ place`. -/
def below (value : Binary64) (place : Int) : Bool :=
  let factors := value.crossFactors place
  decide (4 * value.significand * factors.2 < factors.1)

/-- The least power of ten above a positive value.  The binary logarithm gives it up to one step
to either side. -/
def scale (value : Binary64) : Int :=
  let estimate : Int := (((value.significand.log2 : Int) + value.exponent) * 30103) / 100000
  ([estimate - 1, estimate, estimate + 1].find? fun place => value.below place).getD
    (estimate + 2)

/-- The shortest decimal of a positive value.  Seventeen digits always suffice; the exact value
stands behind them so that nothing is ever guessed. -/
def shortest (value : Binary64) : Numeral :=
  let top := value.scale
  let found := (List.range 17).findSome? fun (count : Nat) => value.neighbour? (top - (count + 1))
  let exact : Numeral :=
    ⟨value.significand * Nat.pow 2 value.exponent.toNat * Nat.pow 5 (-value.exponent).toNat,
      -((-value.exponent).toNat : Int)⟩
  (found.getD exact).stripZeros 400

end Binary64

end XmlWorkload.Decimal
