/-!
# Binary floating-point values

A finite value of the 64-bit format as a whole number times a power of two, and the value of that
format that is nearest to a decimal number.
-/

set_option autoImplicit false

namespace XmlWorkload.Decimal

/-- A finite value without its sign: `significand * 2 ^ exponent`. -/
structure Binary64 where
  significand : Nat
  /-- The exponent of the power of two. -/
  exponent : Int
  /-- Whether the gap to the value below is half the gap to the value above. -/
  narrowBelow : Bool
  deriving DecidableEq, Repr

namespace Binary64

/-- The finite value held by 64 bits, without its sign. -/
def ofBits (bits : UInt64) : Binary64 :=
  let field := ((bits >>> 52) &&& 0x7FF).toNat
  let fraction := (bits &&& 0xFFFFFFFFFFFFF).toNat
  if field = 0 then ⟨fraction, -1074, false⟩
  else ⟨0x10000000000000 + fraction, (field : Int) - 1075, decide (fraction = 0 ∧ 1 < field)⟩

/-- Whether 64 bits hold a negative value, zero included. -/
def isNegative (bits : UInt64) : Bool := bits >>> 63 == 1

end Binary64

/-- The positive infinity. -/
def infinity : Float := Float.ofBits 0x7FF0000000000000

/-- The value nearest to `digits * 10 ^ exponent`.  Beyond the range of the format the result is
zero or infinite; the bounds keep the powers of ten that are computed small. -/
def nearestFloat (digits : Nat) (exponent : Int) : Float :=
  let places : Int := (Nat.toDigits 10 digits).length
  if digits = 0 then 0.0
  else if 400 < places + exponent then infinity
  else if places + exponent < -400 then 0.0
  else Float.ofScientific digits (exponent < 0) exponent.natAbs

end XmlWorkload.Decimal
