import XmlWorkload.Decimal.Shortest

/-!
# How decimals are laid out

A decimal is written positionally when its leading digit stands at an exponent from -5 to 15, and
always with a digit behind the point; otherwise with the point behind the first digit and an
exponent.  The formats that use this notation differ in one decision, whether a positive exponent
carries its sign.
-/

set_option autoImplicit false

namespace XmlWorkload.Decimal

/-- The decisions on how a number is written. -/
structure NumberFormat where
  /-- Whether a positive exponent is written with a plus sign. -/
  signedExponent : Bool
  deriving DecidableEq, Repr

/-- The decimal digits of a whole number. -/
def digitsOf (value : Nat) : List Char := Nat.toDigits 10 value

/-- The exponent part of a number, without its mark. -/
def NumberFormat.exponentText (format : NumberFormat) (exponent : Int) : List Char :=
  if exponent < 0 then '-' :: digitsOf exponent.natAbs
  else if format.signedExponent then '+' :: digitsOf exponent.natAbs
  else digitsOf exponent.natAbs

/-- A positive decimal, laid out. -/
def NumberFormat.layout (format : NumberFormat) (numeral : Numeral) : List Char :=
  let digits := digitsOf numeral.digits
  let leading : Int := digits.length + numeral.exponent - 1
  if -5 ≤ leading ∧ leading ≤ 15 then
    if 0 ≤ numeral.exponent then
      digits ++ List.replicate numeral.exponent.toNat '0' ++ ['.', '0']
    else if 0 ≤ leading then
      digits.take (leading.toNat + 1) ++ ['.'] ++ digits.drop (leading.toNat + 1)
    else ['0', '.'] ++ List.replicate (-leading - 1).toNat '0' ++ digits
  else
    let fraction := digits.drop 1
    digits.take 1 ++ (if fraction = [] then [] else '.' :: fraction) ++ ['e'] ++
      format.exponentText leading

/-- A finite value, written with the fewest digits that read back. -/
def NumberFormat.render (format : NumberFormat) (value : Float) : String :=
  let bits := value.toBits
  let magnitude := Binary64.ofBits bits
  let text := if magnitude.significand = 0 then ['0', '.', '0']
    else format.layout magnitude.shortest
  String.ofList (if Binary64.isNegative bits then '-' :: text else text)

end XmlWorkload.Decimal
