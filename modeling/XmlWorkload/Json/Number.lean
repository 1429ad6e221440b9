import XmlWorkload.Decimal.Binary64
import XmlWorkload.Decimal.Notation
import XmlWorkload.Decimal.Unsigned

/-!
# Numbers of the exchange notation

A number is kept whole when 64 bits can hold it, with or without a sign.  Every other number is held
as a floating-point value that is scaled by powers of ten in floating-point arithmetic, so that it
may be off by a rounding; digits beyond those that 64 bits can hold do not count.
-/

set_option autoImplicit false

namespace XmlWorkload.Json

open Decimal

/-- A number. -/
inductive Number where
  /-- A whole number that is not negative. -/
  | natural (value : Nat)
  | negative (magnitude : Nat)
  | float (value : Float)

/-- Floating-point numbers have the sign of every exponent written. -/
def floatFormat : NumberFormat := ⟨true⟩

/-- The text of a number. -/
def Number.render : Number → String
  | .natural value => toString value
  | .negative magnitude => "-" ++ toString magnitude
  | .float value => floatFormat.render value

/-- The digits of a number as far as 64 bits hold them, with the power of ten they stand for. -/
structure Mantissa where
  significand : Nat
  exponent : Int
  full : Bool

/-- A mantissa after one more digit before the point. -/
def Mantissa.pushWhole (mantissa : Mantissa) (digit : Nat) : Mantissa :=
  let extended := mantissa.significand * 10 + digit
  if mantissa.full || decide (wordBound ≤ extended) then
    { mantissa with exponent := mantissa.exponent + 1, full := true }
  else { mantissa with significand := extended }

/-- A mantissa at the point: a digit behind it may fit again where one before it did not. -/
def Mantissa.reopened (mantissa : Mantissa) : Mantissa := { mantissa with full := false }

/-- A mantissa after one more digit behind the point. -/
def Mantissa.pushFraction (mantissa : Mantissa) (digit : Nat) : Mantissa :=
  let extended := mantissa.significand * 10 + digit
  if mantissa.full || decide (wordBound ≤ extended) then { mantissa with full := true }
  else { mantissa with significand := extended, exponent := mantissa.exponent - 1 }

/-- The significand times a power of ten, in at most `steps` divisions by the greatest power of ten;
none if the product is beyond the range.  Three divisions leave nothing of any significand. -/
def scaled? : (steps : Nat) → (value : Float) → (exponent : Int) → Option Float
  | steps, value, exponent =>
    if exponent.natAbs ≤ 308 then
      let power := Float.ofScientific 1 false exponent.natAbs
      if exponent < 0 then some (value / power)
      else
        let product := value * power
        if product.isInf then none else some product
    else if value == 0.0 then some value
    else if 0 ≤ exponent then none
    else match steps with
      | 0 => some 0.0
      | steps + 1 => scaled? steps (value / Float.ofScientific 1 false 308) (exponent + 308)

/-- The value of a floating-point number with the given sign. -/
def signed (isMinus : Bool) (value : Float) : Float := if isMinus then -value else value

/-- The exponents that 32 bits hold end before this bound. -/
def exponentBound : Nat := 0x80000000

/-- The floating-point number with a mantissa and an exponent written behind it, if one was. -/
def floatNumber? (isMinus : Bool) (mantissa : Mantissa) (power : Option (Bool × Nat)) :
    Option Number :=
  let scaledBy (shift : Int) :=
    (scaled? 3 mantissa.significand.toUInt64.toFloat (mantissa.exponent + shift)).map
      fun value => .float (signed isMinus value)
  match power with
  | none => scaledBy 0
  | some (negative, digits) =>
    if exponentBound ≤ digits then
      if negative || mantissa.significand == 0 then some (.float (signed isMinus 0.0)) else none
    else scaledBy (if negative then -(digits : Int) else digits)

/-- The number with nothing but digits before its end. -/
def wholeNumber? (isMinus : Bool) (mantissa : Mantissa) : Option Number :=
  if mantissa.full then floatNumber? isMinus mantissa none
  else if !isMinus then some (.natural mantissa.significand)
  else if mantissa.significand = 0 ∨ signBound < mantissa.significand then
    floatNumber? isMinus mantissa none
  else some (.negative mantissa.significand)

/-- The digits at the front of a text, and what follows them. -/
def spanDigits (text : List Char) : List Nat × List Char :=
  ((text.takeWhile Char.isDigit).map fun c => c.toNat - '0'.toNat, text.dropWhile Char.isDigit)

/-- The exponent written at the end of a number: whether it is negative, and its digits. -/
def readPower? (text : List Char) : Option (Bool × Nat) :=
  match text with
  | '-' :: digits => (readDigits? 10 digits).map (true, ·)
  | '+' :: digits => (readDigits? 10 digits).map (false, ·)
  | digits => (readDigits? 10 digits).map (false, ·)

/-- The number that a mantissa and the text behind its last digit give. -/
def finish? (isMinus : Bool) (mantissa : Mantissa) : List Char → Option Number
  | [] => floatNumber? isMinus mantissa none
  | mark :: rest =>
    if mark = 'e' ∨ mark = 'E' then do
      let power ← readPower? rest
      floatNumber? isMinus mantissa (some power)
    else none

/-- The number written by a text without its sign. -/
def readMagnitude? (isMinus : Bool) (text : List Char) : Option Number :=
  let (whole, rest) := spanDigits text
  let mantissa := whole.foldl Mantissa.pushWhole ⟨0, 0, false⟩
  if whole = [] ∨ (whole.head? = some 0 ∧ whole.length ≠ 1) then none
  else match rest with
    | [] => wholeNumber? isMinus mantissa
    | '.' :: behind =>
      let (fraction, rest) := spanDigits behind
      if fraction = [] then none
      else finish? isMinus (fraction.foldl Mantissa.pushFraction mantissa.reopened) rest
    | _ => finish? isMinus mantissa rest

/-- The number written by a text. -/
def readNumber? : List Char → Option Number
  | '-' :: text => readMagnitude? true text
  | text => readMagnitude? false text

end XmlWorkload.Json
