import XmlWorkload.Decimal.Binary64
import XmlWorkload.Decimal.Unsigned
import XmlWorkload.Yaml.Node

/-!
# What a scalar stands for

A scalar without quotes may stand for an absent value, a truth value or a number.  A number may be
written with a sign, and whole numbers also in hexadecimal, octal or binary digits.  Decimal digits
behind a leading zero are no number.  Every other scalar is a text, unless its tag asks for
something else.
-/

set_option autoImplicit false

namespace XmlWorkload.Yaml

/-- What a scalar stands for. -/
inductive ScalarValue where
  | null
  | bool (value : Bool)
  | int (value : Int)
  | float (value : Float)
  | text (text : String)

/-- Whether a text is a word for the absent value. -/
def isNullWord (text : String) : Bool := ["null", "Null", "NULL", "~"].contains text

/-- The truth value that a word stands for. -/
def boolOfWord? (text : String) : Option Bool :=
  if ["true", "True", "TRUE"].contains text then some true
  else if ["false", "False", "FALSE"].contains text then some false
  else none

/-- A text without the plus sign in front of it. -/
def dropPlus : List Char → List Char
  | '+' :: text => text
  | text => text

/-- Whether a text is decimal digits behind a leading zero, with or without a sign. -/
def hasLeadingZero (text : List Char) : Bool :=
  let digits := match text with
    | '+' :: rest => rest
    | '-' :: rest => rest
    | _ => text
  match digits with
  | '0' :: c :: rest => (c :: rest).all Char.isDigit
  | _ => false

/-- The number that digits in the base of a leading mark write, if there is such a mark. -/
def readMarked? : List Char → Option Nat
  | '0' :: 'x' :: digits => Decimal.readDigits? 16 digits
  | '0' :: 'o' :: digits => Decimal.readDigits? 8 digits
  | '0' :: 'b' :: digits => Decimal.readDigits? 2 digits
  | _ => none

/-- The number that the digits of a text write, in the base of a leading mark or in decimal. -/
def readWhole? (text : List Char) : Option Nat :=
  (readMarked? text).orElse fun _ => Decimal.readDigits? 10 text

/-- The whole number that a text without a minus sign writes. -/
def readPositive? (text : List Char) : Option Nat :=
  if hasLeadingZero text then none else readWhole? (dropPlus text)

/-- The whole number whose negative a text writes. -/
def readNegative? : List Char → Option Nat
  | '-' :: text => if hasLeadingZero text then none else readWhole? text
  | _ => none

/-- Reading a whole number gives the number, nothing, or a refusal. -/
inductive WholeReading where
  | held (value : Int)
  /-- The text writes a whole number that is too large. -/
  | tooLarge
  | missing

/-- The whole number that a text writes.  Numbers are held in 64 bits, with or without a sign.
Numbers that need up to 128 bits are refused, and still larger ones do not count as whole. -/
def readInt (text : List Char) : WholeReading :=
  match readPositive? text with
  | some value =>
    if value < Decimal.wordBound then .held value
    else if value < Nat.pow 2 128 then .tooLarge
    else .missing
  | none =>
    match readNegative? text with
    | some value =>
      if value ≤ Decimal.signBound then .held (-value)
      else if value ≤ Nat.pow 2 127 then .tooLarge
      else .missing
    | none => .missing

/-- The exponent of a decimal number. -/
def readExponent? (text : List Char) : Option Int :=
  match text with
  | [] => some 0
  | mark :: rest =>
    if mark = 'e' ∨ mark = 'E' then
      match rest with
      | '-' :: digits => (Decimal.readDigits? 10 digits).map fun value => -(value : Int)
      | _ => (Decimal.readDigits? 10 (dropPlus rest)).map fun value => (value : Int)
    else none

/-- The decimal number that a text without a sign writes: digits with a point before, between or
behind them, and an exponent. -/
def readDecimal? (text : List Char) : Option Float := do
  let whole := text.takeWhile Char.isDigit
  let behind := text.dropWhile Char.isDigit
  let (fraction, rest) := match behind with
    | '.' :: more => (more.takeWhile Char.isDigit, more.dropWhile Char.isDigit)
    | _ => ([], behind)
  let digits ← Decimal.readDigits? 10 (whole ++ fraction)
  let exponent ← readExponent? rest
  some (Decimal.nearestFloat digits (exponent - fraction.length))

/-- The floating-point number that a text writes.  One beyond the range of the format is none. -/
def readFloat? (text : List Char) : Option Float :=
  let unsigned := match text with
    | '-' :: rest => rest
    | _ => dropPlus text
  let isNegative := text.head? == some '-'
  let word := String.ofList unsigned
  if [".inf", ".Inf", ".INF"].contains word then
    some (if isNegative then -Decimal.infinity else Decimal.infinity)
  else if [".nan", ".NaN", ".NAN"].contains (String.ofList text) then some (0.0 / 0.0)
  else
    (readDecimal? unsigned).bind fun value =>
      if value.isFinite then some (if isNegative then -value else value) else none

/-- What a scalar without quotes and tag stands for; nothing if it is a number that is too
large. -/
def plainValue? (text : String) : Option ScalarValue :=
  let chars := text.toList
  if text = "" ∨ isNullWord text = true then some .null
  else match boolOfWord? text with
    | some value => some (.bool value)
    | none =>
      match readInt chars with
      | .held value => some (.int value)
      | .tooLarge => none
      | .missing =>
        match if hasLeadingZero chars then none else readFloat? chars with
        | some value => some (.float value)
        | none => some (.text text)

/-- What a scalar stands for.  The tags for truth values, numbers and the absent value ask for one,
tags of the document leave the choice to the text, and every other tag asks for a text. -/
def scalarValue? (tag : Option Tag) (text : String) (style : ScalarStyle) :
    Option ScalarValue :=
  match tag with
  | none => if style = .plain then plainValue? text else some (.text text)
  | some tag =>
    if tag = .core "bool" then (boolOfWord? text).map .bool
    else if tag = .core "int" then
      match readInt text.toList with
      | .held value => some (.int value)
      | _ => none
    else if tag = .core "float" then (readFloat? text.toList).map .float
    else if tag = .core "null" then if isNullWord text then some .null else none
    else if tag.isLocal && style == .plain then plainValue? text
    else some (.text text)

end XmlWorkload.Yaml
