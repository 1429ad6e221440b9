/-!
# Whole numbers in digits

Reading a whole number from its digits in a base, with and without an upper bound.  A number has at
least one digit, leading zeros do not count, and nothing but digits may stand in it.
-/

set_option autoImplicit false

namespace XmlWorkload.Decimal

/-- The bound of the numbers that 64 bits hold. -/
def wordBound : Nat := 0x10000000000000000

/-- The greatest number whose negative 64 bits hold. -/
def signBound : Nat := 0x8000000000000000

/-- The value of an ASCII digit or letter, where letters count from ten on in either case. -/
def digitValue? (c : Char) : Option Nat :=
  if '0' ≤ c ∧ c ≤ '9' then some (c.toNat - '0'.toNat)
  else if 'a' ≤ c ∧ c ≤ 'z' then some (c.toNat - 'a'.toNat + 10)
  else if 'A' ≤ c ∧ c ≤ 'Z' then some (c.toNat - 'A'.toNat + 10)
  else none

/-- The value of a digit of the given base. -/
def digitInBase? (base : Nat) (c : Char) : Option Nat :=
  (digitValue? c).filter (· < base)

/-- The number whose digits in the given base follow those read so far. -/
def readDigitsFrom (base : Nat) (soFar : Nat) : List Char → Option Nat
  | [] => some soFar
  | c :: text => do
    let digit ← digitInBase? base c
    readDigitsFrom base (soFar * base + digit) text

/-- The number written by one or more digits of the given base. -/
def readDigits? (base : Nat) (text : List Char) : Option Nat :=
  if text = [] then none else readDigitsFrom base 0 text

/-- The number below `bound` written by decimal digits, which a plus sign may precede. -/
def readUnsigned? (bound : Nat) (text : List Char) : Option Nat :=
  let digits := match text with
    | '+' :: rest => rest
    | _ => text
  (readDigits? 10 digits).filter (· < bound)

/-- The number of 64 bits written by a text. -/
def readWord? (text : String) : Option Nat := readUnsigned? wordBound text.toList

/-- A number read below a bound is below it. -/
theorem lt_of_readUnsigned? {bound value : Nat} {text : List Char}
    (h : readUnsigned? bound text = some value) : value < bound := by
  simp only [readUnsigned?, Option.filter_eq_some_iff, decide_eq_true_eq] at h
  exact h.2

end XmlWorkload.Decimal
