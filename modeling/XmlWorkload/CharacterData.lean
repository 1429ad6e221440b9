import XmlWorkload.Error

/-!
# Character data

The characters that a document can carry, and the form in which the five characters with a meaning
of their own are written.
-/

set_option autoImplicit false

namespace XmlWorkload.CharacterData

/-- Whether a document can carry a character: tab, line feed, carriage return, and everything from
the space on except for the last two code points of the first plane. -/
def isAllowed (c : Char) : Bool :=
  let point := c.toNat
  point == 0x9 || point == 0xA || point == 0xD ||
    (decide (0x20 ≤ point) && decide (point ≤ 0xD7FF)) ||
    (decide (0xE000 ≤ point) && decide (point ≤ 0xFFFD)) || decide (0x10000 ≤ point)

/-- Refuses a text with a character that a document cannot carry, naming the field it stands in and
the first such character. -/
def check (field text : String) : Except Error Unit :=
  match text.toList.find? fun c => !isAllowed c with
  | some c => .error (.invalidContent field (.forbiddenCharacter c))
  | none => .ok ()

/-- How one character is written. -/
def escapedChar (c : Char) : List Char :=
  match c with
  | '<' => "&lt;".toList
  | '>' => "&gt;".toList
  | '&' => "&amp;".toList
  | '\'' => "&apos;".toList
  | '"' => "&quot;".toList
  | _ => [c]

/-- How a text is written. -/
def escaped (text : String) : String := String.ofList (text.toList.flatMap escapedChar)

/-- A text passes exactly when a document can carry every character of it. -/
theorem check_eq_ok_iff (field text : String) :
    check field text = .ok () ↔ ∀ c ∈ text.toList, isAllowed c = true := by
  unfold check
  split
  · next c h =>
    simp only [reduceCtorEq, false_iff]
    intro all
    have hc := List.find?_some h
    have := all c (List.mem_of_find?_eq_some h)
    simp_all
  · next h => simpa using h

end XmlWorkload.CharacterData
