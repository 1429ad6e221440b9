import XmlWorkload.Error
import XmlWorkload.Text.Alphabetic
import XmlWorkload.Text.Numeric

/-!
# Names of elements and attributes

A name starts with a letter, an underscore or a colon and goes on with letters, numbers,
underscores, colons, hyphens and dots.
-/

set_option autoImplicit false

namespace XmlWorkload.Name

/-- Whether a name can start with a character. -/
def isStart (c : Char) : Bool := Text.isAlphabetic c || c == '_' || c == ':'

/-- Whether a name can go on with a character. -/
def isPart (c : Char) : Bool :=
  Text.isAlphabetic c || Text.isNumeric c || c == '_' || c == ':' || c == '-' || c == '.'

/-- Whether a text is a name. -/
def isValid (name : String) : Bool :=
  match name.toList with
  | [] => false
  | first :: rest => isStart first && rest.all isPart

/-- Refuses a text that is no name. -/
def validate (name : String) : Except Error Unit :=
  if isValid name then .ok () else .error (.invalidName name)

/-- A text passes exactly when it is a name. -/
theorem validate_eq_ok_iff (name : String) : validate name = .ok () ↔ isValid name = true := by
  unfold validate
  split <;> simp_all

end XmlWorkload.Name
