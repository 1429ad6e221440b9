/-!
# Keywords

The names that describe the element itself when they stand in a content map.  Every other name
there is the name of a child.
-/

set_option autoImplicit false

namespace XmlWorkload

/-- A name with a meaning of its own in a content map. -/
inductive Keyword where
  /-- The map of children whose names are never keywords. -/
  | children
  | attrs
  | body
  | foreach
  deriving DecidableEq, Repr

namespace Keyword

/-- Every keyword, in the order in which they take effect. -/
def all : List Keyword := [.foreach, .attrs, .children, .body]

/-- The name of a keyword in a content map. -/
def label : Keyword → String
  | .children => "children"
  | .attrs => "attrs"
  | .body => "body"
  | .foreach => "foreach"

/-- The keyword with the given name. -/
def ofLabel? (label : String) : Option Keyword := all.find? fun keyword => keyword.label == label

/-- Every keyword is listed. -/
theorem mem_all (keyword : Keyword) : keyword ∈ all := by cases keyword <;> decide

/-- A keyword is found exactly under its own name. -/
theorem ofLabel?_eq_some_iff (label : String) (keyword : Keyword) :
    ofLabel? label = some keyword ↔ label = keyword.label := by
  constructor
  · intro h
    have found := List.find?_some h
    exact (beq_iff_eq.1 found).symm
  · rintro rfl
    cases keyword <;> decide

end Keyword

end XmlWorkload
