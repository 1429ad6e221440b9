import XmlWorkload.Yaml.Source

/-!
# White space inside scalars

White space inside a scalar counts only when something follows it.  Spaces and tabs within a line
stay; at a line break the white space around it goes, a single break becomes a space, and of several
breaks the first one goes.
-/

set_option autoImplicit false

namespace XmlWorkload.Yaml

/-- White space that may turn out to stand inside a scalar.  Characters are held the last first. -/
inductive Gap where
  | inLine (blanks : List Char)
  /-- Line breaks: the first one, unless it was escaped, and those after it. -/
  | breaks (first : Option Char) (more : List Char)
  deriving DecidableEq, Repr

namespace Gap

/-- No white space. -/
def none : Gap := .inLine []

/-- The white space after one more space or tab. -/
def pushBlank (c : Char) : Gap → Gap
  | .inLine blanks => .inLine (c :: blanks)
  | .breaks first more => .breaks first more

/-- The white space after one more line break. -/
def pushBreak (c : Char) : Gap → Gap
  | .inLine _ => .breaks (some c) []
  | .breaks first more => .breaks first (c :: more)

/-- Whether a line has been broken. -/
def isBroken : Gap → Bool
  | .inLine _ => false
  | .breaks _ _ => true

/-- What the white space contributes to a scalar. -/
def text : Gap → List Char
  | .inLine blanks => blanks.reverse
  | .breaks Option.none more => more.reverse
  | .breaks (some first) more =>
    if first = '\n' then (if more = [] then [' '] else more.reverse)
    else first :: more.reverse

end Gap

end XmlWorkload.Yaml
