import XmlWorkload.Text.Replace

/-!
# Substitutions

A list of literal replacements in a text.  They take effect one after the other, each on what the
ones before it left.  A replacement for an empty placeholder does nothing.
-/

set_option autoImplicit false

namespace XmlWorkload

/-- Replacements in a text, each with its placeholder, in the order of their effect. -/
structure Substitution where
  pairs : List (String × String)
  deriving DecidableEq, Repr, Inhabited

namespace Substitution

/-- The substitution of one placeholder. -/
def single (placeholder replacement : String) : Substitution := ⟨[(placeholder, replacement)]⟩

/-- Whether there is nothing to replace. -/
def isEmpty (substitution : Substitution) : Bool := substitution.pairs.isEmpty

/-- A text after one replacement. -/
def applyPair (text : List Char) (pair : String × String) : List Char :=
  Text.replaceAll pair.1.toList pair.2.toList text

/-- A text after every replacement, in order. -/
def apply (substitution : Substitution) (text : String) : String :=
  String.ofList (substitution.pairs.foldl applyPair text.toList)

end Substitution

end XmlWorkload
