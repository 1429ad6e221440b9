import XmlWorkload.Decimal.Unsigned
import XmlWorkload.Random.Words
import XmlWorkload.Text.Replace

/-!
# Patterns

A pattern is a text with placeholders for the index of a cycle, for random identifiers and for
random numbers of so many digits.  First every index is filled in, then every identifier, and then
the numbers from left to right; what was filled in is not searched for numbers again.  A number with
more digits than a text can have is not filled in, and then the pattern has no text at all.
-/

set_option autoImplicit false

namespace XmlWorkload.Pattern

open XmlWorkload.Random

/-- The placeholder for the index. -/
def indexMark : List Char := "\x7bindex\x7d".toList

/-- The placeholder for a random identifier. -/
def identifierMark : List Char := "\x7buuid\x7d".toList

/-- The start of the placeholder for a random number. -/
def numberMark : List Char := "\x7brand:".toList

/-- A text with every index filled in. -/
def fillIndex (index : Nat) (text : List Char) : List Char :=
  Text.replaceAll indexMark (Nat.toDigits 10 index) text

variable {ρ : Type} [WordSource ρ]

/-- Fills in random identifiers, always for the first placeholder that is left.  A text has fewer
placeholders than characters, so as many rounds as there are characters suffice. -/
def fillIdentifiersIn : (rounds : Nat) → List Char → StateM ρ (List Char)
  | 0, text => pure text
  | rounds + 1, text =>
    match Text.splitAtFirst? identifierMark text with
    | none => pure text
    | some (before, behind) => do
      let drawn ← identifier
      fillIdentifiersIn rounds (before ++ drawn ++ behind)

/-- A text with every random identifier filled in. -/
def fillIdentifiers (text : List Char) : StateM ρ (List Char) := fillIdentifiersIn text.length text

/-- The number of digits that stands between the start of a placeholder and its closing brace, and
the text behind the brace. -/
def splitAtBrace? (text : List Char) : Option (List Char × List Char) :=
  Text.splitAtFirst? ['\x7d'] text

/-- Fills in random numbers.  A placeholder whose number of digits cannot be read stays, and the
search goes on behind its brace. -/
def fillNumbers (text : List Char) : Draw ρ (List Char) :=
  match _h : Text.splitAtFirst? numberMark text with
  | none => pure text
  | some (before, opened) =>
    match _hbrace : splitAtBrace? opened with
    | none => pure text
    | some (count, behind) => do
      let filled ← match Decimal.readUnsigned? Decimal.wordBound count with
        | some count => digits count
        | none => pure (numberMark ++ count ++ ['\x7d'])
      let rest ← fillNumbers behind
      pure (before ++ filled ++ rest)
termination_by text.length
decreasing_by
  have h₁ := congrArg List.length (Text.eq_of_splitAtFirst? _h)
  have h₂ := congrArg List.length (Text.eq_of_splitAtFirst? _hbrace)
  simp only [List.length_append, List.length_cons, List.length_nil] at h₁ h₂
  omega

/-- The text that a pattern gives for an index; nothing if a number in it is to have more digits than
a text can have. -/
def resolve (pattern : String) (index : Nat) : Draw ρ String := do
  let text ← always (fillIdentifiers (fillIndex index pattern.toList))
  let text ← fillNumbers text
  pure (String.ofList text)

end XmlWorkload.Pattern
