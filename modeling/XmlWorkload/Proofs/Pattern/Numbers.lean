import XmlWorkload.Pattern

/-!
# The pass over the numbers

What the pass does with a text depends on the first opening in it, on the first brace behind that
opening, and on whether the number of digits between them can be read: the text stays as it is
(`Pattern.fillNumbers_of_unmarked`, `Pattern.fillNumbers_of_unclosed`), or the pass goes on behind
the brace with digits in front (`Pattern.fillNumbers_of_number`) or with what stands there
(`Pattern.fillNumbers_of_kept`).  The pass comes last, and decides whether a pattern has a text at all
(`Pattern.resolve_run_eq_map`).
-/

set_option autoImplicit false

namespace XmlWorkload.Pattern

open XmlWorkload.Random

variable {ρ : Type} [WordSource ρ] {text before opened count behind : List Char}

/-- A pattern gives what comes of its numbers when the indices and identifiers are filled in. -/
theorem resolve_run_eq_map (pattern : String) (index : Nat) (source : ρ) :
    let identified := (fillIdentifiers (fillIndex index pattern.toList)).run source
    (resolve pattern index).run source =
      ((fillNumbers identified.1).run identified.2).map (Prod.map String.ofList id) := by
  intro identified
  show ((fillNumbers identified.1).run identified.2).bind _ = _
  cases (fillNumbers identified.1).run identified.2 with
  | none => rfl
  | some filled => rfl

/-- A text without a mark for a number stays as it is. -/
theorem fillNumbers_of_unmarked (hsplit : Text.splitAtFirst? numberMark text = none) :
    (fillNumbers text : Draw ρ (List Char)) = pure text := by
  rw [fillNumbers]
  split
  · rfl
  · next h =>
    rw [hsplit] at h
    cases h

variable (hsplit : Text.splitAtFirst? numberMark text = some (before, opened))

include hsplit

/-- A text stays as it is when no brace closes its first mark for a number. -/
theorem fillNumbers_of_unclosed (hbrace : splitAtBrace? opened = none) :
    (fillNumbers text : Draw ρ (List Char)) = pure text := by
  rw [fillNumbers]
  split
  · rfl
  · next h =>
    rw [hsplit] at h
    cases h
    split
    · rfl
    · next h =>
      rw [hbrace] at h
      cases h

/-- A closed mark is replaced by digits or kept, and the text behind its brace is filled in next. -/
theorem fillNumbers_of_closed (hbrace : splitAtBrace? opened = some (count, behind)) :
    (fillNumbers text : Draw ρ (List Char)) = (do
      let filled ← match Decimal.readUnsigned? Decimal.wordBound count with
        | some count => digits count
        | none => pure (numberMark ++ count ++ ['\x7d'])
      let rest ← fillNumbers behind
      pure (before ++ filled ++ rest)) := by
  rw [fillNumbers]
  split
  · next h =>
    rw [hsplit] at h
    cases h
  · next h =>
    rw [hsplit] at h
    cases h
    split
    · next h =>
      rw [hbrace] at h
      cases h
    · next h =>
      rw [hbrace] at h
      cases h
      rfl

/-- A placeholder whose number of digits can be read is replaced by digits. -/
theorem fillNumbers_of_number {value : Nat} (hbrace : splitAtBrace? opened = some (count, behind))
    (hvalue : Decimal.readUnsigned? Decimal.wordBound count = some value) :
    (fillNumbers text : Draw ρ (List Char)) = (do
      let drawn ← digits value
      let rest ← fillNumbers behind
      pure (before ++ drawn ++ rest)) := by
  rw [fillNumbers_of_closed hsplit hbrace, hvalue]

/-- A placeholder whose number of digits cannot be read stays. -/
theorem fillNumbers_of_kept (hbrace : splitAtBrace? opened = some (count, behind))
    (hvalue : Decimal.readUnsigned? Decimal.wordBound count = none) :
    (fillNumbers text : Draw ρ (List Char)) = (do
      let rest ← fillNumbers behind
      pure (before ++ (numberMark ++ count ++ ['\x7d']) ++ rest)) := by
  rw [fillNumbers_of_closed hsplit hbrace, hvalue]
  rfl

end XmlWorkload.Pattern
