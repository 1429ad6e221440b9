import XmlWorkload.Proofs.Pattern.Numbers
import XmlWorkload.Proofs.Random.Digits

/-!
# Patterns without placeholders

Every placeholder starts with a brace, so nothing is filled into a pattern that has none.  Main
statement: such a pattern gives its own text, and draws nothing (`Pattern.resolve_of_plain`).
-/

set_option autoImplicit false

namespace XmlWorkload

namespace Text

variable {first : Char} {text : List Char}

/-- A text does not start with a pattern whose first character it does not have. -/
theorem dropStart?_of_not_mem (h : first ∉ text) (rest : List Char) :
    dropStart? (first :: rest) text = none := by
  cases text with
  | nil => rfl
  | cons c text =>
    have hne : first ≠ c := by
      rintro rfl
      exact h List.mem_cons_self
    exact if_neg hne

/-- A text is not split at a pattern whose first character it does not have. -/
theorem splitAtFirst?_of_not_mem (h : first ∉ text) (rest : List Char) :
    splitAtFirst? (first :: rest) text = none := by
  induction text with
  | nil => rfl
  | cons c text ih =>
    rw [splitAtFirst?, dropStart?_of_not_mem h]
    simp only [ih fun hmem => h (List.mem_cons_of_mem c hmem), Option.map_none]

/-- Nothing is replaced in a text that does not have the first character of the pattern. -/
theorem replaceAll_of_not_mem (h : first ∉ text) (rest replacement : List Char) :
    replaceAll (first :: rest) replacement text = text := by
  unfold replaceAll
  rw [if_neg (List.cons_ne_nil _ _)]
  induction text with
  | nil => rfl
  | cons c text ih =>
    rw [replaceFrom, dropStart?_of_not_mem h]
    simp only [ih fun hmem => h (List.mem_cons_of_mem c hmem)]

end Text

namespace Pattern

open XmlWorkload.Random

variable {ρ : Type} [WordSource ρ]

/-- No identifier is filled into a text without an opening brace. -/
theorem fillIdentifiers_of_plain {text : List Char} (h : '\x7b' ∉ text) :
    (fillIdentifiers text : StateM ρ (List Char)) = pure text := by
  unfold fillIdentifiers
  cases text.length with
  | zero => rfl
  | succ rounds =>
    have hnone : Text.splitAtFirst? identifierMark text = none :=
      Text.splitAtFirst?_of_not_mem h "uuid\x7d".toList
    rw [fillIdentifiersIn, hnone]

/-- No number is filled into a text without an opening brace. -/
theorem fillNumbers_of_plain {text : List Char} (h : '\x7b' ∉ text) :
    (fillNumbers text : Draw ρ (List Char)) = pure text :=
  fillNumbers_of_unmarked (Text.splitAtFirst?_of_not_mem h "rand:".toList)

/-- A pattern without a brace gives its own text, and draws nothing. -/
theorem resolve_of_plain {pattern : String} (h : '\x7b' ∉ pattern.toList) (index : Nat) :
    (resolve pattern index : Draw ρ String) = pure pattern := by
  have hindex : fillIndex index pattern.toList = pattern.toList :=
    Text.replaceAll_of_not_mem h "index\x7d".toList _
  unfold resolve
  rw [hindex, fillIdentifiers_of_plain h, always_pure, pure_bind, fillNumbers_of_plain h, pure_bind,
    String.ofList_toList]

end Pattern

end XmlWorkload
