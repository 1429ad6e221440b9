/-!
# Literal replacement

Every occurrence of a pattern in a text is replaced, from the left and without overlap: behind an
occurrence the search goes on at its end, and the inserted text is not searched again.
-/

set_option autoImplicit false

namespace XmlWorkload.Text

/-- What follows `pattern` in a text that starts with it. -/
def dropStart? : List Char → List Char → Option (List Char)
  | [], text => some text
  | _ :: _, [] => none
  | p :: pattern, c :: text => if p = c then dropStart? pattern text else none

/-- A text starts with a pattern exactly when it is the pattern and what follows it. -/
theorem dropStart?_eq_some_iff (pattern text rest : List Char) :
    dropStart? pattern text = some rest ↔ text = pattern ++ rest := by
  induction pattern generalizing text with
  | nil => simp [dropStart?, eq_comm]
  | cons p pattern ih =>
    cases text with
    | nil => simp [dropStart?]
    | cons c text =>
      by_cases h : p = c
      · subst h
        simp [dropStart?, ih]
      · simp [dropStart?, h, Ne.symm h]

/-- The text before the first occurrence of a pattern, and the text behind it. -/
def splitAtFirst? (pattern : List Char) : List Char → Option (List Char × List Char)
  | [] => if pattern = [] then some ([], []) else none
  | c :: text =>
    match dropStart? pattern (c :: text) with
    | some rest => some ([], rest)
    | none => (splitAtFirst? pattern text).map fun parts => (c :: parts.1, parts.2)

/-- Splitting at a pattern loses nothing but the pattern. -/
theorem eq_of_splitAtFirst? {pattern text before behind : List Char}
    (h : splitAtFirst? pattern text = some (before, behind)) :
    text = before ++ pattern ++ behind := by
  induction text generalizing before with
  | nil =>
    by_cases hp : pattern = []
    · simp [splitAtFirst?, hp] at h
      simp [hp, h]
    · simp [splitAtFirst?, hp] at h
  | cons c text ih =>
    rw [splitAtFirst?] at h
    split at h
    · next rest hrest =>
      simp only [Option.some.injEq, Prod.mk.injEq] at h
      obtain ⟨rfl, rfl⟩ := h
      simpa using (dropStart?_eq_some_iff _ _ _).1 hrest
    · next hnone =>
      obtain ⟨parts, hparts, heq⟩ := Option.map_eq_some_iff.1 h
      simp only [Prod.mk.injEq] at heq
      obtain ⟨rfl, rfl⟩ := heq
      simpa using @ih parts.1 hparts

/-- The text with every occurrence of a non-empty pattern replaced; `skip` characters at the front
belong to an occurrence that was already replaced. -/
def replaceFrom (pattern replacement : List Char) : Nat → List Char → List Char
  | _, [] => []
  | skip + 1, _ :: text => replaceFrom pattern replacement skip text
  | 0, c :: text =>
    match dropStart? pattern (c :: text) with
    | some _ => replacement ++ replaceFrom pattern replacement (pattern.length - 1) text
    | none => c :: replaceFrom pattern replacement 0 text

/-- The text with every occurrence of a pattern replaced; an empty pattern occurs nowhere. -/
def replaceAll (pattern replacement text : List Char) : List Char :=
  if pattern = [] then text else replaceFrom pattern replacement 0 text

end XmlWorkload.Text
