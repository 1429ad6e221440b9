import XmlWorkload.Proofs.Pattern.Numbers
import XmlWorkload.Proofs.Pattern.Splitting
import XmlWorkload.Proofs.Random.Digits
import XmlWorkload.Proofs.Random.Identifiers

/-!
# Filling a pattern in one pass

A pattern is filled by going over it once for each kind of placeholder: every index, every
identifier by its own group of words, and then the numbers.  A draw is put in without going back to
the front, since no placeholder starts in what was put in or where it begins.  Main statement: this
is the text of a pattern, and the words that are left (`Pattern.resolve_run`).
-/

set_option autoImplicit false

namespace XmlWorkload

namespace Pattern

/-- A text with every occurrence of a mark replaced, from the left, by the texts numbered from
`number` on, and the number that comes next.  An empty mark occurs nowhere. -/
def fillEach (mark : List Char) (inserted : Nat → List Char) (number : Nat) (text : List Char) :
    List Char × Nat :=
  if _hmark : mark = [] then (text, number)
  else
    match _hsplit : Text.splitAtFirst? mark text with
    | none => (text, number)
    | some (before, behind) =>
      (fillEach mark inserted (number + 1) behind).map (before ++ inserted number ++ ·) id
termination_by text.length
decreasing_by
  have hlength := congrArg List.length (Text.eq_of_splitAtFirst? _hsplit)
  have hpos := List.length_pos_iff.2 _hmark
  simp only [List.length_append] at hlength
  omega

end Pattern

namespace Text

variable {pattern replacement text before behind : List Char}

/-- The characters that belong to an occurrence are left out. -/
theorem replaceFrom_eq_drop (skip : Nat) (text : List Char) :
    replaceFrom pattern replacement skip text =
      replaceFrom pattern replacement 0 (text.drop skip) := by
  induction skip generalizing text with
  | zero => rw [List.drop_zero]
  | succ skip ih =>
    cases text with
    | nil => rw [List.drop_nil, replaceFrom, replaceFrom]
    | cons c text => rw [replaceFrom, ih, List.drop_succ_cons]

/-- Replacing from the start on keeps a text in which the pattern does not occur. -/
theorem replaceFrom_of_none (h : splitAtFirst? pattern text = none) :
    replaceFrom pattern replacement 0 text = text := by
  induction text with
  | nil => rfl
  | cons c text ih =>
    rw [splitAtFirst?] at h
    split at h
    · cases h
    · next hstart =>
      rw [replaceFrom, hstart]
      exact congrArg (c :: ·) (ih (Option.map_eq_none_iff.1 h))

/-- Replacing from the start on replaces the first occurrence and goes on behind it. -/
theorem replaceFrom_of_some (hpattern : pattern ≠ [])
    (h : splitAtFirst? pattern text = some (before, behind)) :
    replaceFrom pattern replacement 0 text =
      before ++ replacement ++ replaceFrom pattern replacement 0 behind := by
  induction text generalizing before with
  | nil =>
    rw [splitAtFirst?, if_neg hpattern] at h
    cases h
  | cons c text ih =>
    rw [splitAtFirst?] at h
    rw [replaceFrom]
    split at h
    · next rest hstart =>
      cases h
      obtain ⟨p, pattern, rfl⟩ := List.exists_cons_of_ne_nil hpattern
      have htext : text = pattern ++ behind :=
        (List.cons.inj ((dropStart?_eq_some_iff _ _ _).1 hstart)).2
      rw [replaceFrom_eq_drop, List.length_cons, Nat.add_sub_cancel, htext, List.drop_left]
      rfl
    · next hstart =>
      obtain ⟨parts, hparts, heq⟩ := Option.map_eq_some_iff.1 h
      cases heq
      exact congrArg (c :: ·) (ih hparts)

/-- Literal replacement fills every occurrence with the same text. -/
theorem replaceAll_eq_fillEach (number : Nat) (text : List Char) :
    replaceAll pattern replacement text =
      (Pattern.fillEach pattern (fun _ => replacement) number text).1 := by
  fun_induction Pattern.fillEach pattern (fun _ => replacement) number text with
  | case1 number text hpattern => exact if_pos hpattern
  | case2 number text hpattern hsplit =>
    exact (if_neg hpattern).trans (replaceFrom_of_none hsplit)
  | case3 number text hpattern before behind hsplit ih =>
    rw [replaceAll, if_neg hpattern] at ih ⊢
    rw [replaceFrom_of_some hpattern hsplit, ih]
    rfl

end Text

namespace Pattern

open XmlWorkload.Random

variable {ρ : Type} [WordSource ρ]

/-- A pattern filled in one pass for each kind of placeholder, and the source behind the words that
were drawn.  The identifiers take a group of sixteen words each, and the numbers what comes next;
there is no text if one of them is to have too many digits. -/
def onePass (pattern : List Char) (index : Nat) (source : ρ) : Option (List Char × ρ) :=
  let indexed := (fillEach indexMark (fun _ => Nat.toDigits 10 index) 0 pattern).1
  let identified := fillEach identifierMark (identifierAt source) 0 indexed
  (fillNumbers identified.1).run (behindWords source (16 * identified.2))

/-- The text of an identifier has no brace, so its place is passed. -/
theorem passed_identifier {done text before behind : List Char}
    (h : Text.Passed identifierMark done)
    (hsplit : Text.splitAtFirst? identifierMark text = some (before, behind))
    (source : ρ) (number : Nat) :
    Text.Passed identifierMark (done ++ before ++ identifierAt source number) := by
  have hidentifier := isVersionFour_identifierAt source number
  have hplain : ∀ c ∉ '-' :: hexAlphabet, c ∉ identifierAt source number :=
    fun c hc hmem => hc (hidentifier.mem hmem)
  exact h.replaced "uuid".toList hsplit (hplain _ (by decide)) (hplain _ (by decide))
    (by rw [hidentifier.length]; decide)

/-- The rounds that fill in the identifiers come to the same as one pass. -/
theorem fillIdentifiersIn_run {rounds : Nat} {done text : List Char} (number : Nat) (source : ρ)
    (hdone : Text.Passed identifierMark done) (hrounds : text.length ≤ rounds) :
    (fillIdentifiersIn rounds (done ++ text)).run (behindWords source (16 * number)) =
      (done ++ (fillEach identifierMark (identifierAt source) number text).1,
        behindWords source (16 * (fillEach identifierMark (identifierAt source) number text).2)) := by
  fun_induction fillEach identifierMark (identifierAt source) number text
    generalizing rounds done with
  | case1 number text hmark => cases hmark
  | case2 number text hmark hsplit =>
    cases rounds with
    | zero => rfl
    | succ rounds => rw [fillIdentifiersIn, hdone.splitAtFirst?, hsplit]; rfl
  | case3 number text hmark before behind hsplit ih =>
    have hlength := congrArg List.length (Text.eq_of_splitAtFirst? hsplit)
    have hmarkLength : identifierMark.length = 6 := rfl
    simp only [List.length_append] at hlength
    obtain ⟨rounds, rfl⟩ : ∃ fewer, rounds = fewer + 1 := ⟨rounds - 1, by omega⟩
    have hrest := ih (passed_identifier hdone hsplit source number)
      (show behind.length ≤ rounds by omega)
    rw [fillIdentifiersIn, hdone.splitAtFirst?, hsplit]
    simp only [Option.map_some]
    rw [run_bind, identifier_run, hrest]
    simp only [List.append_assoc, Prod.map_fst, Prod.map_snd, id]

/-- What a pattern gives is what filling it in one pass gives. -/
theorem resolve_run (pattern : String) (index : Nat) (source : ρ) :
    (resolve pattern index).run source =
      (onePass pattern.toList index source).map (Prod.map String.ofList id) := by
  have hidentified := fillIdentifiersIn_run 0 source (.nil identifierMark)
    (Nat.le_refl (fillIndex index pattern.toList).length)
  rw [List.nil_append, List.nil_append, Nat.mul_zero, behindWords] at hidentified
  rw [resolve_run_eq_map, fillIdentifiers, hidentified, onePass, ← Text.replaceAll_eq_fillEach]
  rfl

end Pattern

end XmlWorkload
