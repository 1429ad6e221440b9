import XmlWorkload.Random.Words

/-!
# Drawn digits

A number below a bound is drawn as the high part of a product; a second word may add one to it, but
only while the sum stays below the bound.  So what is drawn as a digit is a digit, and words of 32
bits are enough to compute it in.  Main statements: a drawn number is below its bound
(`Random.below_lt`), drawn digits form a number of that many digits (`Random.isNumber_digits`), and
they are those that the loop in machine words draws (`Random.wordDigits_eq`).  There are digits to
draw up to the bound of a text, and none beyond it (`Random.digits_run_eq_none_iff`).
-/

set_option autoImplicit false

namespace XmlWorkload.Random

variable {ρ : Type} [WordSource ρ]

omit [WordSource ρ] in
/-- Two draws one after the other draw from where the first one left the source. -/
theorem run_bind {α β : Type} (first : StateM ρ α) (next : α → StateM ρ β) (source : ρ) :
    (first >>= next).run source = (next (first.run source).1).run (first.run source).2 :=
  rfl

/-! ## Draws that may come to nothing -/

section Draws

omit [WordSource ρ]

variable {α β : Type} {source : ρ}

/-- A draw in two steps comes to something if the first step does and the second one behind it. -/
theorem run_bind_eq_some_iff {first : Draw ρ α} {next : α → Draw ρ β} {result : β × ρ} :
    (first >>= next).run source = some result ↔
      ∃ drawn, first.run source = some drawn ∧ (next drawn.1).run drawn.2 = some result :=
  Option.bind_eq_some_iff

/-- A draw in two steps comes to nothing if one of the steps does. -/
theorem run_bind_eq_none_iff {first : Draw ρ α} {next : α → Draw ρ β} :
    (first >>= next).run source = none ↔
      ∀ drawn, first.run source = some drawn → (next drawn.1).run drawn.2 = none :=
  Option.bind_eq_none_iff

/-- What was drawn already is all that is to be drawn. -/
theorem run_pure_eq_some_iff {drawn : α} {result : α × ρ} :
    (pure drawn : Draw ρ α).run source = some result ↔ (drawn, source) = result :=
  Option.some_inj

/-- What is drawn, if anything, has a property wherever the source stands. -/
def Yields (draw : Draw ρ α) (property : α → Prop) : Prop :=
  ∀ source drawn, draw.run source = some drawn → property drawn.1

/-- What was drawn already is all that is drawn. -/
theorem yields_pure {property : α → Prop} {drawn : α} (h : property drawn) :
    Yields (pure drawn : Draw ρ α) property := by
  intro source result hrun
  rw [← run_pure_eq_some_iff.1 hrun]
  exact h

/-- What is known of the first step of a draw can be used for the second one. -/
theorem Yields.bind {first : Draw ρ α} {next : α → Draw ρ β} {known : α → Prop}
    {property : β → Prop} (h : Yields first known)
    (hnext : ∀ drawn, known drawn → Yields (next drawn) property) :
    Yields (first >>= next) property := by
  intro source result hrun
  obtain ⟨drawn, hdrawn, hrun⟩ := run_bind_eq_some_iff.1 hrun
  exact hnext drawn.1 (h source drawn hdrawn) drawn.2 result hrun

/-- What is drawn has two properties if it has each of them. -/
theorem Yields.and {draw : Draw ρ α} {property other : α → Prop} (h : Yields draw property)
    (hother : Yields draw other) : Yields draw fun drawn => property drawn ∧ other drawn :=
  fun source drawn hrun => ⟨h source drawn hrun, hother source drawn hrun⟩

/-- Drawing nothing always comes to something. -/
theorem always_pure (drawn : α) : (always (pure drawn) : Draw ρ α) = pure drawn :=
  rfl

end Draws

/-! ## Numbers below a bound -/

/-- The high part of a product is below the bound. -/
theorem high_lt {bound : Nat} (hbound : 0 < bound) (drawn : UInt32) :
    drawn.toNat * bound / wordCount < bound := by
  rw [Nat.div_lt_iff_lt_mul (by decide), Nat.mul_comm bound]
  exact Nat.mul_lt_mul_of_pos_right drawn.toNat_lt hbound

/-- Where a second word decides, the high part is not the last number below the bound. -/
theorem high_succ_lt {bound : Nat} {drawn : UInt32}
    (hlow : wordCount - bound < drawn.toNat * bound % wordCount) :
    drawn.toNat * bound / wordCount + 1 < bound := by
  have hdrawn : drawn.toNat + 1 ≤ wordCount := drawn.toNat_lt
  have hproduct : drawn.toNat * bound + bound ≤ wordCount * bound := by
    rw [← Nat.succ_mul]
    exact Nat.mul_le_mul_right bound hdrawn
  have hparts := Nat.div_add_mod (drawn.toNat * bound) wordCount
  rcases Nat.lt_or_ge (drawn.toNat * bound / wordCount + 1) bound with hlt | hlast
  · exact hlt
  · -- the product falls short of the last multiple by the bound, so its low part is small
    have hhigh := Nat.mul_le_mul_left wordCount hlast
    rw [Nat.mul_succ] at hhigh
    omega

/-- A number that is drawn below a bound is below it. -/
theorem below_lt {bound : Nat} (hbound : 0 < bound) (source : ρ) :
    ((below bound).run source).1 < bound := by
  unfold below
  rw [run_bind]
  dsimp only
  split
  · next hlow =>
    rw [run_bind]
    show (if _ then _ else _) < bound
    split
    · exact high_succ_lt hlow
    · exact high_lt hbound _
  · exact high_lt hbound _

/-! ## Digits in machine words -/

/-- The high word of the product of two words. -/
def highWord (first second : UInt32) : UInt32 :=
  ((first.toUInt64 * second.toUInt64) >>> 32).toUInt32

/-- The low word of the product of two words. -/
def lowWord (first second : UInt32) : UInt32 := (first.toUInt64 * second.toUInt64).toUInt32

/-- Draws a number below a bound in machine words: the high word of a product, to which one is added
when the low word overflows by what a second draw carries. -/
def wordBelow (bound : UInt32) : StateM ρ UInt32 := do
  let drawn ← word
  if -bound < lowWord drawn bound then
    let more ← word
    if wordCount ≤ (lowWord drawn bound).toNat + (highWord more bound).toNat then
      pure (highWord drawn bound + 1)
    else pure (highWord drawn bound)
  else pure (highWord drawn bound)

/-- Draws the character of a digit from `least` to nine in machine words. -/
def wordDigit (least : UInt8) : StateM ρ Char := do
  let drawn ← wordBelow (9 - least + 1).toUInt32
  pure (Char.ofNat ('0'.toUInt8 + (least + drawn.toUInt8)).toNat)

omit [WordSource ρ] in
/-- Makes room for a text of so many bytes, which fails beyond the bound of a text. -/
def reserve (count : Nat) : Draw ρ Unit := fun source =>
  if textBound < count then none else some ((), source)

/-- Draws decimal digits in machine words, the first of which is not zero, into a text for which
there has to be room. -/
def wordDigits (count : Nat) : Draw ρ (List Char) := do
  reserve count
  always ((List.range count).mapM fun place => wordDigit (if place = 0 then 1 else 0))

/-- The product of two words of 32 bits fits a word of 64 bits. -/
theorem toNat_product (first second : UInt32) :
    (first.toUInt64 * second.toUInt64).toNat = first.toNat * second.toNat := by
  rw [UInt64.toNat_mul, UInt32.toNat_toUInt64, UInt32.toNat_toUInt64]
  apply Nat.mod_eq_of_lt
  exact Nat.lt_of_lt_of_le (Nat.mul_lt_mul'' first.toNat_lt second.toNat_lt) (by decide)

/-- The high word of a product is its quotient by the number of words. -/
theorem toNat_highWord (first second : UInt32) :
    (highWord first second).toNat = first.toNat * second.toNat / wordCount := by
  have hhigh : first.toNat * second.toNat / wordCount < wordCount := by
    rw [Nat.div_lt_iff_lt_mul (by decide)]
    exact Nat.mul_lt_mul'' first.toNat_lt second.toNat_lt
  rw [highWord, UInt64.toNat_toUInt32, UInt64.toNat_shiftRight, toNat_product,
    Nat.shiftRight_eq_div_pow]
  exact Nat.mod_eq_of_lt hhigh

/-- The low word of a product is its remainder by the number of words. -/
theorem toNat_lowWord (first second : UInt32) :
    (lowWord first second).toNat = first.toNat * second.toNat % wordCount := by
  rw [lowWord, UInt64.toNat_toUInt32, toNat_product]
  rfl

/-- Words of 32 bits are enough to draw a number below a bound. -/
theorem wordBelow_eq {bound : UInt32} (hbound : 0 < bound.toNat) :
    (wordBelow bound : StateM ρ UInt32) = UInt32.ofNat <$> below bound.toNat := by
  have hneg : (-bound).toNat = wordCount - bound.toNat := by
    rw [UInt32.toNat_neg]
    exact Nat.mod_eq_of_lt (Nat.sub_lt (by decide) hbound)
  have hhigh : ∀ drawn : UInt32,
      highWord drawn bound = UInt32.ofNat (drawn.toNat * bound.toNat / wordCount) := by
    intro drawn
    rw [← toNat_highWord, UInt32.ofNat_toNat]
  unfold wordBelow below
  rw [map_bind]
  congr 1
  funext drawn
  dsimp only
  simp only [UInt32.lt_iff_toNat_lt, hneg, toNat_lowWord]
  split
  · rw [map_bind]
    congr 1
    funext more
    rw [map_pure, toNat_highWord]
    split
    · rw [hhigh, UInt32.ofNat_add]
      rfl
    · rw [hhigh]
  · rw [map_pure, hhigh]

/-- A digit that is drawn in machine words is one drawn below what is left of ten. -/
theorem wordDigit_eq {least : UInt8} (hleast : least = 0 ∨ least = 1) :
    (wordDigit least : StateM ρ Char) =
      (fun drawn => digitChar (least.toNat + drawn)) <$> below (10 - least.toNat) := by
  have hchar : ∀ drawn < 10 - least.toNat,
      Char.ofNat ('0'.toUInt8 + (least + (UInt32.ofNat drawn).toUInt8)).toNat =
        digitChar (least.toNat + drawn) := by
    rcases hleast with rfl | rfl <;> decide
  have hrange : (9 - least + 1).toUInt32.toNat = 10 - least.toNat ∧ 0 < 10 - least.toNat := by
    rcases hleast with rfl | rfl <;> decide
  funext source
  unfold wordDigit
  rw [wordBelow_eq (hrange.1 ▸ hrange.2), hrange.1]
  exact congrArg (·, ((below _).run source).2) (hchar _ (below_lt hrange.2 source))

/-- The loop in machine words draws the digits of a number without leading zeros. -/
theorem wordDigits_eq (count : Nat) : (wordDigits count : Draw ρ (List Char)) = digits count := by
  have hfrom : ∀ place,
      (List.range' place count).mapM (fun place => wordDigit (if place = 0 then 1 else 0)) =
        (digitsFrom (if place = 0 then 1 else 0) count : StateM ρ (List Char)) := by
    induction count with
    | zero => exact fun place => rfl
    | succ count ih =>
      intro place
      have hdigit : (wordDigit (if place = 0 then 1 else 0) : StateM ρ Char) =
          (fun drawn => digitChar ((if place = 0 then 1 else 0) + drawn)) <$>
            below (10 - if place = 0 then 1 else 0) := by
        split
        · exact wordDigit_eq (.inr rfl)
        · exact wordDigit_eq (.inl rfl)
      rw [List.range'_succ, List.mapM_cons, hdigit, ih, digitsFrom, if_neg place.succ_ne_zero]
      simp only [bind_map_left]
  funext source
  show ((reserve count).run source).bind _ = _
  unfold digits
  rcases Nat.lt_or_ge textBound count with hgreat | hsmall
  · rw [show (reserve count).run source = none from if_pos hgreat, if_neg (Nat.not_le.2 hgreat)]
    rfl
  · rw [show (reserve count).run source = some ((), source) from if_neg (Nat.not_lt.2 hsmall),
      if_pos hsmall, List.range_eq_range', hfrom 0]
    rfl

/-! ## Numbers of so many digits -/

/-- A text is a number of `count` decimal digits without leading zeros. -/
structure IsNumber (count : Nat) (text : List Char) : Prop where
  length : text.length = count
  digit : ∀ c ∈ text, c.isDigit = true
  leading : text.head? ≠ some '0'

/-- A digit below ten is written as a decimal digit. -/
theorem isDigit_digitChar : ∀ digit < 10, (digitChar digit).isDigit = true := by decide

/-- Only zero is written as the digit zero. -/
theorem digitChar_ne_zero : ∀ digit < 10, 0 < digit → digitChar digit ≠ '0' := by decide

/-- As many digits are drawn as are asked for. -/
theorem length_digitsFrom (least count : Nat) (source : ρ) :
    ((digitsFrom least count).run source).1.length = count := by
  induction count generalizing least source with
  | zero => rfl
  | succ count ih => exact congrArg Nat.succ (ih 0 _)

/-- Drawn digits are decimal digits. -/
theorem isDigit_of_mem_digitsFrom {least : Nat} (hleast : least < 10) (count : Nat) (source : ρ) :
    ∀ c ∈ ((digitsFrom least count).run source).1, c.isDigit = true := by
  induction count generalizing least source with
  | zero => exact List.forall_mem_nil _
  | succ count ih =>
    have hdrawn := below_lt (Nat.sub_pos_of_lt hleast) source
    rw [digitsFrom, run_bind, run_bind]
    exact List.forall_mem_cons.2 ⟨isDigit_digitChar _ (by omega), ih (by decide) _⟩

/-- Digits of which the first is at least one form a number. -/
theorem isNumber_digitsFrom (count : Nat) (source : ρ) :
    IsNumber count ((digitsFrom 1 count).run source).1 where
  length := length_digitsFrom 1 count source
  digit := isDigit_of_mem_digitsFrom (by decide) count source
  leading := by
    cases count with
    | zero => exact nofun
    | succ count =>
      have hdrawn : ((below 9).run source).1 < 9 := below_lt (by decide) source
      intro hzero
      exact digitChar_ne_zero (1 + ((below 9).run source).1) (by omega) (by omega)
        (Option.some.inj hzero)

/-- There are digits to draw unless no text can have so many. -/
theorem digits_run_eq_none_iff {count : Nat} {source : ρ} :
    (digits count).run source = none ↔ textBound < count := by
  show (if _ then _ else _) = none ↔ _
  split <;> simp <;> omega

/-- Digits that are drawn are drawn one by one, and a text can have so many. -/
theorem digits_run_eq_some_iff {count : Nat} {source : ρ} {drawn : List Char × ρ} :
    (digits count).run source = some drawn ↔
      count ≤ textBound ∧ (digitsFrom 1 count).run source = drawn := by
  show (if _ then _ else _) = some drawn ↔ _
  split
  · next hcount => exact Option.some_inj.trans (and_iff_right hcount).symm
  · next hcount => exact ⟨nofun, fun h => absurd h.1 hcount⟩

/-- Digits that are drawn form a number of so many digits. -/
theorem isNumber_digits {count : Nat} {source later : ρ} {drawn : List Char}
    (h : (digits count).run source = some (drawn, later)) : IsNumber count drawn := by
  have hdrawn := isNumber_digitsFrom count source
  rwa [(digits_run_eq_some_iff.1 h).2] at hdrawn

end XmlWorkload.Random
