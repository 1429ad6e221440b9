import XmlWorkload.Text.Replace
import Mathlib.Data.List.Basic

/-!
# The first occurrence of a mark

Splitting a text at a mark finds the occurrence that starts first.  A part of a text is passed when
no occurrence starts in it, whatever follows.  The text that takes the place of an occurrence is
passed with all that stands before it, if it is long enough and has neither the first character of
the mark nor the last.  Main statements: splitting behind a passed part is splitting what follows
(`Text.Passed.splitAtFirst?`), and a replacement is passed (`Text.Passed.replaced`).
-/

set_option autoImplicit false

namespace XmlWorkload.Text

variable {mark text before behind left right : List Char}

/-- A text with an occurrence of a mark is split there or earlier. -/
theorem exists_splitAtFirst? (mark left right : List Char) :
    ∃ before behind, splitAtFirst? mark (left ++ mark ++ right) = some (before, behind) ∧
      before.length ≤ left.length := by
  induction left with
  | nil =>
    cases htext : [] ++ mark ++ right with
    | nil =>
      rw [List.nil_append, List.append_eq_nil_iff] at htext
      exact ⟨[], [], if_pos htext.1, Nat.le_refl _⟩
    | cons c text =>
      have hstart : dropStart? mark (c :: text) = some right :=
        (dropStart?_eq_some_iff _ _ _).2 (by rw [← htext, List.nil_append])
      exact ⟨[], right, by rw [splitAtFirst?, hstart], Nat.le_refl _⟩
  | cons c left ih =>
    obtain ⟨before, behind, hsplit, hle⟩ := ih
    rw [List.cons_append, List.cons_append, splitAtFirst?]
    cases dropStart? mark (c :: (left ++ mark ++ right)) with
    | some rest => exact ⟨[], rest, rfl, Nat.zero_le _⟩
    | none => exact ⟨c :: before, behind, by rw [hsplit]; rfl, Nat.succ_le_succ hle⟩

/-- No occurrence of a mark starts before the place where a text is split. -/
theorem length_le_of_splitAtFirst? (h : splitAtFirst? mark text = some (before, behind))
    (hmark : left ++ mark <+: text) : before.length ≤ left.length := by
  obtain ⟨right, rfl⟩ := hmark
  obtain ⟨first, rest, hsplit, hle⟩ := exists_splitAtFirst? mark left right
  rw [h, Option.some.injEq, Prod.mk.injEq] at hsplit
  exact hsplit.1 ▸ hle

/-- What is left of a text behind a part of it that ends no later than another part. -/
theorem exists_of_append_eq {first rest : List Char} (h : first ++ rest = left ++ right)
    (hle : first.length ≤ left.length) : ∃ more, left = first ++ more ∧ rest = more ++ right := by
  obtain ⟨more, hfirst, hright⟩ | ⟨more, hleft, hrest⟩ := List.append_eq_append_iff.1 h
  · exact ⟨more, hfirst, hright⟩
  · have hmore : more = [] := by
      have hlength := congrArg List.length hleft
      rw [List.length_append] at hlength
      exact List.eq_nil_of_length_eq_zero (by omega)
    subst hmore
    exact ⟨[], by simpa using hleft.symm, by simpa using hrest.symm⟩

/-- A character that starts within a part of a text stands in that part. -/
theorem mem_of_append_eq {first rest : List Char} {c : Char} (h : first ++ rest = left ++ c :: right)
    (hlt : left.length < first.length) : c ∈ first := by
  have hchar : (first ++ rest)[left.length]? = some c := by simp [h]
  rw [List.getElem?_append_left hlt] at hchar
  exact List.mem_of_getElem? hchar

/-- No occurrence of a mark starts in a part of a text, whatever follows. -/
def Passed (mark done : List Char) : Prop :=
  ∀ text left right, done ++ text = left ++ mark ++ right → done.length ≤ left.length

namespace Passed

variable {done : List Char}

/-- Nothing is passed by any mark. -/
theorem nil (mark : List Char) : Passed mark [] := fun _ _ _ _ => Nat.zero_le _

/-- Nothing starts in a text without the first character of the mark. -/
theorem of_not_mem {first : Char} (h : first ∉ done) (rest : List Char) :
    Passed (first :: rest) done := by
  intro text left right heq
  rw [List.append_assoc, List.cons_append] at heq
  exact Nat.le_of_not_lt fun hlt => h (mem_of_append_eq heq hlt)

/-- Splitting behind a passed part is splitting what follows. -/
theorem splitAtFirst? (h : Passed mark done) (text : List Char) :
    Text.splitAtFirst? mark (done ++ text) =
      (Text.splitAtFirst? mark text).map fun parts => (done ++ parts.1, parts.2) := by
  induction done with
  | nil => simp
  | cons c done ih =>
    have hstart : dropStart? mark (c :: (done ++ text)) = none := by
      by_contra hsome
      obtain ⟨rest, hrest⟩ := Option.ne_none_iff_exists'.1 hsome
      exact absurd (h text [] rest ((dropStart?_eq_some_iff _ _ _).1 hrest)) (by simp)
    have hpassed : Passed mark done := by
      intro text left right heq
      have hle := h text (c :: left) right (congrArg (c :: ·) heq)
      exact Nat.le_of_succ_le_succ hle
    rw [List.cons_append, Text.splitAtFirst?, hstart]
    simp [ih hpassed, Option.map_map, Function.comp_def]

/-- What takes the place of the first occurrence is passed with all that stands before it, if it is
long enough and has neither the first character of the mark nor the last. -/
theorem replaced {first last : Char} (middle : List Char) {inserted : List Char}
    (h : Passed (first :: middle ++ [last]) done)
    (hsplit : Text.splitAtFirst? (first :: middle ++ [last]) text = some (before, behind))
    (hfirst : first ∉ inserted) (hlast : last ∉ inserted) (hlength : middle.length < inserted.length) :
    Passed (first :: middle ++ [last]) (done ++ before ++ inserted) := by
  intro rest left right heq
  by_contra hlt
  simp only [List.length_append, Nat.not_le] at hlt
  have hdone : done.length ≤ left.length :=
    h (before ++ inserted ++ rest) left right (by simpa using heq)
  obtain ⟨inner, rfl, hinner⟩ : ∃ inner, left = done ++ inner ∧ before ++ (inserted ++ rest) =
      inner ++ (first :: middle ++ [last] ++ right) :=
    exists_of_append_eq (by simpa using heq) hdone
  rw [List.length_append] at hlt
  -- The occurrence starts in what was inserted, ends there, or stands in front of it as a whole.
  rcases Nat.lt_or_ge inner.length before.length with hstart | hstart
  · rcases Nat.lt_or_ge (inner ++ first :: middle).length before.length with hend | hend
    · obtain ⟨more, hbefore, -⟩ : ∃ more, before = (inner ++ first :: middle ++ [last]) ++ more ∧
          right = more ++ (inserted ++ rest) :=
        exists_of_append_eq (by simpa using hinner.symm) (by simp at hend ⊢; omega)
      have hle : before.length ≤ inner.length :=
        length_le_of_splitAtFirst? hsplit ⟨more ++ (first :: middle ++ [last]) ++ behind,
          by rw [eq_of_splitAtFirst? hsplit, hbefore]; simp⟩
      omega
    · obtain ⟨more, hmore, hrest⟩ : ∃ more, inner ++ first :: middle = before ++ more ∧
          inserted ++ rest = more ++ ([last] ++ right) :=
        exists_of_append_eq (by simpa using hinner) hend
      have hlen := congrArg List.length hmore
      simp only [List.length_append, List.length_cons] at hlen
      exact hlast (mem_of_append_eq hrest (by omega))
  · obtain ⟨more, rfl, hrest⟩ : ∃ more, inner = before ++ more ∧
        inserted ++ rest = more ++ (first :: middle ++ [last] ++ right) :=
      exists_of_append_eq hinner hstart
    rw [List.length_append] at hlt
    exact hfirst (mem_of_append_eq hrest (by omega))

end Passed

end XmlWorkload.Text
