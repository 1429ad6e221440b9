import XmlWorkload.Pattern
import XmlWorkload.Proofs.Pattern.Plain
import XmlWorkload.Proofs.Random.Digits
import XmlWorkload.Proofs.Template.ResolvedTexts

/-!
# The characters of filled patterns

What is put in place of placeholders are digits, hexadecimal digits and hyphens, which every
document carries, and a replacement adds no characters but its own.  Main statement: a document that
can carry a pattern can carry every text that the pattern gives (`Pattern.carries_resolve`).
-/

set_option autoImplicit false

namespace XmlWorkload

open CharacterData (Carries isAllowed)

/-- A document can carry every character of a row. -/
def CharacterData.CarriesAll (text : List Char) : Prop := ∀ c ∈ text, isAllowed c = true

open CharacterData (CarriesAll)

namespace CharacterData.CarriesAll

/-- Two texts that can be carried can be carried one behind the other. -/
theorem append {first second : List Char} (hfirst : CarriesAll first) (hsecond : CarriesAll second) :
    CarriesAll (first ++ second) := by
  intro c hc
  exact (List.mem_append.1 hc).elim (hfirst c) (hsecond c)

/-- The parts of a text that can be carried can be carried. -/
theorem of_append {first second : List Char} (h : CarriesAll (first ++ second)) :
    CarriesAll first ∧ CarriesAll second :=
  ⟨fun c hc => h c (List.mem_append_left _ hc), fun c hc => h c (List.mem_append_right _ hc)⟩

/-- A replacement leaves no characters but those of the text and its own. -/
theorem replaceAll {pattern replacement text : List Char} (hreplacement : CarriesAll replacement)
    (htext : CarriesAll text) : CarriesAll (Text.replaceAll pattern replacement text) := by
  have hfrom : ∀ skip, CarriesAll (Text.replaceFrom pattern replacement skip text) := by
    intro skip
    fun_induction Text.replaceFrom pattern replacement skip text with
    | case1 => exact htext
    | case2 skip c text ih => exact ih fun d hd => htext d (List.mem_cons_of_mem c hd)
    | case3 c text rest hstart ih =>
      exact hreplacement.append (ih fun d hd => htext d (List.mem_cons_of_mem c hd))
    | case4 c text hstart ih =>
      have hrest := ih fun d hd => htext d (List.mem_cons_of_mem c hd)
      intro d hd
      rcases List.mem_cons.1 hd with rfl | hd
      · exact htext _ List.mem_cons_self
      · exact hrest d hd
  unfold Text.replaceAll
  split
  · exact htext
  · exact hfrom 0

/-- What stands before an occurrence and behind it can be carried if the whole text can. -/
theorem of_splitAtFirst? {pattern text before behind : List Char} (h : CarriesAll text)
    (hsplit : Text.splitAtFirst? pattern text = some (before, behind)) :
    CarriesAll before ∧ CarriesAll behind := by
  rw [Text.eq_of_splitAtFirst? hsplit] at h
  exact ⟨h.of_append.1.of_append.1, h.of_append.2⟩

end CharacterData.CarriesAll

/-- A substitution leaves a text that can be carried when it could be before, and the item too. -/
theorem Substitution.carries_apply (token : String) {item body : String} (hitem : Carries item)
    (hbody : Carries body) : Carries ((Substitution.single token item).apply body) := by
  have hall : CarriesAll (Text.replaceAll token.toList item.toList body.toList) :=
    CharacterData.CarriesAll.replaceAll hitem hbody
  unfold Carries Substitution.apply
  rw [String.toList_ofList]
  exact hall

namespace Random

variable {ρ : Type} [WordSource ρ]

/-- A decimal digit is allowed. -/
theorem isAllowed_digitChar : ∀ digit < 10, isAllowed (digitChar digit) = true := by decide

/-- A hexadecimal digit is allowed. -/
theorem isAllowed_hexDigit : ∀ digit < 16, isAllowed (Nat.digitChar digit) = true := by decide

/-- Drawn digits can be carried. -/
theorem carriesAll_digitsFrom {least : Nat} (hleast : least < 10) (count : Nat) (source : ρ) :
    CarriesAll ((digitsFrom least count).run source).1 := by
  induction count generalizing least source with
  | zero => exact List.forall_mem_nil _
  | succ count ih =>
    have hdrawn : ((below (10 - least)).run source).1 < 10 - least :=
      below_lt (Nat.sub_pos_of_lt hleast) source
    have hdigit : least + ((below (10 - least)).run source).1 < 10 := by omega
    rw [digitsFrom, run_bind, run_bind]
    exact List.forall_mem_cons.2 ⟨isAllowed_digitChar _ hdigit, ih (by decide) _⟩

/-- Hexadecimal digits can be carried. -/
theorem carriesAll_hexDigits (values : List UInt8) : CarriesAll (hexDigits values) := by
  intro c hc
  obtain ⟨value, -, hc⟩ := List.mem_flatMap.1 hc
  have hvalue : value.toNat < 256 := value.toNat_lt
  simp only [List.mem_cons, List.not_mem_nil, or_false] at hc
  rcases hc with rfl | rfl
  · exact isAllowed_hexDigit _ (by omega)
  · exact isAllowed_hexDigit _ (by omega)

/-- A rendered identifier can be carried. -/
theorem carriesAll_renderIdentifier (values : List UInt8) :
    CarriesAll (renderIdentifier values) := by
  have hhyphen : CarriesAll ['-'] := List.forall_mem_singleton.2 (by decide)
  have hgroup : ∀ start length,
      CarriesAll (((hexDigits (markIdentifier values)).drop start).take length) := by
    intro start length c hc
    exact carriesAll_hexDigits _ c (List.mem_of_mem_drop (List.mem_of_mem_take hc))
  unfold renderIdentifier
  exact ((((((((hgroup 0 8).append hhyphen).append (hgroup 8 4)).append hhyphen).append
    (hgroup 12 4)).append hhyphen).append (hgroup 16 4)).append hhyphen).append (hgroup 20 12)

end Random

namespace Pattern

open XmlWorkload.Random

variable {ρ : Type} [WordSource ρ]

/-- Filling in an index keeps a text that can be carried. -/
theorem carriesAll_fillIndex (index : Nat) {text : List Char} (h : CarriesAll text) :
    CarriesAll (fillIndex index text) := by
  have hdigits : CarriesAll (Nat.toDigits 10 index) := by
    intro c hc
    have hdigit := Nat.isDigit_of_mem_toDigits (by decide) (by decide) hc
    simp only [Char.isDigit, Bool.and_eq_true, decide_eq_true_eq] at hdigit
    have hleast : '0'.toNat ≤ c.toNat := hdigit.1
    have hmost : c.toNat ≤ '9'.toNat := hdigit.2
    have hplain : 0x20 ≤ c.toNat ∧ c.toNat ≤ 0xD7FF :=
      ⟨Nat.le_trans (by decide) hleast, Nat.le_trans hmost (by decide)⟩
    simp [isAllowed, hplain]
  exact hdigits.replaceAll h

/-- Filling in identifiers keeps a text that can be carried. -/
theorem carriesAll_fillIdentifiersIn (rounds : Nat) {text : List Char} (h : CarriesAll text)
    (source : ρ) : CarriesAll ((fillIdentifiersIn rounds text).run source).1 := by
  induction rounds generalizing text source with
  | zero => exact h
  | succ rounds ih =>
    rw [fillIdentifiersIn]
    split
    · exact h
    · next before behind hsplit =>
      obtain ⟨hbefore, hbehind⟩ := h.of_splitAtFirst? hsplit
      have hdrawn : CarriesAll ((identifier : StateM ρ (List Char)).run source).1 :=
        carriesAll_renderIdentifier ((bytes 16).run source).1
      rw [run_bind]
      exact ih ((hbefore.append hdrawn).append hbehind) _

/-- Numbers are filled in without adding characters that no document carries. -/
theorem carriesAll_fillNumbers {text : List Char} (h : CarriesAll text) {source : ρ}
    {filled : List Char × ρ} (hrun : (fillNumbers text).run source = some filled) :
    CarriesAll filled.1 := by
  induction text using fillNumbers.induct (ρ := ρ) generalizing source filled with
  | case1 text hsplit =>
    rw [fillNumbers_of_unmarked hsplit] at hrun
    cases hrun
    exact h
  | case2 text before opened hsplit hbrace =>
    rw [fillNumbers_of_unclosed hsplit hbrace] at hrun
    cases hrun
    exact h
  | case3 text before opened hsplit count behind hbrace number hnumber ih =>
    obtain ⟨hbefore, hopened⟩ := h.of_splitAtFirst? hsplit
    rw [fillNumbers_of_number hsplit hbrace hnumber] at hrun
    obtain ⟨drawn, hdrawn, hrun⟩ := run_bind_eq_some_iff.1 hrun
    obtain ⟨rest, hrest, hrun⟩ := run_bind_eq_some_iff.1 hrun
    cases hrun
    have hdigits : CarriesAll drawn.1 := by
      rw [← (digits_run_eq_some_iff.1 hdrawn).2]
      exact carriesAll_digitsFrom (by decide) number source
    exact (hbefore.append hdigits).append (ih (hopened.of_splitAtFirst? hbrace).2 hrest)
  | case4 text before opened hsplit count behind hbrace hnumber ih =>
    obtain ⟨hbefore, hopened⟩ := h.of_splitAtFirst? hsplit
    obtain ⟨hcount, hbehind⟩ := hopened.of_splitAtFirst? hbrace
    have hmark : CarriesAll numberMark :=
      List.all_eq_true.1 (show numberMark.all isAllowed = true by decide)
    have hend : CarriesAll ['\x7d'] := List.forall_mem_singleton.2 (by decide)
    rw [fillNumbers_of_kept hsplit hbrace hnumber] at hrun
    obtain ⟨rest, hrest, hrun⟩ := run_bind_eq_some_iff.1 hrun
    cases hrun
    exact (hbefore.append ((hmark.append hcount).append hend)).append (ih hbehind hrest)

/-- A document that can carry a pattern can carry every text that the pattern gives. -/
theorem carries_resolve {pattern : String} (h : Carries pattern) {index : Nat} {source : ρ}
    {filled : String × ρ} (hrun : (resolve pattern index).run source = some filled) :
    Carries filled.1 := by
  have hidentifiers := carriesAll_fillIdentifiersIn (fillIndex index pattern.toList).length
    (carriesAll_fillIndex index h) source
  rw [resolve_run_eq_map] at hrun
  obtain ⟨text, htext, rfl⟩ := Option.map_eq_some_iff.1 hrun
  show ∀ c ∈ (String.ofList _).toList, isAllowed c = true
  rw [String.toList_ofList]
  exact carriesAll_fillNumbers hidentifiers htext

end Pattern

end XmlWorkload
