import XmlWorkload.Document.Set
import XmlWorkload.Proofs.Action

/-!
# Names and the grammar of XML

The grammar of XML 1.0 lists the characters that a name can start with and go on with.  The check of
names asks for letters and numbers instead, whatever Unicode takes for one.  Main statement: apart
from a few characters that the grammar does not list, every name that is accepted anywhere is one of
the grammar (`Name.isXmlName_iff_of_accepted`).
-/

set_option autoImplicit false

namespace XmlWorkload

namespace Text

/-- Whether a range lies in one of a row of ranges, or in one of them and another that adjoins. -/
def covers (ranges : List (Nat × Nat)) (range : Nat × Nat) : Bool :=
  ranges.any fun first => decide (first.1 ≤ range.1) && decide (range.1 ≤ first.2) &&
    (decide (range.2 ≤ first.2) ||
      ranges.any fun second => decide (second.1 ≤ first.2 + 1) && decide (range.2 ≤ second.2))

/-- Whether two ranges have no point in common. -/
def apart (range other : Nat × Nat) : Bool := decide (range.2 < other.1) || decide (other.2 < range.1)

variable {ranges others : List (Nat × Nat)} {point : Nat}

/-- A point is in one of two rows of ranges exactly when it is in the first or in the second. -/
theorem inRanges_append :
    inRanges (ranges ++ others) point = (inRanges ranges point || inRanges others point) :=
  List.any_append

/-- A point in ranges that others cover is in those. -/
theorem inRanges_of_covers (h : others.all (covers ranges) = true)
    (hpoint : inRanges others point = true) : inRanges ranges point = true := by
  rw [inRanges_iff] at hpoint ⊢
  obtain ⟨range, hrange, hfrom, hto⟩ := hpoint
  obtain ⟨first, hfirst, hcover⟩ := List.any_eq_true.1 (List.all_eq_true.1 h range hrange)
  simp only [Bool.and_eq_true, Bool.or_eq_true, decide_eq_true_eq, List.any_eq_true] at hcover
  obtain ⟨⟨hbelow, -⟩, habove | ⟨second, hsecond, hadjoins, habove⟩⟩ := hcover
  · exact ⟨first, hfirst, by omega, by omega⟩
  · -- the point lies in the first of the two ranges, or behind it in the second
    by_cases hin : point ≤ first.2
    · exact ⟨first, hfirst, by omega, hin⟩
    · exact ⟨second, hsecond, by omega, by omega⟩

/-- A point in ranges apart from others is not in those. -/
theorem inRanges_eq_false_of_apart (h : (others.all fun range => ranges.all (apart range)) = true)
    (hpoint : inRanges others point = true) : inRanges ranges point = false := by
  obtain ⟨range, hrange, hfrom, hto⟩ := (inRanges_iff _ _).1 hpoint
  rw [Bool.eq_false_iff]
  intro hin
  obtain ⟨other, hother, hfrom', hto'⟩ := (inRanges_iff _ _).1 hin
  have hapart := List.all_eq_true.1 (List.all_eq_true.1 h range hrange) other hother
  simp only [apart, Bool.or_eq_true, decide_eq_true_eq] at hapart
  omega

/-- A point of two rows of ranges that are apart lies in one of them only. -/
theorem inRanges_eq_not_of_apart
    (h : (others.all fun range => ranges.all (apart range)) = true)
    (hpoint : inRanges (ranges ++ others) point = true) :
    inRanges ranges point = !inRanges others point := by
  rw [inRanges_append] at hpoint
  cases hother : inRanges others point with
  | false => rwa [hother, Bool.or_false] at hpoint
  | true => exact inRanges_eq_false_of_apart h hother

end Text

namespace Name

open Text

/-- The ranges of the characters that a name can start with in XML 1.0. -/
def xmlStartRanges : List (Nat × Nat) :=
  [(0x3A, 0x3A), (0x41, 0x5A), (0x5F, 0x5F), (0x61, 0x7A), (0xC0, 0xD6), (0xD8, 0xF6),
   (0xF8, 0x2FF), (0x370, 0x37D), (0x37F, 0x1FFF), (0x200C, 0x200D), (0x2070, 0x218F),
   (0x2C00, 0x2FEF), (0x3001, 0xD7FF), (0xF900, 0xFDCF), (0xFDF0, 0xFFFD), (0x10000, 0xEFFFF)]

/-- The ranges of the characters that a name can go on with in XML 1.0. -/
def xmlPartRanges : List (Nat × Nat) :=
  xmlStartRanges ++
    [(0x2D, 0x2E), (0x30, 0x39), (0xB7, 0xB7), (0x300, 0x36F), (0x203F, 0x2040)]

/-- Whether a text is a name of XML 1.0. -/
def isXmlName (name : String) : Bool :=
  match name.toList with
  | [] => false
  | first :: rest =>
    inRanges xmlStartRanges first.toNat && rest.all fun c => inRanges xmlPartRanges c.toNat

/-- The letters that no name of XML starts with: ordinal indicators and the micro sign, combining
letters, and letters in circles. -/
def strayStartRanges : List (Nat × Nat) :=
  [(0xAA, 0xAA), (0xB5, 0xB5), (0xBA, 0xBA), (0x345, 0x345), (0x363, 0x36F), (0x24B6, 0x24E9)]

/-- The letters and numbers that no name of XML goes on with: ordinal indicators and the micro sign,
superscripts and fractions, and letters and numbers in circles. -/
def strayPartRanges : List (Nat × Nat) :=
  [(0xAA, 0xAA), (0xB2, 0xB3), (0xB5, 0xB5), (0xB9, 0xB9), (0xBA, 0xBA), (0xBC, 0xBE),
   (0x2460, 0x249B), (0x24B6, 0x24E9), (0x24EA, 0x24FF), (0x2776, 0x2793)]

/-- Whether a text has a letter or number in a place where no name of XML has it. -/
def isStray (name : String) : Bool :=
  match name.toList with
  | [] => false
  | first :: rest =>
    inRanges strayStartRanges first.toNat || rest.any fun c => inRanges strayPartRanges c.toNat

variable {c : Char}

/-- An alphabetic character is in the table of alphabetic ranges. -/
theorem inRanges_of_isAlphabetic (h : isAlphabetic c = true) :
    inRanges alphabeticRanges c.toNat = true := by
  unfold isAlphabetic at h
  split at h
  · -- the table has the letters of ASCII as well
    have hupper : (0x41, 0x5A) ∈ alphabeticRanges := .head _
    have hlower : (0x61, 0x7A) ∈ alphabeticRanges := .tail _ (.head _)
    rw [inRanges_iff]
    rcases (Bool.or_eq_true _ _).mp h with h | h
    · have hin : 'A'.val ≤ c.val ∧ c.val ≤ 'Z'.val := of_decide_eq_true h
      exact ⟨_, hupper, hin⟩
    · obtain ⟨hfrom, hto⟩ := (Bool.and_eq_true _ _).mp h
      have hin : 'a'.val ≤ c.val ∧ c.val ≤ 'z'.val :=
        ⟨of_decide_eq_true hfrom, of_decide_eq_true hto⟩
      exact ⟨_, hlower, hin⟩
  · exact h

/-- A numeric character is in the table of numeric ranges. -/
theorem inRanges_of_isNumeric (h : isNumeric c = true) :
    inRanges numericRanges c.toNat = true := by
  unfold isNumeric at h
  split at h
  · have hdigit : (0x30, 0x39) ∈ numericRanges := .head _
    obtain ⟨hfrom, hto⟩ := (Bool.and_eq_true _ _).mp h
    have hin : '0'.val ≤ c.val ∧ c.val ≤ '9'.val :=
      ⟨of_decide_eq_true hfrom, of_decide_eq_true hto⟩
    rw [inRanges_iff]
    exact ⟨_, hdigit, hin⟩
  · exact h

/-- A character that a name can start with is one of the grammar unless it is a stray letter. -/
theorem inRanges_xmlStartRanges (h : isStart c = true) :
    inRanges xmlStartRanges c.toNat = !inRanges strayStartRanges c.toNat := by
  have hcovered : alphabeticRanges.all (covers (xmlStartRanges ++ strayStartRanges)) = true := by
    decide +kernel
  apply inRanges_eq_not_of_apart (by decide)
  simp only [isStart, Bool.or_eq_true, beq_iff_eq] at h
  rcases h with (halphabetic | rfl) | rfl
  · exact inRanges_of_covers hcovered (inRanges_of_isAlphabetic halphabetic)
  · rfl
  · rfl

/-- A character that a name can go on with is one of the grammar unless it is a stray letter or
number. -/
theorem inRanges_xmlPartRanges (h : isPart c = true) :
    inRanges xmlPartRanges c.toNat = !inRanges strayPartRanges c.toNat := by
  have hletters : alphabeticRanges.all (covers (xmlPartRanges ++ strayPartRanges)) = true := by
    decide +kernel
  have hnumbers : numericRanges.all (covers (xmlPartRanges ++ strayPartRanges)) = true := by
    decide +kernel
  apply inRanges_eq_not_of_apart (by decide)
  simp only [isPart, Bool.or_eq_true, beq_iff_eq] at h
  rcases h with ((((halphabetic | hnumeric) | rfl) | rfl) | rfl) | rfl
  · exact inRanges_of_covers hletters (inRanges_of_isAlphabetic halphabetic)
  · exact inRanges_of_covers hnumbers (inRanges_of_isNumeric hnumeric)
  all_goals rfl

/-- The stray letters are letters that a name can start with all the same. -/
theorem isStart_of_stray (h : inRanges strayStartRanges c.toNat = true) : isStart c = true := by
  have hcovered : strayStartRanges.all (covers alphabeticRanges) = true := by decide +kernel
  -- the table is asked beyond ASCII only
  have hbeyond : strayStartRanges.all (fun range => decide (0x80 ≤ range.1)) = true := by decide
  obtain ⟨range, hrange, hfrom, -⟩ := (inRanges_iff _ _).1 h
  have hlow := of_decide_eq_true (List.all_eq_true.1 hbeyond range hrange)
  have halphabetic : isAlphabetic c = true := by
    rw [isAlphabetic, if_neg (by omega)]
    exact inRanges_of_covers hcovered h
  simp [isStart, halphabetic]

/-- The stray points are accepted inside a name. -/
theorem isPart_of_stray (h : inRanges strayPartRanges c.toNat = true) : isPart c = true := by
  have hcovered : strayPartRanges.all (covers (alphabeticRanges ++ numericRanges)) = true := by
    decide +kernel
  have hbeyond : strayPartRanges.all (fun range => decide (0x80 ≤ range.1)) = true := by decide
  obtain ⟨range, hrange, hfrom, -⟩ := (inRanges_iff _ _).1 h
  have hlow := of_decide_eq_true (List.all_eq_true.1 hbeyond range hrange)
  have hin := inRanges_of_covers hcovered h
  rw [inRanges_append, Bool.or_eq_true] at hin
  have hletter : isAlphabetic c || isNumeric c := by
    rw [isAlphabetic, if_neg (by omega), isNumeric, if_neg (by omega), Bool.or_eq_true]
    exact hin
  simp only [Bool.or_eq_true] at hletter
  simp [isPart, hletter]

/-- Somebody takes a text for a name: the check of names, a new stream for its root, a stream for an
element or an attribute, or a new set of documents for their roots. -/
inductive Accepted (name : String) : Prop where
  | ofCheck (h : validate name = .ok ())
  | ofRoot {ω : Type} [Output ω] {output left : ω} {declared : Bool} {stream : XmlStream ω}
      (h : XmlStream.create output name declared = (.ok stream, left))
  | ofElement {ω : Type} [Output ω] {stream left : XmlStream ω} {parent child : Nat}
      (h : (XmlStream.startElement parent name).run stream = (.ok child, left))
  | ofAttribute {ω : Type} [Output ω] {stream left : XmlStream ω} {element : Nat} {value : String}
      (h : (XmlStream.setAttribute element name value).run stream = (.ok (), left))
  | ofSet {directory : String} {engine : Engine} {disk left : Disk} {set : DocumentSet}
      (h : (DocumentSet.create directory name engine).run disk = (.ok set, left))

/-- Everybody asks the check of names first. -/
theorem Accepted.isValid {name : String} (h : Accepted name) : isValid name = true := by
  rw [← validate_eq_ok_iff]
  cases h with
  | ofCheck h => exact h
  | ofRoot h =>
    cases hname : validate name with
    | ok _ => rfl
    | error error =>
      rw [XmlStream.create, hname] at h
      cases h
  | ofElement h =>
    obtain ⟨stream, _, -, h⟩ := Action.of_bind_eq_ok h
    obtain ⟨frame, _, -, h⟩ := Action.of_bind_eq_ok h
    obtain ⟨_, _, hname, -⟩ := Action.of_bind_eq_ok h
    exact congrArg Prod.fst hname
  | ofAttribute h =>
    obtain ⟨stream, _, -, h⟩ := Action.of_bind_eq_ok h
    obtain ⟨frame, _, -, h⟩ := Action.of_bind_eq_ok h
    obtain ⟨_, _, hname, -⟩ := Action.of_bind_eq_ok h
    exact congrArg Prod.fst hname
  | ofSet h =>
    obtain ⟨_, _, hname, -⟩ := Action.of_bind_eq_ok h
    exact congrArg Prod.fst hname

/-- A text that anybody takes for a name is one of the grammar of XML, unless it starts with a stray
letter or goes on with a stray letter or number.  These are indeed taken where the grammar does not
list them. -/
theorem isXmlName_iff_of_accepted {name : String} (h : Accepted name) :
    (isXmlName name = true ↔ isStray name = false) ∧
      (∀ c : Char, inRanges strayStartRanges c.toNat = true →
        isStart c = true ∧ inRanges xmlStartRanges c.toNat = false) ∧
      ∀ c : Char, inRanges strayPartRanges c.toNat = true →
        isPart c = true ∧ inRanges xmlPartRanges c.toNat = false := by
  have hvalid := h.isValid
  refine ⟨?_, ?_, ?_⟩
  · unfold isValid at hvalid
    unfold isXmlName isStray
    cases hname : name.toList with
    | nil =>
      rw [hname] at hvalid
      cases hvalid
    | cons first rest =>
      rw [hname, Bool.and_eq_true, List.all_eq_true] at hvalid
      have hrest : (rest.all fun c => inRanges xmlPartRanges c.toNat) =
          !rest.any fun c => inRanges strayPartRanges c.toNat := by
        rw [List.not_any_eq_all_not, Bool.eq_iff_iff, List.all_eq_true, List.all_eq_true]
        apply forall₂_congr
        intro c hc
        rw [inRanges_xmlPartRanges (hvalid.2 c hc)]
      show (_ && _) = true ↔ (_ || _) = false
      rw [inRanges_xmlStartRanges hvalid.1, hrest, ← Bool.not_or, Bool.not_eq_true']
  · intro c hstray
    have hstart := isStart_of_stray hstray
    refine ⟨hstart, ?_⟩
    rw [inRanges_xmlStartRanges hstart, hstray, Bool.not_true]
  · intro c hstray
    have hpart := isPart_of_stray hstray
    refine ⟨hpart, ?_⟩
    rw [inRanges_xmlPartRanges hpart, hstray, Bool.not_true]

/-- The name of a root with a letter beyond ASCII is one of the grammar. -/
theorem isXmlName_iff_of_accepted_small :
    Accepted "bücher:2" ∧ isXmlName "bücher:2" = true := by
  have haccepted : Accepted "bücher:2" := .ofCheck ((validate_eq_ok_iff _).2 (by decide +kernel))
  exact ⟨haccepted, (isXmlName_iff_of_accepted haccepted).1.2 (by decide +kernel)⟩

/-- Not everything that the check of names takes is a name of XML: it takes the feminine ordinal
indicator. -/
theorem not_isXmlName_of_validate :
    ¬ ∀ name : String, validate name = .ok () → isXmlName name = true := by
  intro h
  have hname : isXmlName "ª" = true := h "ª" ((validate_eq_ok_iff _).2 (by decide +kernel))
  revert hname
  decide +kernel

end Name

end XmlWorkload
