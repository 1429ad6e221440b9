import XmlWorkload.Random.Words
import Mathlib.Data.List.Basic

/-!
# Drawn identifiers

An identifier takes sixteen words of a source, so the words of a source fall into groups, one for
each identifier.  Main statements: what the draw of an identifier gives is the identifier of its
group (`Random.identifier_run`), and its text is that of a version-four identifier
(`Random.isVersionFour_identifierAt`).
-/

set_option autoImplicit false

namespace XmlWorkload.Random

/-! ## Groups of words -/

section Words

variable {ρ : Type} [WordSource ρ]

/-- What is left of a source behind so many words. -/
def behindWords (source : ρ) : (count : Nat) → ρ
  | 0 => source
  | count + 1 => behindWords (WordSource.next source).2 count

/-- The word of a source at a place. -/
def wordAt (source : ρ) (place : Nat) : UInt32 := (WordSource.next (behindWords source place)).1

/-- The identifier made of the low bytes of the group of sixteen words with the given number. -/
def identifierAt (source : ρ) (number : Nat) : List Char :=
  renderIdentifier ((List.range 16).map fun place => (wordAt source (16 * number + place)).toUInt8)

/-- Going on twice behind words is going on behind all of them. -/
theorem behindWords_add (source : ρ) (first second : Nat) :
    behindWords (behindWords source first) second = behindWords source (first + second) := by
  induction first generalizing source with
  | zero => rw [behindWords, Nat.zero_add]
  | succ first ih => rw [behindWords, ih, Nat.succ_add, behindWords]

/-- A word behind others stands so many places further on. -/
theorem wordAt_behindWords (source : ρ) (count place : Nat) :
    wordAt (behindWords source count) place = wordAt source (count + place) := by
  rw [wordAt, behindWords_add, wordAt]

/-- Bytes are drawn from one word each. -/
theorem bytes_run (count : Nat) (source : ρ) :
    (bytes count).run source =
      ((List.range count).map fun place => (wordAt source place).toUInt8,
        behindWords source count) := by
  induction count generalizing source with
  | zero => rfl
  | succ count ih =>
    have hword : ∀ place, wordAt (WordSource.next source).2 place = wordAt source (place + 1) :=
      fun place => rfl
    have hrest := ih (WordSource.next source).2
    simp only [hword] at hrest
    rw [List.range_succ_eq_map, List.map_cons, List.map_map]
    show (_ :: ((bytes count).run (WordSource.next source).2).1,
      ((bytes count).run (WordSource.next source).2).2) = _
    rw [hrest]
    rfl

/-- The draw of an identifier gives the one of its group, and goes on behind the group. -/
theorem identifier_run (source : ρ) (number : Nat) :
    (identifier : StateM ρ (List Char)).run (behindWords source (16 * number)) =
      (identifierAt source number, behindWords source (16 * (number + 1))) := by
  have hbytes := bytes_run 16 (behindWords source (16 * number))
  simp only [wordAt_behindWords, behindWords_add] at hbytes
  show (renderIdentifier ((bytes 16).run _).1, ((bytes 16).run _).2) = _
  rw [hbytes]
  rfl

end Words

/-! ## The text of an identifier -/

/-- The lower-case hexadecimal digits. -/
def hexAlphabet : List Char := "0123456789abcdef".toList

/-- A text is that of a version-four identifier: five groups of lower-case hexadecimal digits with
hyphens between them, the third of which starts with the version and the fourth with the variant. -/
def IsVersionFour (text : List Char) : Prop :=
  ∃ first second third fourth fifth : List Char,
    text = first ++ ['-'] ++ second ++ ['-'] ++ third ++ ['-'] ++ fourth ++ ['-'] ++ fifth ∧
    [first, second, third, fourth, fifth].map List.length = [8, 4, 4, 4, 12] ∧
    (∀ c ∈ first ++ second ++ third ++ fourth ++ fifth, c ∈ hexAlphabet) ∧
    third.head? = some '4' ∧ ∃ c ∈ ['8', '9', 'a', 'b'], fourth.head? = some c

namespace IsVersionFour

variable {text : List Char}

/-- An identifier of version four has 36 characters. -/
theorem length (h : IsVersionFour text) : text.length = 36 := by
  obtain ⟨first, second, third, fourth, fifth, rfl, hlengths, -⟩ := h
  simp only [List.map_cons, List.map_nil, List.cons.injEq, and_true] at hlengths
  simp [hlengths]

/-- An identifier of version four has hyphens and hexadecimal digits. -/
theorem mem {c : Char} (h : IsVersionFour text) (hc : c ∈ text) : c ∈ '-' :: hexAlphabet := by
  obtain ⟨first, second, third, fourth, fifth, rfl, -, hhex, -⟩ := h
  by_contra hnone
  simp only [List.mem_cons, not_or] at hnone
  have hgroups := mt (hhex c) hnone.2
  simp only [List.mem_append, not_or] at hgroups
  simp [hgroups, hnone.1] at hc

end IsVersionFour

/-- A digit below sixteen is in the hexadecimal alphabet. -/
theorem digitChar_mem_hexAlphabet : ∀ digit < 16, Nat.digitChar digit ∈ hexAlphabet := by decide

/-- Hexadecimal digits are in the hexadecimal alphabet. -/
theorem mem_hexAlphabet_of_mem_hexDigits {values : List UInt8} :
    ∀ c ∈ hexDigits values, c ∈ hexAlphabet := by
  intro c hc
  obtain ⟨value, -, hc⟩ := List.mem_flatMap.1 hc
  have hvalue : value.toNat < 256 := value.toNat_lt
  simp only [List.mem_cons, List.not_mem_nil, or_false] at hc
  rcases hc with rfl | rfl
  · exact digitChar_mem_hexAlphabet _ (by omega)
  · exact digitChar_mem_hexAlphabet _ (by omega)

/-- Two hexadecimal digits are written for each byte. -/
theorem length_hexDigits (values : List UInt8) : (hexDigits values).length = 2 * values.length := by
  induction values with
  | nil => rfl
  | cons value values ih =>
    show ((_ :: _ :: hexDigits values : List Char)).length = _
    simp only [List.length_cons, ih]
    omega

/-- The first of the two digits of a byte. -/
theorem hexDigits_getElem? (values : List UInt8) (place : Nat) :
    (hexDigits values)[2 * place]? =
      values[place]?.map fun value => Nat.digitChar (value.toNat / 16) := by
  induction values generalizing place with
  | nil => rfl
  | cons value values ih =>
    cases place with
    | zero => rfl
    | succ place => exact ih place

/-- A marked byte starts with the version. -/
theorem version_of_marked (value : UInt8) : ((value &&& 0x0F) ||| 0x40).toNat / 16 = 4 := by
  have hor : ∀ low < 16, (low ||| 0x40) / 16 = 4 := by decide
  rw [UInt8.toNat_or, UInt8.toNat_and]
  exact hor _ (Nat.lt_of_le_of_lt Nat.and_le_right (by decide))

/-- A marked byte starts with a digit of the variant. -/
theorem variant_of_marked (value : UInt8) :
    Nat.digitChar (((value &&& 0x3F) ||| 0x80).toNat / 16) ∈ ['8', '9', 'a', 'b'] := by
  have hor : ∀ low < 64, Nat.digitChar ((low ||| 0x80) / 16) ∈ ['8', '9', 'a', 'b'] := by decide
  rw [UInt8.toNat_or, UInt8.toNat_and]
  exact hor _ (Nat.lt_of_le_of_lt Nat.and_le_right (by decide))

/-- Sixteen bytes give the text of a version-four identifier. -/
theorem isVersionFour_renderIdentifier {values : List UInt8} (hlength : values.length = 16) :
    IsVersionFour (renderIdentifier values) := by
  have hmarked : (markIdentifier values).length = 16 := by
    rw [markIdentifier, List.length_mapIdx, hlength]
  have hhex : (hexDigits (markIdentifier values)).length = 32 := by
    rw [length_hexDigits, hmarked]
  have hversion : (hexDigits (markIdentifier values))[12]? = some '4' := by
    rw [hexDigits_getElem? _ 6, markIdentifier, List.getElem?_mapIdx,
      List.getElem?_eq_getElem (by omega)]
    show some (Nat.digitChar (((values[6] &&& 0x0F) ||| 0x40).toNat / 16)) = some '4'
    rw [version_of_marked]
    rfl
  have hgroup : ∀ start length,
      ∀ c ∈ ((hexDigits (markIdentifier values)).drop start).take length, c ∈ hexAlphabet := by
    intro start length c hc
    exact mem_hexAlphabet_of_mem_hexDigits c (List.mem_of_mem_drop (List.mem_of_mem_take hc))
  have hvariant : ∃ c ∈ ['8', '9', 'a', 'b'],
      (hexDigits (markIdentifier values))[16]? = some c := by
    rw [hexDigits_getElem? _ 8, markIdentifier, List.getElem?_mapIdx,
      List.getElem?_eq_getElem (by omega)]
    exact ⟨_, variant_of_marked _, rfl⟩
  refine ⟨_, _, _, _, _, rfl, by simp [hhex], ?_, ?_, ?_⟩
  · simp only [List.forall_mem_append]
    exact ⟨⟨⟨⟨hgroup 0 8, hgroup 8 4⟩, hgroup 12 4⟩, hgroup 16 4⟩, hgroup 20 12⟩
  · simpa [List.head?_take] using hversion
  · simpa [List.head?_take] using hvariant

/-- The identifier drawn behind so many others is one of version four. -/
theorem isVersionFour_identifierAt {ρ : Type} [WordSource ρ] (source : ρ) (number : Nat) :
    IsVersionFour (identifierAt source number) :=
  isVersionFour_renderIdentifier (by simp)

end XmlWorkload.Random
