import XmlWorkload.Proofs.Pattern.Splitting

/-!
# Offsets in bytes

A text in UTF-8 is cut at an offset in bytes, which has to be that of a boundary between two
characters or of an end.  Main statement: the offsets at which a text can be cut are the lengths in
bytes of what it starts with (`Text.cutAt?_eq_some_iff`).
-/

set_option autoImplicit false

namespace XmlWorkload.Text

/-- The number of bytes of a text in UTF-8. -/
def byteLength (text : List Char) : Nat := (String.ofList text).utf8ByteSize

/-- A text cut at an offset in bytes.  There is no result if the offset lies behind the end or
within a character. -/
def cutAt? : (offset : Nat) → List Char → Option (List Char × List Char)
  | 0, text => some ([], text)
  | _ + 1, [] => none
  | offset + 1, c :: text =>
    if c.utf8Size ≤ offset + 1 then
      (cutAt? (offset + 1 - c.utf8Size) text).map fun parts => (c :: parts.1, parts.2)
    else none

/-- The part of a text before an offset. -/
def takeTo? (stop : Nat) (text : List Char) : Option (List Char) := (cutAt? stop text).map (·.1)

/-- The part of a text from an offset on. -/
def dropTo? (start : Nat) (text : List Char) : Option (List Char) := (cutAt? start text).map (·.2)

/-- The part of a text between two offsets. -/
def slice? (start stop : Nat) (text : List Char) : Option (List Char) :=
  (takeTo? stop text).bind (dropTo? start)

/-- The offset of the first occurrence of a mark. -/
def find? (mark text : List Char) : Option Nat :=
  (splitAtFirst? mark text).map fun parts => byteLength parts.1

variable {c : Char} {text left right : List Char}

/-- An empty text takes no bytes. -/
@[simp]
theorem byteLength_nil : byteLength [] = 0 := rfl

/-- Two texts take their bytes together. -/
@[simp]
theorem byteLength_append (left right : List Char) :
    byteLength (left ++ right) = byteLength left + byteLength right := by
  simp [byteLength, String.ofList_append]

/-- A text takes the bytes of its first character and those of the rest. -/
@[simp]
theorem byteLength_cons (c : Char) (text : List Char) :
    byteLength (c :: text) = c.utf8Size + byteLength text := by
  rw [← List.singleton_append, byteLength_append]
  simp [byteLength]

/-- Only an empty text takes no bytes. -/
theorem byteLength_eq_zero_iff : byteLength text = 0 ↔ text = [] := by
  cases text with
  | nil => simp
  | cons c text =>
    have hsize := c.utf8Size_pos
    simp only [byteLength_cons, List.cons_ne_nil, iff_false]
    omega

/-- A text can be cut at the length of what it starts with, and nowhere else. -/
theorem cutAt?_eq_some_iff {offset : Nat} :
    cutAt? offset text = some (left, right) ↔ text = left ++ right ∧ byteLength left = offset := by
  fun_induction cutAt? offset text generalizing left with
  | case1 text =>
    rw [byteLength_eq_zero_iff, Option.some.injEq, Prod.mk.injEq]
    constructor
    · rintro ⟨rfl, rfl⟩
      exact ⟨rfl, rfl⟩
    · rintro ⟨rfl, rfl⟩
      exact ⟨rfl, rfl⟩
  | case2 offset =>
    simp only [reduceCtorEq, false_iff, not_and]
    intro hnil
    rw [(List.append_eq_nil_iff.1 hnil.symm).1]
    exact Nat.zero_ne_add_one offset
  | case3 offset c text hle ih =>
    cases left with
    | nil => simp
    | cons d left =>
      simp only [Option.map_eq_some_iff, Prod.mk.injEq, Prod.exists, List.cons.injEq,
        List.cons_append, byteLength_cons]
      constructor
      · rintro ⟨left, right, hcut, ⟨rfl, rfl⟩, rfl⟩
        obtain ⟨rfl, hlength⟩ := ih.1 hcut
        exact ⟨⟨rfl, rfl⟩, by omega⟩
      · rintro ⟨⟨rfl, rfl⟩, hlength⟩
        exact ⟨left, right, ih.2 ⟨rfl, by omega⟩, ⟨rfl, rfl⟩, rfl⟩
  | case4 offset c text hle =>
    cases left with
    | nil => simp
    | cons d left =>
      simp only [reduceCtorEq, List.cons_append, List.cons.injEq, byteLength_cons, false_iff]
      rintro ⟨⟨rfl, -⟩, hlength⟩
      omega

section Slices

variable (left middle right : List Char)

/-- A text can be cut behind a part of it, and that part is in front. -/
theorem takeTo?_append : takeTo? (byteLength left) (left ++ right) = some left := by
  rw [takeTo?, cutAt?_eq_some_iff.2 ⟨rfl, rfl⟩]
  rfl

/-- A text can be cut behind a part of it, and the rest follows. -/
theorem dropTo?_append : dropTo? (byteLength left) (left ++ right) = some right := by
  rw [dropTo?, cutAt?_eq_some_iff.2 ⟨rfl, rfl⟩]
  rfl

/-- A part of a text is cut out by the bytes in front of it and those up to its end. -/
theorem slice?_append :
    slice? (byteLength left) (byteLength (left ++ middle)) (left ++ middle ++ right) =
      some middle := by
  rw [slice?, takeTo?_append, Option.bind_some, dropTo?_append]

end Slices

end XmlWorkload.Text
