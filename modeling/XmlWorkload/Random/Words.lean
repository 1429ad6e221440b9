/-!
# Sources of random words

A source gives one word of 32 bits after the other.  From such words come bytes and decimal digits.
A draw of more digits than a text can have comes to nothing.
-/

set_option autoImplicit false

namespace XmlWorkload.Random

/-- A source of words. -/
class WordSource (ρ : Type) where
  /-- The next word, and the source behind it. -/
  next : ρ → UInt32 × ρ

variable {ρ : Type} [WordSource ρ]

/-- Draws a word. -/
def word : StateM ρ UInt32 := fun source => WordSource.next source

/-- Draws bytes, each the low byte of a word. -/
def bytes : (count : Nat) → StateM ρ (List UInt8)
  | 0 => pure []
  | count + 1 => do
    let drawn ← word
    let rest ← bytes count
    pure (drawn.toUInt8 :: rest)

/-- The number of words. -/
def wordCount : Nat := 0x100000000

/-- Draws a number below a small bound: the high part of a word times the bound.  When the low part
shows that a longer word might have carried into the high part, a second word decides. -/
def below (bound : Nat) : StateM ρ Nat := do
  let drawn ← word
  let product := drawn.toNat * bound
  let high := product / wordCount
  let low := product % wordCount
  if wordCount - bound < low then
    let more ← word
    let carry := more.toNat * bound / wordCount
    pure (if wordCount ≤ low + carry then high + 1 else high)
  else pure high

/-- The character of a decimal digit. -/
def digitChar (digit : Nat) : Char := Char.ofNat ('0'.toNat + digit)

/-- Draws decimal digits, the first of which may have to be at least `least`. -/
def digitsFrom (least : Nat) : (count : Nat) → StateM ρ (List Char)
  | 0 => pure []
  | count + 1 => do
    let drawn ← below (10 - least)
    let rest ← digitsFrom 0 count
    pure (digitChar (least + drawn) :: rest)

/-- Draws that may come to nothing. -/
abbrev Draw (ρ α : Type) := StateT ρ Option α

omit [WordSource ρ] in
/-- A draw that always comes to something. -/
def always {α : Type} (draw : StateM ρ α) : Draw ρ α := fun source => some (draw.run source)

omit [WordSource ρ] in
/-- What comes of a draw that always comes to something. -/
@[simp]
theorem run_always {α : Type} (draw : StateM ρ α) (source : ρ) :
    (always draw).run source = some (draw.run source) := rfl

/-- The greatest number of bytes that a text can have. -/
def textBound : Nat := 0x7FFFFFFFFFFFFFFF

/-- Draws decimal digits that form a number without leading zeros; nothing if no text can have so
many of them. -/
def digits (count : Nat) : Draw ρ (List Char) := fun source =>
  if count ≤ textBound then some ((digitsFrom 1 count).run source) else none

/-- The lower-case hexadecimal digits of bytes. -/
def hexDigits (values : List UInt8) : List Char :=
  values.flatMap fun value => [Nat.digitChar (value.toNat / 16), Nat.digitChar (value.toNat % 16)]

/-- Random bytes with the marks of a random identifier: version four, and the usual variant. -/
def markIdentifier (values : List UInt8) : List UInt8 :=
  values.mapIdx fun place value =>
    if place = 6 then (value &&& 0x0F) ||| 0x40
    else if place = 8 then (value &&& 0x3F) ||| 0x80
    else value

/-- Sixteen bytes as an identifier, in groups of four, two, two, two and six bytes. -/
def renderIdentifier (values : List UInt8) : List Char :=
  let hex := hexDigits (markIdentifier values)
  let group (start length : Nat) := (hex.drop start).take length
  group 0 8 ++ ['-'] ++ group 8 4 ++ ['-'] ++ group 12 4 ++ ['-'] ++ group 16 4 ++ ['-'] ++
    group 20 12

/-- Draws a random identifier. -/
def identifier : StateM ρ (List Char) := do
  let values ← bytes 16
  pure (renderIdentifier values)

end XmlWorkload.Random
