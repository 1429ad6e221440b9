import XmlWorkload.Json.Basic

/-!
# Lexemes of the exchange notation

A text is cut into marks, texts, numbers and words.  Blanks stand between lexemes and count for
nothing.  A text that cannot be cut so has no lexemes at all.
-/

set_option autoImplicit false

namespace XmlWorkload.Json

/-- A lexeme. -/
inductive Token where
  | openArray
  | closeArray
  | openObject
  | closeObject
  | comma
  | colon
  | leaf (value : Json)

/-- Whether a character is a blank of the notation. -/
def isSpace (c : Char) : Bool := c == ' ' || c == '\t' || c == '\n' || c == '\r'

/-- Whether a number or word can go on with a character. -/
def isWordPart (c : Char) : Bool :=
  c.isAlphanum || c == '+' || c == '-' || c == '.'

/-- The value of a word or number. -/
def leafOfWord? (word : List Char) : Option Json :=
  if word = "null".toList then some .null
  else if word = "true".toList then some (.bool true)
  else if word = "false".toList then some (.bool false)
  else (readNumber? word).map .number

/-- The lexeme that a mark stands for. -/
def tokenOfMark? : Char → Option Token
  | '[' => some .openArray
  | ']' => some .closeArray
  | '\x7b' => some .openObject
  | '\x7d' => some .closeObject
  | ',' => some .comma
  | ':' => some .colon
  | _ => none

/-- The number that four hexadecimal digits write. -/
def readHex? (a b c d : Char) : Option Nat := Decimal.readDigits? 16 [a, b, c, d]

/-- The character of a pair of surrogate code units. -/
def ofSurrogates? (high low : Nat) : Option Char :=
  if 0xD800 ≤ high ∧ high < 0xDC00 ∧ 0xDC00 ≤ low ∧ low < 0xE000 then
    some (Char.ofNat (0x10000 + (high - 0xD800) * 0x400 + (low - 0xDC00)))
  else none

/-- The character that a letter behind a backslash stands for. -/
def ofEscape? : Char → Option Char
  | '"' => some '"'
  | '\\' => some '\\'
  | '/' => some '/'
  | 'b' => some '\x08'
  | 'f' => some '\x0c'
  | 'n' => some '\n'
  | 'r' => some '\r'
  | 't' => some '\t'
  | _ => none

/-- The characters of a text up to its closing quote, and what follows the quote.  `sofar` holds
the characters read already, the last one first. -/
def readText? (sofar : List Char) : List Char → Option (List Char × List Char)
  | [] => none
  | '"' :: rest => some (sofar.reverse, rest)
  | '\\' :: 'u' :: a :: b :: c :: d :: rest =>
    match readHex? a b c d with
    | none => none
    | some point =>
      if 0xD800 ≤ point ∧ point < 0xE000 then
        match rest with
        | '\\' :: 'u' :: a :: b :: c :: d :: rest =>
          match (readHex? a b c d).bind (ofSurrogates? point) with
          | none => none
          | some char => readText? (char :: sofar) rest
        | _ => none
      else readText? (Char.ofNat point :: sofar) rest
  | '\\' :: mark :: rest =>
    match ofEscape? mark with
    | none => none
    | some char => readText? (char :: sofar) rest
  | c :: rest => if c.toNat < 0x20 then none else readText? (c :: sofar) rest

/-- What follows a text is shorter than what held it. -/
theorem length_of_readText? (sofar text chars rest : List Char)
    (h : readText? sofar text = some (chars, rest)) : rest.length < text.length := by
  fun_induction readText? sofar text <;> simp_all <;> omega

/-- The lexemes of a text. -/
def tokens? (text : List Char) : Option (List Token) :=
  match text with
  | [] => some []
  | c :: rest =>
    if isSpace c then tokens? rest
    else if c = '"' then
      match h : readText? [] rest with
      | none => none
      | some (chars, behind) =>
        have : behind.length < rest.length := length_of_readText? _ _ _ _ h
        (tokens? behind).map (.leaf (.string (String.ofList chars)) :: ·)
    else match tokenOfMark? c with
      | some token => (tokens? rest).map (token :: ·)
      | none =>
        have : (rest.dropWhile isWordPart).length ≤ rest.length :=
          (List.dropWhile_suffix isWordPart).length_le
        match leafOfWord? (c :: rest.takeWhile isWordPart) with
        | none => none
        | some value => (tokens? (rest.dropWhile isWordPart)).map (.leaf value :: ·)
termination_by text.length

end XmlWorkload.Json
