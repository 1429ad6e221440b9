/-!
# The characters of a document

Which characters a document may hold, the classes that its syntax tells apart, and the place that a
reader has reached.  The usual line breaks are made one before anything else is read; the two
Unicode separators break lines too, but stay as they are.
-/

set_option autoImplicit false

namespace XmlWorkload.Yaml

/-- Whether a document may hold a character. -/
def isReadable (c : Char) : Bool :=
  let point := c.toNat
  point == 0x9 || point == 0xA || point == 0xD || point == 0x85 ||
    (decide (0x20 ≤ point) && decide (point ≤ 0x7E)) ||
    (decide (0xA0 ≤ point) && decide (point ≤ 0xD7FF)) ||
    (decide (0xE000 ≤ point) && decide (point ≤ 0xFFFD)) || decide (0x10000 ≤ point)

/-- The mark that a line may start with to tell the encoding. -/
def byteOrderMark : Char := '\ufeff'

/-- A text with each usual line break written as one line feed. -/
def uniteBreaks : List Char → List Char
  | [] => []
  | '\r' :: '\n' :: rest => '\n' :: uniteBreaks rest
  | c :: rest => (if c = '\r' ∨ c = '\u0085' then '\n' else c) :: uniteBreaks rest

/-- The characters of a document, if it may hold them all. -/
def sourceChars? (text : String) : Option (List Char) :=
  let chars := text.toList
  if chars.all isReadable then some (uniteBreaks chars) else none

/-- Whether a character ends a line. -/
def isBreak (c : Char) : Bool := c == '\n' || c == '\u2028' || c == '\u2029'

/-- Whether a character is a space or a tab. -/
def isGap (c : Char) : Bool := c == ' ' || c == '\t'

/-- Whether a character parts words. -/
def isSeparator (c : Char) : Bool := isGap c || isBreak c

/-- Whether a text starts with a character that parts words, or is at its end. -/
def atSeparator : List Char → Bool
  | [] => true
  | c :: _ => isSeparator c

/-- Whether a text is at the end of a line. -/
def atLineEnd : List Char → Bool
  | [] => true
  | c :: _ => isBreak c

/-- Whether a character belongs to a word: an ASCII letter or digit, an underscore or a hyphen. -/
def isWordChar (c : Char) : Bool := c.isAlphanum || c == '_' || c == '-'

/-- Whether a character starts or ends a flow collection, or parts its entries. -/
def isFlowMark (c : Char) : Bool :=
  c == ',' || c == '[' || c == ']' || c == '\x7b' || c == '\x7d'

/-- Whether a text starts with a marker between documents that stands alone. -/
def atDocumentMarker : List Char → Bool
  | '-' :: '-' :: '-' :: rest => atSeparator rest
  | '.' :: '.' :: '.' :: rest => atSeparator rest
  | _ => false

/-- A place in a document. -/
structure Place where
  line : Nat
  /-- The number of characters before in the line. -/
  column : Nat
  /-- The number of bytes that these characters take. -/
  bytes : Nat
  deriving DecidableEq, Repr, Inhabited

namespace Place

/-- The start of a document. -/
def start : Place := ⟨0, 0, 0⟩

/-- The place after a character that ends no line. -/
def next (place : Place) (c : Char) : Place :=
  { place with column := place.column + 1, bytes := place.bytes + c.utf8Size }

/-- The place after characters that end no line. -/
def behind (place : Place) (chars : List Char) : Place := chars.foldl next place

/-- The start of the next line. -/
def nextLine (place : Place) : Place := ⟨place.line + 1, 0, 0⟩

end Place

/-- The place that a reader has reached, with the characters that are left. -/
structure Cursor extends Place where
  rest : List Char
  deriving Inhabited

namespace Cursor

/-- The place after `count` characters of the same line. -/
def skip (cursor : Cursor) (count : Nat) : Cursor :=
  ⟨cursor.behind (cursor.rest.take count), cursor.rest.drop count⟩

/-- The place after the characters of the same line that satisfy `p`. -/
def skipWhile (cursor : Cursor) (p : Char → Bool) : Cursor :=
  ⟨cursor.behind (cursor.rest.takeWhile p), cursor.rest.dropWhile p⟩

/-- The place after the spaces and tabs here. -/
def skipGaps (cursor : Cursor) : Cursor := cursor.skipWhile isGap

/-- The place at the end of the line. -/
def skipToLineEnd (cursor : Cursor) : Cursor := cursor.skipWhile fun c => !isBreak c

/-- The place after a line break, if there is one here. -/
def skipBreak (cursor : Cursor) : Cursor :=
  match cursor.rest with
  | [] => cursor
  | c :: rest => if isBreak c then ⟨cursor.nextLine, rest⟩ else cursor

/-- The place after the mark of the encoding, if it stands here at the start of a line. -/
def skipMark (cursor : Cursor) : Cursor :=
  if cursor.column = 0 ∧ cursor.rest.head? = some byteOrderMark then cursor.skip 1 else cursor

/-- The place after a comment, if there is one here. -/
def skipComment (cursor : Cursor) : Cursor :=
  match cursor.rest with
  | '#' :: _ => cursor.skipToLineEnd
  | _ => cursor

end Cursor

end XmlWorkload.Yaml
