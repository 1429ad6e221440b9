import XmlWorkload.Decimal.Unsigned
import XmlWorkload.Yaml.Token.Gap

/-!
# Scalars between quotes

Between apostrophes only the apostrophe itself is special and is written twice.  Between double
quotes a backslash starts an escape, and at the end of a line it joins the line to the next one.
-/

set_option autoImplicit false

namespace XmlWorkload.Yaml

/-- A scalar between quotes as far as it has been read, the last character first. -/
structure QuotedReading where
  chars : List Char
  gap : Gap
  place : Place

namespace QuotedReading

/-- The reading after one more character and the characters that write it. -/
def push (reading : QuotedReading) (c : Char) (written : List Char) : QuotedReading :=
  ⟨c :: (reading.gap.text.reverse ++ reading.chars), .none, reading.place.behind written⟩

/-- The reading after one more space or tab. -/
def pushBlank (reading : QuotedReading) (c : Char) : QuotedReading :=
  { reading with gap := reading.gap.pushBlank c, place := reading.place.next c }

/-- The reading after one more line break. -/
def pushBreak (reading : QuotedReading) (c : Char) : QuotedReading :=
  { reading with gap := reading.gap.pushBreak c, place := reading.place.nextLine }

/-- The reading after a line break behind a backslash. -/
def joinLines (reading : QuotedReading) : QuotedReading :=
  ⟨reading.gap.text.reverse ++ reading.chars, .breaks none [], reading.place.nextLine⟩

/-- The scalar that the reading has come to, before its closing quote, and the place behind it. -/
def finish (reading : QuotedReading) (quote : Char) (rest : List Char) : String × Cursor :=
  (String.ofList (reading.gap.text.reverse ++ reading.chars).reverse,
    ⟨reading.place.next quote, rest⟩)

/-- Whether the reading has come to a marker between documents. -/
def atMarker (reading : QuotedReading) (text : List Char) : Bool :=
  reading.place.column == 0 && atDocumentMarker text

end QuotedReading

/-- Reads on between apostrophes. -/
def readSingleQuoted? (reading : QuotedReading) : List Char → Option (String × Cursor)
  | [] => none
  | '\'' :: '\'' :: rest => readSingleQuoted? (reading.push '\'' ['\'', '\'']) rest
  | '\'' :: rest => some (reading.finish '\'' rest)
  | c :: rest =>
    if reading.atMarker (c :: rest) then none
    else if isGap c then readSingleQuoted? (reading.pushBlank c) rest
    else if isBreak c then readSingleQuoted? (reading.pushBreak c) rest
    else readSingleQuoted? (reading.push c [c]) rest

/-- The character that a letter behind a backslash stands for. -/
def ofEscape? : Char → Option Char
  | '0' => some '\x00'
  | 'a' => some '\x07'
  | 'b' => some '\x08'
  | 't' => some '\t'
  | '\t' => some '\t'
  | 'n' => some '\n'
  | 'v' => some '\x0b'
  | 'f' => some '\x0c'
  | 'r' => some '\r'
  | 'e' => some '\x1b'
  | ' ' => some ' '
  | '"' => some '"'
  | '/' => some '/'
  | '\\' => some '\\'
  | 'N' => some '\u0085'
  | '_' => some '\u00a0'
  | 'L' => some '\u2028'
  | 'P' => some '\u2029'
  | _ => none

/-- The character whose code point is written by hexadecimal digits. -/
def ofHexDigits? (digits : List Char) : Option Char := do
  let point ← Decimal.readDigits? 16 digits
  if h : point.isValidChar then some (Char.ofNatAux point h) else none

/-- Reads on between double quotes. -/
def readDoubleQuoted? (reading : QuotedReading) : List Char → Option (String × Cursor)
  | [] => none
  | '"' :: rest => some (reading.finish '"' rest)
  | '\\' :: 'x' :: a :: b :: rest =>
    match ofHexDigits? [a, b] with
    | some c => readDoubleQuoted? (reading.push c ['\\', 'x', a, b]) rest
    | none => none
  | '\\' :: 'u' :: a :: b :: c :: d :: rest =>
    match ofHexDigits? [a, b, c, d] with
    | some char => readDoubleQuoted? (reading.push char ['\\', 'u', a, b, c, d]) rest
    | none => none
  | '\\' :: 'U' :: a :: b :: c :: d :: e :: f :: g :: h :: rest =>
    match ofHexDigits? [a, b, c, d, e, f, g, h] with
    | some char =>
      readDoubleQuoted? (reading.push char ['\\', 'U', a, b, c, d, e, f, g, h]) rest
    | none => none
  | '\\' :: mark :: rest =>
    if isBreak mark then readDoubleQuoted? reading.joinLines rest
    else match ofEscape? mark with
      | some c => readDoubleQuoted? (reading.push c ['\\', mark]) rest
      | none => none
  | c :: rest =>
    if reading.atMarker (c :: rest) then none
    else if isGap c then readDoubleQuoted? (reading.pushBlank c) rest
    else if isBreak c then readDoubleQuoted? (reading.pushBreak c) rest
    else readDoubleQuoted? (reading.push c [c]) rest

/-- The scalar between quotes that starts here with its opening quote. -/
def Cursor.quotedScalar? (cursor : Cursor) : Option (String × Cursor) :=
  let reading : QuotedReading := ⟨[], .none, (cursor.skip 1).toPlace⟩
  match cursor.rest with
  | '\'' :: rest => readSingleQuoted? reading rest
  | '"' :: rest => readDoubleQuoted? reading rest
  | _ => none

end XmlWorkload.Yaml
