import XmlWorkload.Text.Extending
import XmlWorkload.Text.Printable

/-!
# Quoted text

The form in which texts and paths stand inside messages: between double quotes, with the line and
tab characters, the quote and the backslash written by a backslash and a letter, and every character
that does not show by its code point in braces.
-/

set_option autoImplicit false

namespace XmlWorkload.Text

/-- The code point of a character in braces, behind a backslash and a `u`. -/
def escapedCodePoint (c : Char) : List Char :=
  ['\\', 'u', '\x7b'] ++ Nat.toDigits 16 c.toNat ++ ['\x7d']

/-- How one character is written between quotes. -/
def quotedChar (c : Char) : List Char :=
  if c = '\x00' then ['\\', '0']
  else if c = '\t' then ['\\', 't']
  else if c = '\r' then ['\\', 'r']
  else if c = '\n' then ['\\', 'n']
  else if c = '"' ∨ c = '\\' then ['\\', c]
  else if isExtending c then escapedCodePoint c
  else if isPrintable c then [c]
  else escapedCodePoint c

/-- A text between double quotes. -/
def quoted (text : String) : String :=
  String.ofList (['"'] ++ text.toList.flatMap quotedChar ++ ['"'])

/-- Texts between square brackets, each quoted and parted by a comma. -/
def quotedList (texts : List String) : String :=
  "[" ++ String.intercalate ", " (texts.map quoted) ++ "]"

end XmlWorkload.Text
