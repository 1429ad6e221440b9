import XmlWorkload.Decimal.Unsigned
import XmlWorkload.Yaml.Source
import XmlWorkload.Yaml.Tag
import XmlWorkload.Yaml.Token.Basic

/-!
# Names, tags and directives

The tokens that stand in front of a node or of a document: names of nodes and references to them,
tags, and the directives that give the version and the handles of tags.
-/

set_option autoImplicit false

namespace XmlWorkload.Yaml

namespace Cursor

/-- The characters here that satisfy `p`, and the place behind them. -/
def take (cursor : Cursor) (p : Char → Bool) : List Char × Cursor :=
  (cursor.rest.takeWhile p, cursor.skipWhile p)

/-- The word here, which must not be empty, and the place behind it. -/
def word? (cursor : Cursor) : Option (String × Cursor) :=
  match cursor.take isWordChar with
  | ([], _) => none
  | (chars, behind) => some (String.ofList chars, behind)

/-- Whether a name can end here. -/
def endsName (cursor : Cursor) : Bool :=
  match cursor.rest with
  | [] => true
  | c :: _ => isSeparator c || "?:,]\x7d%@`".toList.contains c

/-- The name of a node behind its mark, and the place behind the name. -/
def nodeName? (cursor : Cursor) : Option (String × Cursor) := do
  let (name, behind) ← (cursor.skip 1).word?
  if behind.endsName then some (name, behind) else none

end Cursor

/-- Whether a tag can hold a character as it is; one that is written out in full or stands in a
directive can also hold commas and brackets. -/
def isTagChar (isFull : Bool) (c : Char) : Bool :=
  isWordChar c || ";/?:@&=+$.!~*'()".toList.contains c ||
    (isFull && (c == ',' || c == '[' || c == ']'))

/-- The octet that two hexadecimal digits write. -/
def readOctet? (a b : Char) : Option UInt8 := (Decimal.readDigits? 16 [a, b]).map Nat.toUInt8

/-- The number of octets that follow a first octet of an encoded character. -/
def followers? (octet : UInt8) : Option Nat :=
  if octet < 0x80 then some 0
  else if 0xC0 ≤ octet ∧ octet < 0xE0 then some 1
  else if 0xE0 ≤ octet ∧ octet < 0xF0 then some 2
  else if 0xF0 ≤ octet ∧ octet < 0xF8 then some 3
  else none

/-- The octets behind the first octet of an encoded character, each behind a percent sign, and what
follows them. -/
def readFollowers? : Nat → List Char → Option (List UInt8 × List Char)
  | 0, rest => some ([], rest)
  | count + 1, '%' :: a :: b :: rest => do
    let octet ← readOctet? a b
    if 0x80 ≤ octet ∧ octet < 0xC0 then
      let (octets, rest) ← readFollowers? count rest
      some (octet :: octets, rest)
    else none
  | _, _ => none

/-- The octets, each behind a percent sign, that the first of them asks for, and what follows them.
Whether they encode a character does not matter. -/
def readEncoded? : List Char → Option (List UInt8 × List Char)
  | '%' :: a :: b :: rest => do
    let first ← readOctet? a b
    let count ← followers? first
    let (octets, behind) ← readFollowers? count rest
    some (first :: octets, behind)
  | _ => none

/-- The octets of a tag from here on, and the number of characters that write them.  Each round
reads one character or more, so as many rounds as there are characters suffice. -/
def readTagOctets? (isFull : Bool) : (rounds : Nat) → List Char → Option (List UInt8 × Nat)
  | 0, _ => some ([], 0)
  | rounds + 1, text =>
    match text with
    | [] => some ([], 0)
    | c :: rest =>
      if c = '%' then do
        let (encoded, behind) ← readEncoded? text
        let (octets, length) ← readTagOctets? isFull rounds behind
        some (encoded ++ octets, text.length - behind.length + length)
      else if isTagChar isFull c then do
        let (octets, length) ← readTagOctets? isFull rounds rest
        some (c.toUInt8 :: octets, length + 1)
      else some ([], 0)

namespace Cursor

/-- The octets of a tag here, up to the first octet zero, and the place behind all of them. -/
def tagOctets? (cursor : Cursor) (isFull : Bool) : Option (List UInt8 × Cursor) := do
  let (octets, length) ← readTagOctets? isFull cursor.rest.length cursor.rest
  some (octets.takeWhile fun octet => octet != 0, cursor.skip length)

/-- The octets of a tag here, of which at least one has to be written, and the place behind them. -/
def someTagOctets? (cursor : Cursor) (isFull : Bool) : Option (List UInt8 × Cursor) := do
  let (octets, behind) ← cursor.tagOctets? isFull
  if behind.column = cursor.column then none else some (octets, behind)

/-- The handle at the start of a tag: an exclamation mark, a word, and a second mark if there is
one. -/
def tagHandle? (cursor : Cursor) : Option (List Char × Cursor) :=
  match cursor.rest with
  | '!' :: _ =>
    let (word, behind) := (cursor.skip 1).take isWordChar
    match behind.rest with
    | '!' :: _ => some ('!' :: word ++ ['!'], behind.skip 1)
    | _ => some ('!' :: word, behind)
  | _ => none

/-- Whether a handle is closed by a second exclamation mark. -/
def isClosedHandle (handle : List Char) : Bool :=
  1 < handle.length && handle.getLast? == some '!'

/-- The handle and the suffix of the tag here, and the place behind it. -/
def tagParts? (cursor : Cursor) : Option ((List Char × List UInt8) × Cursor) :=
  match cursor.rest with
  | '!' :: '<' :: _ => do
    let (suffix, behind) ← (cursor.skip 2).someTagOctets? true
    if behind.rest.head? = some '>' then some (([], suffix), behind.skip 1) else none
  | _ => do
    let (handle, behind) ← cursor.tagHandle?
    if isClosedHandle handle then
      let (suffix, behind) ← behind.someTagOctets? false
      some ((handle, suffix), behind)
    else
      let (octets, behind) ← behind.tagOctets? false
      let suffix := octetsOf (String.ofList (handle.drop 1)) ++ octets
      some (if suffix = [] then (([], octetsOf "!"), behind) else ((['!'], suffix), behind))

/-- The tag here, and the place behind it. -/
def tagToken? (cursor : Cursor) (inFlow : Bool) : Option (Token × Cursor) := do
  let ((handle, suffix), behind) ← cursor.tagParts?
  if atSeparator behind.rest || (inFlow && behind.rest.head? == some ',') then
    some (.tag (String.ofList handle) suffix, behind)
  else none

/-- The number of a version here, of at most nine digits, and the place behind it. -/
def versionNumber? (cursor : Cursor) : Option (Nat × Cursor) := do
  let (digits, behind) := cursor.take Char.isDigit
  let number ← Decimal.readDigits? 10 digits
  if digits.length ≤ 9 then some (number, behind) else none

/-- The version of a directive, and the place behind it. -/
def versionToken? (cursor : Cursor) : Option (Token × Cursor) := do
  let (major, behind) ← cursor.skipGaps.versionNumber?
  let '.' :: _ := behind.rest | none
  let (minor, behind) ← (behind.skip 1).versionNumber?
  some (.version major minor, behind)

/-- The handle of a directive with the octets that it stands for, and the place behind them. -/
def tagHandleToken? (cursor : Cursor) : Option (Token × Cursor) := do
  let (handle, behind) ← cursor.skipGaps.tagHandle?
  if (handle = ['!'] ∨ isClosedHandle handle = true) ∧
      (behind.rest.head?.map isGap).getD false = true then
    let (expansion, behind) ← behind.skipGaps.someTagOctets? true
    if atSeparator behind.rest then some (.tagHandle (String.ofList handle) expansion, behind)
    else none
  else none

/-- The directive here, and the start of the next line. -/
def directive? (cursor : Cursor) : Option (Token × Cursor) := do
  let (name, behind) ← (cursor.skip 1).word?
  if !atSeparator behind.rest then none
  else
    let (token, behind) ← if name = "YAML" then behind.versionToken?
      else if name = "TAG" then behind.tagHandleToken?
      else none
    let lineEnd := behind.skipGaps.skipComment
    if atLineEnd lineEnd.rest then some (token, lineEnd.skipBreak) else none

end Cursor

end XmlWorkload.Yaml
