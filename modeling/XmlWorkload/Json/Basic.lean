import XmlWorkload.Content.Basic
import XmlWorkload.Json.Number

/-!
# Values of the exchange notation

The values that the notation can write, their printer, and the content description that such a
value stands for.
-/

set_option autoImplicit false

namespace XmlWorkload

/-- A value of the exchange notation. -/
inductive Json where
  | null
  | bool (value : Bool)
  | number (value : Json.Number)
  | string (text : String)
  | array (items : List Json)
  /-- Values under names, in the order in which the names first came. -/
  | object (members : OrderedMap Json)

namespace Json

instance : Inhabited Json := ⟨.null⟩

/-- The value of a whole number. -/
def ofNat (value : Nat) : Json := .number (.natural value)

/-- The value that has the given members, in order. -/
def ofMembers (members : List (String × Json)) : Json := .object (.ofList members)

/-- The value under a name; absent values count as missing. -/
def field? (value : Json) (name : String) : Option Json :=
  match value with
  | .object members =>
    match members.find? name with
    | some .null => none
    | found => found
  | _ => none

/-- The text of a value that is one. -/
def text? : Json → Option String
  | .string text => some text
  | _ => none

/-- The items of a value that is a row. -/
def items? : Json → Option (List Json)
  | .array items => some items
  | _ => none

/-- Four hexadecimal digits of a code point below 65536. -/
def hexDigits (point : Nat) : List Char :=
  let digits := Nat.toDigits 16 point
  List.replicate (4 - digits.length) '0' ++ digits

/-- How one character is written inside a text. -/
def escapedChar (c : Char) : List Char :=
  if c = '"' ∨ c = '\\' then ['\\', c]
  else if c = '\n' then ['\\', 'n']
  else if c.toNat < 0x20 ∨ c.toNat = 0x85 ∨ c.toNat = 0x2028 ∨ c.toNat = 0x2029 then
    ['\\', 'u'] ++ hexDigits c.toNat
  else [c]

/-- A text between quotes. -/
def renderText (text : String) : String :=
  "\"" ++ String.ofList (text.toList.flatMap escapedChar) ++ "\""

mutual

/-- A value in the notation, without blanks. -/
def render : Json → String
  | .null => "null"
  | .bool true => "true"
  | .bool false => "false"
  | .number value => value.render
  | .string text => renderText text
  | .array items => "[" ++ String.intercalate "," (renderItems items) ++ "]"
  | .object ⟨entries⟩ => "\x7b" ++ String.intercalate "," (renderEntries entries) ++ "\x7d"

/-- Each of several values in the notation. -/
def renderItems : List Json → List String
  | [] => []
  | item :: rest => render item :: renderItems rest

/-- Each of several values in the notation, with its name before it. -/
def renderEntries {names : List String} : Entries Json names → List String
  | .nil => []
  | .cons name value _ rest => (renderText name ++ ":" ++ render value) :: renderEntries rest

end

mutual

/-- The content description that a value stands for: absent values are empty texts, truth values
and numbers the text of their notation. -/
def toContent : Json → Content
  | .null => .scalar ""
  | .bool true => .scalar "true"
  | .bool false => .scalar "false"
  | .number value => .scalar value.render
  | .string text => .scalar text
  | .array items => .sequence (itemsToContent items)
  | .object ⟨entries⟩ => .map ⟨entriesToContent entries⟩

/-- The content descriptions that several values stand for. -/
def itemsToContent : List Json → List Content
  | [] => []
  | item :: rest => toContent item :: itemsToContent rest

/-- The content descriptions that named values stand for. -/
def entriesToContent {names : List String} : Entries Json names → Entries Content names
  | .nil => .nil
  | .cons name value fresh rest => .cons name (toContent value) fresh (entriesToContent rest)

end

end Json

end XmlWorkload
