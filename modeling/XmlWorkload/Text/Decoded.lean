/-!
# Decoded bytes

The text of bytes that were cut off at any place.  What is left of a character at the end shows as
the replacement character.
-/

set_option autoImplicit false

namespace XmlWorkload.Text

/-- The character that stands for what cannot be decoded. -/
def replacement : String := "\ufffd"

/-- The text of encoded bytes, the last character of which may be incomplete. -/
def decoded (bytes : ByteArray) : String :=
  match String.fromUTF8? bytes with
  | some text => text
  | none =>
    let complete := [1, 2, 3].findSome? fun count =>
      String.fromUTF8? (bytes.extract 0 (bytes.size - count))
    complete.getD "" ++ replacement

end XmlWorkload.Text
