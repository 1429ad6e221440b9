/-!
# Tags

A tag names the kind of a node.  It is a string of octets, since a document can write any octet in
one, and so it need not be the encoding of a text.  A tag of the document is shown by a mark in
front of it; all others have one meaning in all documents.
-/

set_option autoImplicit false

namespace XmlWorkload.Yaml

/-- The octets of a text. -/
def octetsOf (text : String) : List UInt8 := text.toUTF8.data.toList

/-- A tag. -/
structure Tag where
  octets : List UInt8
  deriving DecidableEq, Repr

namespace Tag

/-- The tag that a text gives. -/
def ofText (text : String) : Tag := ⟨octetsOf text⟩

/-- The text of a tag, if its octets encode one. -/
def text? (tag : Tag) : Option String := String.fromUTF8? ⟨tag.octets.toArray⟩

/-- What the tags that the format defines start with. -/
def coreStart : String := "tag:yaml.org,2002:"

/-- The tag that the format defines under a name. -/
def core (name : String) : Tag := ofText (coreStart ++ name)

/-- Whether a tag is one of the document. -/
def isLocal (tag : Tag) : Bool := tag.octets.head? == some '!'.toUInt8

/-- A text without the mark in front of it, unless it is nothing else. -/
def unmarked (text : String) : String :=
  match text.toList with
  | '!' :: c :: rest => String.ofList (c :: rest)
  | _ => text

/-- The name of a tag of the document.  A second mark does not count, and octets that encode no text
are no name. -/
def localName? (tag : Tag) : Option String :=
  if tag.isLocal then tag.text?.map fun text => unmarked (unmarked text) else none

end Tag

end XmlWorkload.Yaml
