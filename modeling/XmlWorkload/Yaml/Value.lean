import XmlWorkload.Content.Basic
import XmlWorkload.Decimal.Notation
import XmlWorkload.Yaml.Scalar
import XmlWorkload.Yaml.Token.Lexer

/-!
# Values of a document

What the nodes of a document stand for, and the content descriptions they give.  A mapping cannot
have two keys that are equal as values; keys that differ may still give the same name, and then the
first one keeps its place and takes the later value.
-/

set_option autoImplicit false

namespace XmlWorkload.Yaml

/-- A value. -/
inductive Value where
  | scalar (value : ScalarValue)
  | sequence (items : List Value)
  | mapping (members : List (Value × Value))
  /-- A value with a tag of the document. -/
  | tagged (tag : String) (value : Value)

namespace ScalarValue

/-- Whether two scalars stand for the same.  Numbers that are no numbers do. -/
def same : ScalarValue → ScalarValue → Bool
  | .null, .null => true
  | .bool a, .bool b => a == b
  | .int a, .int b => a == b
  | .float a, .float b => a == b || (a.isNaN && b.isNaN)
  | .text a, .text b => a == b
  | _, _ => false

/-- Floating-point numbers leave the sign of a positive exponent out. -/
def floatFormat : Decimal.NumberFormat := ⟨false⟩

/-- The text of a scalar. -/
def render : ScalarValue → String
  | .null => ""
  | .bool true => "true"
  | .bool false => "false"
  | .int value => toString value
  | .float value =>
    if value.isNaN then ".nan"
    else if value.isInf then (if value < 0.0 then "-.inf" else ".inf")
    else floatFormat.render value
  | .text chars => chars

end ScalarValue

namespace Value

mutual

/-- Whether two values are equal.  The order of members does not count. -/
def same : Value → Value → Bool
  | .scalar a, .scalar b => a.same b
  | .sequence a, .sequence b => sameItems a b
  | .mapping a, .mapping b => a.length == b.length && sameMembers a b
  | .tagged s a, .tagged t b => s == t && same a b
  | _, _ => false

/-- Whether values in a row are equal. -/
def sameItems : List Value → List Value → Bool
  | [], [] => true
  | a :: as, b :: bs => same a b && sameItems as bs
  | _, _ => false

/-- Whether every member is among the others. -/
def sameMembers : List (Value × Value) → List (Value × Value) → Bool
  | [], _ => true
  | (key, value) :: rest, others =>
    (others.any fun other => same key other.1 && same value other.2) && sameMembers rest others

end

/-- A value with the tag of its node, if that is a tag of the document with a name. -/
def withTag (tag : Option Tag) (value : Value) : Value :=
  match tag.bind Tag.localName? with
  | some name => .tagged name value
  | none => value

mutual

/-- The value of a node. -/
def ofNode? : Node → Option Value
  | .scalar tag text style => (scalarValue? tag text style).map fun value =>
    withTag tag (.scalar value)
  | .sequence tag items => (ofItems? items).map fun values => withTag tag (.sequence values)
  | .mapping tag members => (ofMembers? [] members).map fun values =>
    withTag tag (.mapping values)

/-- The values of nodes in a row. -/
def ofItems? : List Node → Option (List Value)
  | [] => some []
  | item :: rest => do
    let value ← ofNode? item
    let values ← ofItems? rest
    some (value :: values)

/-- The members of a mapping, behind those read already.  The keys must be different. -/
def ofMembers? (sofar : List (Value × Value)) :
    List (Node × Node) → Option (List (Value × Value))
  | [] => some sofar.reverse
  | (key, value) :: rest => do
    let key ← ofNode? key
    if sofar.any fun member => same key member.1 then none
    else
      let value ← ofNode? value
      ofMembers? ((key, value) :: sofar) rest

end

mutual

/-- The content description that a value gives. -/
def toContent : Value → Content
  | .scalar value => .scalar value.render
  | .sequence items => .sequence (itemsToContent items)
  | .mapping members => .map (.ofList (membersToContent members))
  | .tagged _ value => toContent value

/-- The content descriptions that values in a row give. -/
def itemsToContent : List Value → List Content
  | [] => []
  | item :: rest => toContent item :: itemsToContent rest

/-- The entries that the members of a mapping give.  A key that is no scalar gives its text in the
form of messages. -/
def membersToContent : List (Value × Value) → List (String × Content)
  | [] => []
  | (key, value) :: rest =>
    let name := match toContent key with
      | .scalar text => text
      | other => other.render
    (name, toContent value) :: membersToContent rest

end

/-- The content map that the members of a mapping give. -/
def contentMapOf (members : List (Value × Value)) : ContentMap :=
  .ofList (membersToContent members)

end Value

namespace Node

/-- The node of the one document in a text; no node if the document is empty. -/
def ofText? (text : String) : Option (Option Node) := do
  let tokens ← Token.ofText? text
  let stream ← Event.ofTokens? tokens
  ofEvents? stream

/-- Whether a node is an empty scalar without quotes. -/
def isBlank (node : Node) : Bool :=
  match node with
  | .scalar _ "" .plain => true
  | _ => false

/-- The content map that a node gives, which has to be a mapping; its tag does not count. -/
def toContentMap? (node : Node) : Option ContentMap :=
  match node with
  | .mapping _ members => (Value.ofMembers? [] members).map Value.contentMapOf
  | _ => none

end Node

/-- The content map that a document gives; an empty document gives the empty map. -/
def readContentMap? (text : String) : Option ContentMap := do
  match ← Node.ofText? text with
  | none => some .empty
  | some node => if node.isBlank then some .empty else node.toContentMap?

end XmlWorkload.Yaml
