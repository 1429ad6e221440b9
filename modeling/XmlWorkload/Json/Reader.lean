import XmlWorkload.Json.Token

/-!
# Reading values of the exchange notation

The lexemes of a text are taken one after the other.  What has been opened and not yet closed
stands on a stack, and what may come next is known at every moment.  A name that comes again keeps
its place and takes the later value.
-/

set_option autoImplicit false

namespace XmlWorkload.Json

/-- A container that is still open. -/
inductive Frame where
  | array (items : List Json)
  /-- Named values, and the name of the value that is being read. -/
  | object (members : OrderedMap Json) (name : String)

/-- What may come next. -/
inductive Expected where
  | value
  /-- A value, or the end of the row that was just opened. -/
  | firstItem
  /-- A name, or the end of the object that was just opened. -/
  | firstName
  | name (members : OrderedMap Json)
  | colon (members : OrderedMap Json) (name : String)
  /-- A comma or the end of the innermost container. -/
  | next
  | done (value : Json)

/-- How far the reading has come. -/
structure Reading where
  frames : List Frame
  expected : Expected

/-- The reading after a complete value. -/
def deliver (value : Json) : List Frame → Reading
  | [] => ⟨[], .done value⟩
  | .array items :: frames => ⟨.array (value :: items) :: frames, .next⟩
  | .object members name :: frames => ⟨.object (members.insert name value) name :: frames, .next⟩

/-- The reading after the first lexeme of a value, in containers nested at most `depth` deep. -/
def startValue? (depth : Nat) (frames : List Frame) : Token → Option Reading
  | .openArray => if frames.length < depth then some ⟨.array [] :: frames, .firstItem⟩ else none
  | .openObject =>
    if frames.length < depth then some ⟨.object .empty "" :: frames, .firstName⟩ else none
  | .leaf value => some (deliver value frames)
  | _ => none

/-- The reading after one more lexeme. -/
def Reading.step? (depth : Nat) (reading : Reading) (token : Token) : Option Reading :=
  match reading.expected, reading.frames, token with
  | .firstItem, .array _ :: frames, .closeArray => some (deliver (.array []) frames)
  | .firstItem, frames, token => startValue? depth frames token
  | .value, frames, token => startValue? depth frames token
  | .firstName, _ :: frames, .closeObject => some (deliver (.object .empty) frames)
  | .firstName, _ :: frames, .leaf (.string name) => some ⟨frames, .colon .empty name⟩
  | .name members, frames, .leaf (.string name) => some ⟨frames, .colon members name⟩
  | .colon members name, frames, .colon => some ⟨.object members name :: frames, .value⟩
  | .next, .array items :: frames, .comma => some ⟨.array items :: frames, .value⟩
  | .next, .array items :: frames, .closeArray => some (deliver (.array items.reverse) frames)
  | .next, .object members _ :: frames, .comma => some ⟨frames, .name members⟩
  | .next, .object members _ :: frames, .closeObject => some (deliver (.object members) frames)
  | _, _, _ => none

/-- The reading after all the lexemes. -/
def Reading.run? (depth : Nat) (reading : Reading) : List Token → Option Reading
  | [] => some reading
  | token :: rest => do
    let reading ← reading.step? depth token
    reading.run? depth rest

/-- The value that a text writes, with containers nested at most `depth` deep. -/
def parse? (depth : Nat) (text : String) : Option Json := do
  let tokens ← tokens? text.toList
  let reading ← Reading.run? depth ⟨[], .value⟩ tokens
  match reading.expected with
  | .done value => some value
  | _ => none

/-- The containers of a content description are nested at most this deep. -/
def contentDepth : Nat := 127

/-- The content description that a text writes. -/
def readContent? (text : String) : Option Content := (parse? contentDepth text).map toContent

end XmlWorkload.Json
