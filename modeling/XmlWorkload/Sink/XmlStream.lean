import XmlWorkload.CharacterData
import XmlWorkload.Name
import XmlWorkload.Output.Basic
import XmlWorkload.Sink.Basic

/-!
# Streamed documents

A sink that writes a document as text while it grows.  Only the innermost open element takes
children, attributes, text or its end.  The start tag of the newest element is held back until its
first content, so that attributes can still be set; an element that is closed without content is
written as a single tag.
-/

set_option autoImplicit false

namespace XmlWorkload

/-- The start tag of an element. -/
structure StartTag where
  name : String
  attrs : List (String × String)
  deriving DecidableEq, Repr

namespace StartTag

/-- An attribute as it is written, with a space before it. -/
def renderAttribute (entry : String × String) : String :=
  " " ++ entry.1 ++ "=\"" ++ CharacterData.escaped entry.2 ++ "\""

/-- What stands between the brackets of a start tag. -/
def render (tag : StartTag) : String :=
  tag.name ++ String.join (tag.attrs.map renderAttribute)

end StartTag

/-- An open element. -/
structure Frame where
  element : Nat
  name : String
  deriving DecidableEq, Repr

/-- A sink that writes a document to an output. -/
structure XmlStream (ω : Type) where
  output : ω
  frames : List Frame
  /-- The start tag that is held back. -/
  heldTag : Option StartTag
  nextElement : Nat

namespace XmlStream

variable {ω : Type}

/-- The same document on another output. -/
def withOutput {ω' : Type} (output : ω') (stream : XmlStream ω) : XmlStream ω' :=
  ⟨output, stream.frames, stream.heldTag, stream.nextElement⟩

/-- The innermost open element, which has to be the given one. -/
def innermostFrame (action : SinkAction) (element : Nat) (stream : XmlStream ω) :
    Except Error Frame :=
  match stream.frames with
  | [] => .error (.outOfOrder (.afterEnd action element))
  | frame :: _ =>
    if frame.element = element then .ok frame
    else .error (.outOfOrder (.notInnermost action element frame.name))

variable [Output ω]

/-- Writes pieces of text to the output. -/
def emit (pieces : List String) : Action (XmlStream ω) Unit := fun stream =>
  let (result, output) := Output.writePieces pieces stream.output
  (result.mapError .io, { stream with output })

/-- The pieces of a start tag. -/
def startPieces (tag : StartTag) : List String := ["<", tag.render, ">"]

/-- The pieces of a tag of an element without content. -/
def emptyPieces (tag : StartTag) : List String := ["<", tag.render, "/>"]

/-- The pieces of an end tag. -/
def endPieces (name : String) : List String := ["</", name, ">"]

/-- What a declaration says. -/
def declaration : String := "xml version=\"1.0\" encoding=\"UTF-8\""

/-- The pieces of a declaration. -/
def declarationPieces : List String := ["<?", declaration, "?>"]

/-- Writes the start tag that is held back, if there is one.  It is held back no longer, even if the
output refuses it. -/
def writeHeldTag : Action (XmlStream ω) Unit := fun stream =>
  match stream.heldTag with
  | none => (.ok (), stream)
  | some tag => emit (startPieces tag) { stream with heldTag := none }

/-- A stream before its declaration. -/
def start (output : ω) (root : String) : XmlStream ω :=
  ⟨output, [⟨0, root⟩], some ⟨root, []⟩, 1⟩

/-- A document with a root of the given name on an output, and with a declaration in front of it if
it is asked for. -/
def create (output : ω) (root : String) (declared : Bool) : Except Error (XmlStream ω) × ω :=
  match Name.validate root with
  | .error error => (.error error, output)
  | .ok () =>
    if declared then
      match emit declarationPieces (start output root) with
      | (.ok (), stream) => (.ok stream, stream.output)
      | (.error error, stream) => (.error error, stream.output)
    else (.ok (start output root), output)

/-- Opens a child of an element. -/
def startElement (parent : Nat) (name : String) : Action (XmlStream ω) Nat := do
  let stream ← Action.getState
  let _ ← Action.ofExcept (stream.innermostFrame .startChild parent)
  Action.ofExcept (Name.validate name)
  writeHeldTag
  let element := stream.nextElement
  Action.change fun stream =>
    { stream with
      frames := ⟨element, name⟩ :: stream.frames
      heldTag := some ⟨name, []⟩
      nextElement := element + 1 }
  pure element

/-- Sets an attribute of an element. -/
def setAttribute (element : Nat) (name value : String) : Action (XmlStream ω) Unit := do
  let stream ← Action.getState
  let frame ← Action.ofExcept (stream.innermostFrame .setAttribute element)
  Action.ofExcept (Name.validate name)
  Action.ofExcept (CharacterData.check (frame.name ++ "@" ++ name) value)
  match stream.heldTag with
  | some tag =>
    Action.change fun stream =>
      { stream with heldTag := some { tag with attrs := tag.attrs ++ [(name, value)] } }
  | none => Action.fail (.outOfOrder (.attributeAfterContent name frame.name))

/-- Adds text to an element. -/
def writeText (element : Nat) (text : String) : Action (XmlStream ω) Unit := do
  let stream ← Action.getState
  let frame ← Action.ofExcept (stream.innermostFrame .writeText element)
  if text = "" then pure ()
  else
    Action.ofExcept (CharacterData.check frame.name text)
    writeHeldTag
    emit [CharacterData.escaped text]

/-- Closes an element. -/
def endElement (element : Nat) : Action (XmlStream ω) Unit := do
  let stream ← Action.getState
  let frame ← Action.ofExcept (stream.innermostFrame .endElement element)
  Action.change fun stream => { stream with frames := stream.frames.drop 1, heldTag := none }
  match stream.heldTag with
  | some tag => emit (emptyPieces tag)
  | none => emit (endPieces frame.name)

/-- Flushes the output.  All elements have to be closed. -/
def finish : Action (XmlStream ω) Unit := fun stream =>
  match stream.frames with
  | frame :: _ => (.error (.outOfOrder (.stillOpen frame.name)), stream)
  | [] =>
    let (result, output) := Output.flush stream.output
    (result.mapError .io, { stream with output })

instance : Sink (XmlStream ω) :=
  ⟨fun _ => 0, startElement, setAttribute, writeText, endElement, finish⟩

end XmlStream

end XmlWorkload
