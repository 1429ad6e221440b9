import XmlWorkload.Sink.Basic

/-!
# Recorded documents

A sink that takes every call and remembers it.  It keeps no order among the calls, so that several
elements may be open side by side.
-/

set_option autoImplicit false

namespace XmlWorkload

/-- A call that a recorder took. -/
inductive SinkCall where
  | start (parent element : Nat) (name : String)
  | attr (element : Nat) (name value : String)
  | text (element : Nat) (text : String)
  | ended (element : Nat) (name : String)
  | finish
  deriving DecidableEq, Repr

/-- A sink that remembers the calls it takes. -/
structure Recorder where
  /-- The names of the elements, by number, the newest first. -/
  names : List (Nat × String)
  calls : List SinkCall
  nextElement : Nat
  deriving DecidableEq, Repr

namespace Recorder

/-- A recorder for a document with a root of the given name. -/
def new (root : String) : Recorder := ⟨[(0, root)], [], 1⟩

/-- The name of an element; the empty text if there is no such element. -/
def nameOf (recorder : Recorder) (element : Nat) : String :=
  ((recorder.names.find? fun entry => entry.1 == element).map Prod.snd).getD ""

/-- The recorder after one more call. -/
def record (call : SinkCall) (recorder : Recorder) : Recorder :=
  { recorder with calls := recorder.calls ++ [call] }

/-- The recorder with no calls remembered. -/
def clear (recorder : Recorder) : Recorder := { recorder with calls := [] }

/-- The names of the elements that were opened, in order. -/
def opened (recorder : Recorder) : List String :=
  recorder.calls.filterMap fun
    | .start _ _ name => some name
    | _ => none

/-- The names of the elements that were closed, in order. -/
def closed (recorder : Recorder) : List String :=
  recorder.calls.filterMap fun
    | .ended _ name => some name
    | _ => none

/-- Opens a child of an element. -/
def startElement (parent : Nat) (name : String) : Action Recorder Nat := fun recorder =>
  let element := recorder.nextElement
  let named : Recorder :=
    { recorder with names := (element, name) :: recorder.names, nextElement := element + 1 }
  (.ok element, named.record (.start parent element name))

/-- Sets an attribute of an element. -/
def setAttribute (element : Nat) (name value : String) : Action Recorder Unit :=
  .change (record (.attr element name value))

/-- Adds text to an element; an empty text is not remembered. -/
def writeText (element : Nat) (text : String) : Action Recorder Unit :=
  if text = "" then pure () else .change (record (.text element text))

/-- Closes an element. -/
def endElement (element : Nat) : Action Recorder Unit :=
  .change fun recorder => recorder.record (.ended element (recorder.nameOf element))

/-- Finishes the document. -/
def finish : Action Recorder Unit := .change (record .finish)

instance : Sink Recorder := ⟨fun _ => 0, startElement, setAttribute, writeText, endElement, finish⟩

end Recorder

end XmlWorkload
