import XmlWorkload.Document.OpenTree
import XmlWorkload.Template.Element

/-!
# Documents

A document takes templates at paths.  The elements of the last path stay open, so that the next one
goes on below the elements it shares with it; only its last element is always a new one.  A template
that does not resolve is refused before anything is written.  An error while writing leaves the
document unusable.
-/

set_option autoImplicit false

namespace XmlWorkload

/-- What a document can still be used for. -/
inductive Status where
  | live
  | failed (reason : Error)
  | closed

/-- A document that is written to a sink. -/
structure Document (σ : Type) where
  label : String
  sink : σ
  tree : OpenTree
  /-- The path of the last element that was written. -/
  cursor : List String
  /-- What the document can still be used for. -/
  status : Status
  /-- The number of templates that were written. -/
  emitted : Nat

namespace Document

variable {σ : Type} [Sink σ]

/-- A document on a sink in which nothing but the root is open. -/
def new (label : String) (sink : σ) : Document σ :=
  ⟨label, sink, .new (Sink.root sink), [], .live, 0⟩

/-- An action on the sink of a document. -/
def onSink {α : Type} (action : Action σ α) : Action (Document σ) α :=
  action.on Document.sink fun sink document => { document with sink }

/-- An action on the open elements of a document and its sink. -/
def onTree {α : Type} (action : Action (OpenTree × σ) α) : Action (Document σ) α :=
  action.on (fun document => (document.tree, document.sink)) fun changed document =>
    { document with tree := changed.1, sink := changed.2 }

/-- Sets attributes of an element, in order. -/
def writeAttributes (element : Nat) : List (String × String) → Action σ Unit
  | [] => pure ()
  | (name, value) :: rest => do
    Sink.setAttribute element name value
    writeAttributes element rest

mutual

/-- Writes an element below another one: its attributes, its children and its text. -/
def writeElement (parent : Nat) : Element → Action σ Unit
  | .mk name attrs children body => do
    let element ← Sink.startElement parent name
    writeAttributes element attrs
    writeElements element children
    Sink.writeText element body
    Sink.endElement element

/-- Writes elements below another one, in order. -/
def writeElements (parent : Nat) : List Element → Action σ Unit
  | [] => pure ()
  | element :: rest => do
    writeElement parent element
    writeElements parent rest

end

/-- Moves to a new element at a path, and gives its number. -/
def moveTo (path : List String) : Action (Document σ) Nat := do
  let document ← Action.getState
  let kept := OpenTree.divergence document.cursor path
  if kept < document.cursor.length then
    onTree (OpenTree.closePath (document.cursor.take (kept + 1)))
  Action.change fun document => { document with cursor := document.cursor.take kept }
  let leaf ← onTree (OpenTree.openPath path)
  Action.change fun document => { document with cursor := path }
  pure leaf

/-- Writes what a template says onto a new element at a path, which is left open. -/
def write (path : List String) (template : Template) (children : List Element) :
    Action (Document σ) Unit := do
  let leaf ← moveTo path
  onSink (writeAttributes leaf template.attrs.entries)
  onSink (writeElements leaf children)
  onSink (Sink.writeText leaf template.body)

/-- Refuses a document that takes no templates any more. -/
def requireLive : Action (Document σ) Unit := fun document =>
  match document.status with
  | .live => (.ok (), document)
  | .failed reason => (.error (.documentUnusable reason), document)
  | .closed => (.error .documentClosed, document)

/-- Writes a template onto a new element at a path.  A fault of the path or the template leaves the
document as it is; a failure while writing leaves it unusable. -/
def emit (path : List String) (template : Template) : Action (Document σ) Unit := do
  if path = [] then Action.fail .emptyPath
  else
    let children ← Action.ofExcept template.resolve
    requireLive
    match ← (write path template children).attempt with
    | .ok () => Action.change fun document => { document with emitted := document.emitted + 1 }
    | .error error =>
      Action.change fun document => { document with status := .failed error }
      Action.fail error

/-- Closes every open element, the root last, and flushes the sink. -/
def complete : Action (Document σ) Unit := do
  onTree (OpenTree.closePath [])
  onSink Sink.finish

/-- Closes the document.  A document that is closed stays so, and one that is unusable cannot be
closed. -/
def close : Action (Document σ) Unit := do
  let document ← Action.getState
  match document.status with
  | .closed => pure ()
  | .failed reason => Action.fail (.documentUnusable reason)
  | .live =>
    match ← complete.attempt with
    | .ok () => Action.change fun document => { document with cursor := [], status := .closed }
    | .error error =>
      Action.change fun document => { document with cursor := [], status := .failed error }
      Action.fail error

end Document

end XmlWorkload
