import XmlWorkload.Sink.Basic

/-!
# Open elements by path

The open elements of one document as a tree of names below the root.  Opening a path opens what is
missing of it; closing a path closes everything below it first.
-/

set_option autoImplicit false

namespace XmlWorkload

/-- An open element with the open elements below it. -/
inductive OpenElement where
  /-- The element with a number, and its open children by name, the names ascending. -/
  | mk (element : Nat) (children : List (String × OpenElement))
  deriving Inhabited

namespace OpenElement

/-- The number of the element. -/
def element : OpenElement → Nat
  | .mk element _ => element

/-- The open children, by name. -/
def children : OpenElement → List (String × OpenElement)
  | .mk _ children => children

/-- The open child of a name. -/
def child? (node : OpenElement) (name : String) : Option OpenElement :=
  (node.children.find? fun entry => entry.1 == name).map Prod.snd

/-- Children with one of them set, the names ascending. -/
def putChild (name : String) (child : OpenElement) :
    List (String × OpenElement) → List (String × OpenElement)
  | [] => [(name, child)]
  | entry :: rest =>
    if name = entry.1 then (name, child) :: rest
    else if name < entry.1 then (name, child) :: entry :: rest
    else entry :: putChild name child rest

/-- The element with one of its children set. -/
def setChild (node : OpenElement) (name : String) (child : OpenElement) : OpenElement :=
  .mk node.element (putChild name child node.children)

/-- The element without its child of a name. -/
def eraseChild (node : OpenElement) (name : String) : OpenElement :=
  .mk node.element (node.children.filter fun entry => entry.1 != name)

mutual

/-- The number of open elements here and below. -/
def count : OpenElement → Nat
  | .mk _ children => 1 + countChildren children

/-- The number of open elements in and below some children. -/
def countChildren : List (String × OpenElement) → Nat
  | [] => 0
  | (_, child) :: rest => count child + countChildren rest

end

/-- Whether the element at a path below is open. -/
def isOpen : List String → OpenElement → Bool
  | [], _ => true
  | name :: path, node =>
    match node.child? name with
    | some child => isOpen path child
    | none => false

variable {σ : Type} [Sink σ]

/-- The number of the element at a path below, after everything missing on the way was opened.  What
was opened before a failure stays open. -/
def openBelow : List String → OpenElement → σ → Except Error Nat × OpenElement × σ
  | [], node, sink => (.ok node.element, node, sink)
  | name :: path, node, sink =>
    match node.child? name with
    | some child =>
      let (result, child, sink) := openBelow path child sink
      (result, node.setChild name child, sink)
    | none =>
      match Sink.startElement node.element name sink with
      | (.error error, sink) => (.error error, node, sink)
      | (.ok element, sink) =>
        let (result, child, sink) := openBelow path (.mk element []) sink
        (result, node.setChild name child, sink)

mutual

/-- Closes an element and everything open below it, the lowest first and the names ascending. -/
def close : OpenElement → Action σ Unit
  | .mk element children => do
    closeChildren children
    Sink.endElement element

/-- Closes several children and everything open below them. -/
def closeChildren : List (String × OpenElement) → Action σ Unit
  | [] => pure ()
  | (_, child) :: rest => do
    close child
    closeChildren rest

end

/-- Closes the element at the path `last` below `path`, which is taken out of the tree first.  A
path that is not open is left alone. -/
def closeBelow (last : String) : List String → OpenElement → σ →
    Except Error Unit × OpenElement × σ
  | [], node, sink =>
    match node.child? last with
    | some child =>
      let (result, sink) := close child sink
      (result, node.eraseChild last, sink)
    | none => (.ok (), node, sink)
  | name :: path, node, sink =>
    match node.child? name with
    | some child =>
      let (result, child, sink) := closeBelow last path child sink
      (result, node.setChild name child, sink)
    | none => (.ok (), node, sink)

end OpenElement

/-- The open elements of a document. -/
structure OpenTree where
  /-- The root; none once it was closed. -/
  root : Option OpenElement
  deriving Inhabited

namespace OpenTree

/-- The tree of a document in which nothing but the root is open. -/
def new (root : Nat) : OpenTree := ⟨some (.mk root [])⟩

/-- The number of open elements. -/
def size (tree : OpenTree) : Nat :=
  match tree.root with
  | some root => root.count
  | none => 0

/-- Whether the root was closed. -/
def isClosed (tree : OpenTree) : Bool := tree.root.isNone

/-- Whether the element at a path is open. -/
def isOpen (tree : OpenTree) (path : List String) : Bool :=
  match tree.root with
  | some root => root.isOpen path
  | none => false

variable {σ : Type} [Sink σ]

/-- The number of the element at a path, after everything missing on the way was opened. -/
def openPath (path : List String) : Action (OpenTree × σ) Nat := fun (tree, sink) =>
  match tree.root with
  | none => (.error .documentClosed, tree, sink)
  | some root =>
    let (result, root, sink) := root.openBelow path sink
    (result, ⟨some root⟩, sink)

/-- Closes the element at a path and everything open below it.  The empty path closes the document.
A path that is not open is left alone. -/
def closePath (path : List String) : Action (OpenTree × σ) Unit := fun (tree, sink) =>
  match tree.root with
  | none => (.ok (), tree, sink)
  | some root =>
    match path.getLast? with
    | none =>
      let (result, sink) := root.close sink
      (result, ⟨none⟩, sink)
    | some last =>
      let (result, root, sink) := root.closeBelow last path.dropLast sink
      (result, ⟨some root⟩, sink)

/-- Closes the element at a path and opens a new one there. -/
def replacePath (path : List String) : Action (OpenTree × σ) Nat := do
  closePath path
  openPath path

/-- The number of leading elements of one path that stay open when the next one is requested: as
many as the two share, but never the last one of the requested path. -/
def divergence : (previous requested : List String) → Nat
  | a :: previous, b :: c :: requested =>
    if a = b then divergence previous (c :: requested) + 1 else 0
  | _, _ => 0

end OpenTree

end XmlWorkload
