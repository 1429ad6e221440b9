import XmlWorkload.Action

/-!
# Sinks

A sink takes the elements of one document.  Each element is known by a number; the root is open from
the start.
-/

set_option autoImplicit false

namespace XmlWorkload

/-- A place that the elements of a document are written to. -/
class Sink (σ : Type) where
  root : σ → Nat
  /-- Opens a child of an element and gives its number. -/
  startElement : (parent : Nat) → (name : String) → Action σ Nat
  /-- Sets an attribute of an element that has no content yet. -/
  setAttribute : (element : Nat) → (name value : String) → Action σ Unit
  writeText : (element : Nat) → (text : String) → Action σ Unit
  endElement : (element : Nat) → Action σ Unit
  /-- Makes sure that nothing written is held back.  All elements have to be closed. -/
  finish : Action σ Unit

end XmlWorkload
