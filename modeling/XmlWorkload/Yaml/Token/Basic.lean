/-!
# Tokens of a document

What the characters of a document are cut into.  Nesting that the document shows by indentation
stands among the tokens as explicit starts and ends.
-/

set_option autoImplicit false

namespace XmlWorkload.Yaml

/-- How a scalar is written. -/
inductive ScalarStyle where
  | plain
  | singleQuoted
  | doubleQuoted
  /-- As a block that keeps its lines. -/
  | literal
  /-- As a block whose lines are joined. -/
  | folded
  deriving DecidableEq, Repr

/-- A token. -/
inductive Token where
  | version (major minor : Nat)
  /-- A handle for tags, with the octets that it stands for. -/
  | tagHandle (handle : String) (expansion : List UInt8)
  | documentStart
  | documentEnd
  /-- The start of a sequence shown by indentation. -/
  | blockSequenceStart
  /-- The start of a mapping shown by indentation. -/
  | blockMappingStart
  /-- The end of a collection shown by indentation. -/
  | blockEnd
  /-- The start of a sequence between brackets. -/
  | flowSequenceStart
  /-- The end of a sequence between brackets. -/
  | flowSequenceEnd
  /-- The start of a mapping between braces. -/
  | flowMappingStart
  /-- The end of a mapping between braces. -/
  | flowMappingEnd
  | blockEntry
  | flowEntry
  | key
  | value
  | alias (name : String)
  /-- The name of the node that comes next. -/
  | anchor (name : String)
  /-- The tag of the node that comes next: a handle, and the octets behind it. -/
  | tag (handle : String) (suffix : List UInt8)
  | scalar (text : String) (style : ScalarStyle)
  deriving DecidableEq, Repr

end XmlWorkload.Yaml
