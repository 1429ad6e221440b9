import XmlWorkload.Error

/-!
# Outputs

An output takes bytes and may refuse them.  What it took before it refused stays taken.
-/

set_option autoImplicit false

namespace XmlWorkload

/-- A place that bytes are written to. -/
class Output (ω : Type) where
  write : ByteArray → ω → Except IoFault Unit × ω
  /-- Makes sure that nothing written is held back. -/
  flush : ω → Except IoFault Unit × ω

namespace Output

variable {ω : Type} [Output ω]

/-- Writes one piece of text after the other, up to the first that is refused. -/
def writePieces : List String → ω → Except IoFault Unit × ω
  | [], output => (.ok (), output)
  | piece :: rest, output =>
    match write piece.toUTF8 output with
    | (.ok (), output) => writePieces rest output
    | (.error fault, output) => (.error fault, output)

end Output

end XmlWorkload
