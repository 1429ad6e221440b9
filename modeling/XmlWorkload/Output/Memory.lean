import XmlWorkload.Output.Basic

/-!
# Output to memory

An output that keeps what it takes.  It may have room for so many bytes only, and then it takes the
part of a write that still fits before it refuses the rest.
-/

set_option autoImplicit false

namespace XmlWorkload

/-- An output that keeps what it takes. -/
structure Memory where
  bytes : ByteArray
  /-- How many more bytes are taken, if there is a limit. -/
  room : Option Nat
  refusesFlush : Bool
  deriving Inhabited

namespace Memory

/-- An output with no limit and nothing in it. -/
def unlimited : Memory := ⟨.empty, none, false⟩

/-- Writes bytes as far as there is room for them. -/
def write (bytes : ByteArray) (memory : Memory) : Except IoFault Unit × Memory :=
  match memory.room with
  | none => (.ok (), { memory with bytes := memory.bytes ++ bytes })
  | some room =>
    if bytes.size ≤ room then
      (.ok (), { memory with bytes := memory.bytes ++ bytes, room := some (room - bytes.size) })
    else
      (.error .outputFull,
        { memory with bytes := memory.bytes ++ bytes.extract 0 room, room := some 0 })

/-- Flushes, which changes nothing. -/
def flush (memory : Memory) : Except IoFault Unit × Memory :=
  (if memory.refusesFlush then .error .flushRefused else .ok (), memory)

instance : Output Memory := ⟨write, flush⟩

end Memory

end XmlWorkload
