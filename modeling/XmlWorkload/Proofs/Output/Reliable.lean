import XmlWorkload.Output.Memory

/-!
# Outputs that take everything

An output is reliable in the states in which it takes whatever it is given.  What it took so far is
the text of a document, whether its place has received it already or not.  Main statement: writing
pieces one after the other to a reliable output adds their concatenation to what it took.
-/

set_option autoImplicit false

namespace XmlWorkload

/-- The bytes of two texts in a row are those of the first with those of the second behind them. -/
theorem Text.toUTF8_append (first second : String) :
    (first ++ second).toUTF8 = first.toUTF8 ++ second.toUTF8 :=
  String.toByteArray_append

/-- The states in which an output takes whatever it is given, each with what it took so far. -/
structure Output.Reliable (ω : Type) [Output ω] where
  /-- Whether a state is one of them. -/
  holds : ω → Prop
  /-- Whether nothing of what was taken is held back. -/
  settled : ω → Prop
  taken : ω → ByteArray
  /-- Bytes are taken behind those that were taken before. -/
  write_ok : ∀ {output : ω} (bytes : ByteArray), holds output →
    ∃ after, Output.write bytes output = (.ok (), after) ∧ holds after ∧
      taken after = taken output ++ bytes
  /-- A flush leaves nothing held back and takes nothing more. -/
  flush_ok : ∀ {output : ω}, holds output →
    ∃ after, Output.flush output = (.ok (), after) ∧ holds after ∧ settled after ∧
      taken after = taken output

namespace Output.Reliable

variable {ω : Type} [Output ω] (reliable : Reliable ω)

/-- Pieces that are written one after the other are taken as one text. -/
theorem writePieces_ok {output : ω} (pieces : List String) (h : reliable.holds output) :
    ∃ after, writePieces pieces output = (.ok (), after) ∧ reliable.holds after ∧
      reliable.taken after = reliable.taken output ++ (String.join pieces).toUTF8 := by
  induction pieces generalizing output with
  | nil => exact ⟨output, rfl, h, by simp⟩
  | cons piece rest ih =>
    obtain ⟨middle, hwrite, hmiddle, htaken⟩ := reliable.write_ok piece.toUTF8 h
    obtain ⟨after, hrest, hafter, hall⟩ := ih hmiddle
    refine ⟨after, ?_, hafter, ?_⟩
    · rw [writePieces, hwrite]
      exact hrest
    · rw [hall, htaken, String.join_cons, Text.toUTF8_append, ByteArray.append_assoc]

end Output.Reliable

/-- Memory without a limit that does not refuse to be flushed takes everything. -/
def Memory.reliable : Output.Reliable Memory where
  holds memory := memory.room = none ∧ memory.refusesFlush = false
  settled _ := True
  taken := Memory.bytes
  write_ok := by
    intro memory bytes h
    refine ⟨{ memory with bytes := memory.bytes ++ bytes }, ?_, h, rfl⟩
    simp [Output.write, Memory.write, h.1]
  flush_ok := by
    intro memory h
    refine ⟨memory, ?_, h, trivial, rfl⟩
    simp [Output.flush, Memory.flush, h.2]

end XmlWorkload
