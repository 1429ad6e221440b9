import XmlWorkload.Proofs.Disk.Writer
import XmlWorkload.Proofs.Sink.Alike

/-!
# Writers to files with the same contents

What a writer does depends on its own file, and on no other.  Main statement: two writers that have
written the same to two files, on the same or on different disks with room, are alike as outputs
(`MountedWriter.twin_alike`), down to what their files have received and what they hold back.
-/

set_option autoImplicit false

namespace XmlWorkload

/-- A disk with nothing on it but an empty file, which has lost its place. -/
def Disk.lone : Disk := ⟨[], [], #[.empty], none⟩

namespace MountedWriter

/-- Two writers go on at the ends of two files with the same contents, and hold the same back. -/
structure Twin (before : Disk) (file : Nat) (before' : Disk) (file' : Nat)
    (first second : MountedWriter) : Prop where
  ends : AtEnd before file first
  ends' : AtEnd before' file' second
  contents : first.disk.contentsOf file = second.disk.contentsOf file'
  buffer : first.writer.buffer = second.writer.buffer
  capacity : first.writer.capacity = second.writer.capacity

namespace Twin

variable {before before' : Disk} {file file' : Nat} {first second : MountedWriter}

/-- Twins have the same text. -/
theorem text_eq (h : Twin before file before' file' first second) : first.text = second.text := by
  unfold text
  rw [h.ends.isFile, h.ends'.isFile, h.contents, h.buffer]

/-- Twins have the same room to spare. -/
theorem spare_eq (h : Twin before file before' file' first second) :
    first.spare = second.spare := by
  unfold spare
  rw [h.capacity, h.buffer]

/-- Twins stay twins when both collect the same bytes. -/
theorem collect (h : Twin before file before' file' first second) (bytes : ByteArray) :
    Twin before file before' file' (first.collect bytes) (second.collect bytes) where
  ends := (collect_ok h.ends bytes).1
  ends' := (collect_ok h.ends' bytes).1
  contents := h.contents
  buffer := congrArg (· ++ bytes) h.buffer
  capacity := h.capacity

/-- Twins come to the same when both write the same bytes through, and stay twins. -/
theorem writeThrough (h : Twin before file before' file' first second) (bytes : ByteArray) :
    (first.writeThrough bytes).1 = (second.writeThrough bytes).1 ∧
      Twin before file before' file' (first.writeThrough bytes).2
        (second.writeThrough bytes).2 := by
  obtain ⟨disk, hwrite, hend, hcontents⟩ := writeThrough_ok h.ends bytes
  obtain ⟨disk', hwrite', hend', hcontents'⟩ := writeThrough_ok h.ends' bytes
  rw [hwrite, hwrite']
  refine ⟨rfl, hend, hend', ?_, h.buffer, h.capacity⟩
  rw [hcontents, hcontents', h.contents]

/-- Twins come to the same when both empty their buffers, and stay twins. -/
theorem flush (h : Twin before file before' file' first second) :
    first.flush.1 = second.flush.1 ∧
      Twin before file before' file' first.flush.2 second.flush.2 := by
  obtain ⟨after, hflush, hend, hbuffer, hcapacity, htext⟩ := flush_ok h.ends
  obtain ⟨after', hflush', hend', hbuffer', hcapacity', htext'⟩ := flush_ok h.ends'
  rw [hflush, hflush']
  refine ⟨rfl, hend, hend', ?_, hbuffer.trans hbuffer'.symm, ?_⟩
  · -- with nothing held back the contents are all of the text
    unfold text at htext htext'
    rw [hbuffer, ByteArray.append_empty, hend.isFile] at htext
    rw [hbuffer', ByteArray.append_empty, hend'.isFile] at htext'
    rw [htext, htext']
    exact h.text_eq
  · rw [hcapacity, hcapacity', h.capacity]

/-- Twins come to the same when both write the same bytes behind empty buffers, and stay twins. -/
theorem writeFlushed (h : Twin before file before' file' first second) (bytes : ByteArray) :
    (first.writeFlushed bytes).1 = (second.writeFlushed bytes).1 ∧
      Twin before file before' file' (first.writeFlushed bytes).2
        (second.writeFlushed bytes).2 := by
  unfold MountedWriter.writeFlushed
  rw [h.capacity]
  by_cases hlarge : second.writer.capacity ≤ bytes.size
  · rw [if_pos hlarge, if_pos hlarge]
    exact h.writeThrough bytes
  · rw [if_neg hlarge, if_neg hlarge]
    exact ⟨rfl, h.collect bytes⟩

/-- Twins come to the same when both write the same bytes, and stay twins. -/
theorem write (h : Twin before file before' file' first second) (bytes : ByteArray) :
    (first.write bytes).1 = (second.write bytes).1 ∧
      Twin before file before' file' (first.write bytes).2 (second.write bytes).2 := by
  unfold MountedWriter.write
  rw [h.spare_eq]
  by_cases hfits : bytes.size < second.spare
  · rw [if_pos hfits, if_pos hfits]
    exact ⟨rfl, h.collect bytes⟩
  rw [if_neg hfits, if_neg hfits]
  by_cases hsmall : second.spare < bytes.size
  · rw [if_pos hsmall, if_pos hsmall]
    obtain ⟨after, hflush, -⟩ := flush_ok h.ends
    obtain ⟨after', hflush', -⟩ := flush_ok h.ends'
    have hflushed := h.flush.2
    rw [hflush, hflush'] at hflushed ⊢
    exact hflushed.writeFlushed bytes
  · rw [if_neg hsmall, if_neg hsmall]
    exact h.writeFlushed bytes

end Twin

/-- Writers to files with the same contents are alike. -/
theorem twin_alike (before : Disk) (file : Nat) (before' : Disk) (file' : Nat) :
    Output.Alike (Twin before file before' file') :=
  ⟨fun _ _ bytes h => h.write bytes, fun _ _ h => h.flush⟩

end MountedWriter

end XmlWorkload
