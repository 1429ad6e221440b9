import XmlWorkload.Disk.FileWriter
import XmlWorkload.Proofs.Output.Reliable

/-!
# Writers on a disk with room

A disk without a limit takes everything that a writer brings to its file.  Main statement: a writer
whose file nobody else writes to is reliable, and whatever it does leaves the rest of the disk as it
was (`MountedWriter.reliable`).
-/

set_option autoImplicit false

namespace XmlWorkload

namespace Disk

/-- The contents of the file with a number. -/
def contentsOf (disk : Disk) (file : Nat) : ByteArray := disk.contents.getD file .empty

/-- One disk is another one except for the contents of one file. -/
structure SameBut (file : Nat) (before after : Disk) : Prop where
  workingDirectory : after.workingDirectory = before.workingDirectory
  entries : after.entries = before.entries
  room : after.room = before.room
  size : after.contents.size = before.contents.size
  others : ∀ other, other ≠ file → after.contentsOf other = before.contentsOf other

namespace SameBut

/-- A disk that stays as it is differs in no file. -/
theorem refl (file : Nat) (disk : Disk) : SameBut file disk disk :=
  ⟨rfl, rfl, rfl, rfl, fun _ _ => rfl⟩

/-- Two changes to one file are a change to that file. -/
theorem trans {file : Nat} {first second third : Disk} (h₁ : SameBut file first second)
    (h₂ : SameBut file second third) : SameBut file first third := by
  refine ⟨h₂.workingDirectory.trans h₁.workingDirectory, h₂.entries.trans h₁.entries,
    h₂.room.trans h₁.room, h₂.size.trans h₁.size, ?_⟩
  intro other hother
  exact (h₂.others other hother).trans (h₁.others other hother)

end SameBut

/-- Two disks have the same things in the same places. -/
structure SamePlaces (before after : Disk) : Prop where
  workingDirectory : after.workingDirectory = before.workingDirectory
  entries : after.entries = before.entries

namespace SamePlaces

/-- A disk that stays as it is has the same places. -/
theorem refl (disk : Disk) : SamePlaces disk disk := ⟨rfl, rfl⟩

/-- Two steps that keep all places keep them together. -/
theorem trans {first second third : Disk} (h₁ : SamePlaces first second)
    (h₂ : SamePlaces second third) : SamePlaces first third :=
  ⟨h₂.workingDirectory.trans h₁.workingDirectory, h₂.entries.trans h₁.entries⟩

/-- A change to one file leaves all places as they are. -/
theorem of_sameBut {file : Nat} {before after : Disk} (h : SameBut file before after) :
    SamePlaces before after :=
  ⟨h.workingDirectory, h.entries⟩

end SamePlaces

/-- Modifying the contents of a file leaves those of the others as they are. -/
theorem contentsOf_modify (disk : Disk) {file : Nat} (hfile : file < disk.contents.size)
    (f : ByteArray → ByteArray) (other : Nat) :
    contentsOf { disk with contents := disk.contents.modify file f } other =
      if other = file then f (disk.contentsOf file) else disk.contentsOf other := by
  unfold contentsOf
  rw [Array.getD_eq_getD_getElem?, Array.getD_eq_getD_getElem?, Array.getD_eq_getD_getElem?,
    Array.getElem?_modify]
  by_cases heq : other = file
  · subst heq
    simp [hfile]
  · have hne : ¬ file = other := fun h => heq h.symm
    rw [if_neg hne, if_neg heq]

/-- Bytes at the end of a file on a disk without a limit are written whole. -/
theorem writeAt_end {disk : Disk} {file : Nat} (hroom : disk.room = none)
    (hfile : file < disk.contents.size) (bytes : ByteArray) :
    ∃ after, disk.writeAt file (disk.contentsOf file).size bytes = (bytes.size, after) ∧
      SameBut file disk after ∧ after.contentsOf file = disk.contentsOf file ++ bytes := by
  let change := fun contents => overwrite contents (disk.contentsOf file).size bytes
  have hcontents := contentsOf_modify disk hfile change
  refine ⟨{ disk with contents := disk.contents.modify file change }, ?_, ?_, ?_⟩
  · simp only [writeAt, hroom, Option.map_none, change]
  · refine ⟨rfl, rfl, rfl, Array.size_modify, ?_⟩
    intro other hother
    rw [hcontents other, if_neg hother]
  · rw [hcontents file, if_pos rfl]
    simp only [change, overwrite, if_true]

end Disk

namespace MountedWriter

/-- A writer goes on at the end of its file, on a disk without a limit that is as it was before
apart from this file. -/
structure AtEnd (before : Disk) (file : Nat) (mounted : MountedWriter) : Prop where
  room : mounted.disk.room = none
  isFile : mounted.writer.file = file
  inRange : file < mounted.disk.contents.size
  offset : mounted.writer.offset = (mounted.disk.contentsOf file).size
  frame : Disk.SameBut file before mounted.disk

/-- What a writer was given to write: what its file has, and what it holds back. -/
def text (mounted : MountedWriter) : ByteArray :=
  mounted.disk.contentsOf mounted.writer.file ++ mounted.writer.buffer

variable {before : Disk} {file : Nat} {mounted : MountedWriter}

/-- Bytes written through go behind the contents of the file. -/
theorem writeThrough_ok (h : AtEnd before file mounted) (bytes : ByteArray) :
    ∃ disk, mounted.writeThrough bytes = (.ok (), ⟨{ mounted.writer with
        offset := mounted.writer.offset + bytes.size }, disk⟩) ∧
      AtEnd before file ⟨{ mounted.writer with
        offset := mounted.writer.offset + bytes.size }, disk⟩ ∧
      disk.contentsOf file = mounted.disk.contentsOf file ++ bytes := by
  obtain ⟨after, hwrite, hframe, hcontents⟩ := Disk.writeAt_end h.room h.inRange bytes
  refine ⟨after, ?_, ?_, hcontents⟩
  · rw [← h.offset, ← h.isFile] at hwrite
    simp only [writeThrough, hwrite, if_true]
  · refine ⟨hframe.room.trans h.room, h.isFile, ?_, ?_, h.frame.trans hframe⟩
    · rw [hframe.size]
      exact h.inRange
    · rw [hcontents, ByteArray.size_append, h.offset]

/-- Emptying the buffer succeeds, and the text of the file with its buffer stays the same. -/
theorem flush_ok (h : AtEnd before file mounted) :
    ∃ after, mounted.flush = (.ok (), after) ∧ AtEnd before file after ∧
      after.writer.buffer = .empty ∧ after.writer.capacity = mounted.writer.capacity ∧
        after.text = mounted.text := by
  obtain ⟨disk, hwrite, hend, hcontents⟩ := writeThrough_ok h mounted.writer.buffer
  refine ⟨⟨{ mounted.writer with
    offset := mounted.writer.offset + mounted.writer.buffer.size, buffer := .empty }, disk⟩,
    ?_, ⟨hend.room, hend.isFile, hend.inRange, hend.offset, hend.frame⟩, rfl, rfl, ?_⟩
  · simp only [flush, hwrite, Nat.add_sub_cancel_left, ByteArray.extract_same]
  · simp only [text, h.isFile, hcontents, ByteArray.append_empty]

/-- Collected bytes go behind the text of the file with its buffer. -/
theorem collect_ok (h : AtEnd before file mounted) (bytes : ByteArray) :
    AtEnd before file (mounted.collect bytes) ∧
      (mounted.collect bytes).text = mounted.text ++ bytes :=
  ⟨⟨h.room, h.isFile, h.inRange, h.offset, h.frame⟩, ByteArray.append_assoc.symm⟩

/-- Bytes that do not go through the buffer come behind it when one of the two is empty. -/
theorem writeFlushed_ok (h : AtEnd before file mounted) (bytes : ByteArray)
    (hempty : mounted.writer.capacity ≤ bytes.size →
      mounted.writer.buffer = .empty ∨ bytes = .empty) :
    ∃ after, mounted.writeFlushed bytes = (.ok (), after) ∧ AtEnd before file after ∧
      after.text = mounted.text ++ bytes := by
  unfold writeFlushed
  by_cases hlarge : mounted.writer.capacity ≤ bytes.size
  · obtain ⟨disk, hwrite, hend, hcontents⟩ := writeThrough_ok h bytes
    rw [if_pos hlarge]
    refine ⟨_, hwrite, hend, ?_⟩
    rcases hempty hlarge with hbuffer | hbytes
    · simp only [text, hbuffer, h.isFile, hcontents, ByteArray.append_empty]
    · simp only [text, hbytes, h.isFile, hcontents, ByteArray.append_empty]
  · rw [if_neg hlarge]
    obtain ⟨hend, htext⟩ := collect_ok h bytes
    exact ⟨_, rfl, hend, htext⟩

/-- Bytes that are written go behind everything that was written before. -/
theorem write_ok (h : AtEnd before file mounted) (bytes : ByteArray) :
    ∃ after, mounted.write bytes = (.ok (), after) ∧ AtEnd before file after ∧
      after.text = mounted.text ++ bytes := by
  unfold write
  by_cases hfits : bytes.size < mounted.spare
  · rw [if_pos hfits]
    obtain ⟨hend, htext⟩ := collect_ok h bytes
    exact ⟨_, rfl, hend, htext⟩
  rw [if_neg hfits]
  by_cases hsmall : mounted.spare < bytes.size
  · rw [if_pos hsmall]
    obtain ⟨flushed, hflush, hend, hbuffer, -, htext⟩ := flush_ok h
    obtain ⟨after, hwrite, hafter, hall⟩ := writeFlushed_ok hend bytes fun _ => .inl hbuffer
    rw [hflush]
    refine ⟨after, hwrite, hafter, ?_⟩
    rw [hall, htext]
  · rw [if_neg hsmall]
    apply writeFlushed_ok h bytes
    intro hlarge
    -- bytes as long as what is left of the buffer are only that long when it is empty, or they are
    unfold spare at hfits hsmall
    have hsize : mounted.writer.buffer.size = 0 ∨ bytes.size = 0 := by omega
    exact hsize.imp ByteArray.size_eq_zero_iff.1 ByteArray.size_eq_zero_iff.1

/-- The writers that go on at the end of their file take everything. -/
def reliable (before : Disk) (file : Nat) : Output.Reliable MountedWriter where
  holds := AtEnd before file
  settled mounted := mounted.writer.buffer = .empty
  taken := text
  write_ok := fun bytes h => write_ok h bytes
  flush_ok := by
    intro mounted h
    obtain ⟨after, hflush, hend, hbuffer, -, htext⟩ := flush_ok h
    exact ⟨after, hflush, hend, hbuffer, htext⟩

end MountedWriter

end XmlWorkload
