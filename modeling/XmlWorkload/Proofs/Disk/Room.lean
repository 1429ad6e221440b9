import Mathlib.Algebra.GroupWithZero.Nat
import XmlWorkload.Proofs.Disk.Writer
import XmlWorkload.Proofs.Sink.Parting

/-!
# Writers on a disk that may run full

A disk with a limit goes on like the same disk without the limit as long as there is room.  Main
statement: a writer behaves as it would without the limit until one of its operations fails, and
whatever it does, it writes to no file but its own (`MountedWriter.lifted_alikeUntil`).
-/

set_option autoImplicit false

namespace XmlWorkload

namespace Disk

/-- The disk without its limit. -/
def unlimited (disk : Disk) : Disk := { disk with room := none }

/-- Nothing happened to a disk except that one file was written to, which may have taken room. -/
structure Wrote (file : Nat) (before after : Disk) : Prop where
  workingDirectory : after.workingDirectory = before.workingDirectory
  entries : after.entries = before.entries
  size : after.contents.size = before.contents.size
  others : ∀ other, other ≠ file → after.contentsOf other = before.contentsOf other

/-- Nothing is written to a disk that stays as it is. -/
theorem Wrote.refl (file : Nat) (disk : Disk) : Wrote file disk disk :=
  ⟨rfl, rfl, rfl, fun _ _ => rfl⟩

/-- What writes to a file twice writes to that file only. -/
theorem Wrote.trans {file : Nat} {first second third : Disk} (h₁ : Wrote file first second)
    (h₂ : Wrote file second third) : Wrote file first third := by
  refine ⟨h₂.workingDirectory.trans h₁.workingDirectory, h₂.entries.trans h₁.entries,
    h₂.size.trans h₁.size, fun other hother => ?_⟩
  rw [h₂.others other hother, h₁.others other hother]

/-- Writing bytes into a file writes to that file only. -/
theorem wrote_writeAt (disk : Disk) (file offset : Nat) (bytes : ByteArray) :
    Wrote file disk (disk.writeAt file offset bytes).2 := by
  refine ⟨rfl, rfl, Array.size_modify, fun other hother => ?_⟩
  have hne : ¬ file = other := fun h => hother h.symm
  simp only [contentsOf, writeAt, Array.getD_eq_getD_getElem?, Array.getElem?_modify, if_neg hne]

/-- Bytes that a disk takes whole are written as on the disk without its limit. -/
theorem writeAt_unlimited {disk : Disk} {file offset : Nat} {bytes : ByteArray}
    (h : (disk.writeAt file offset bytes).1 = bytes.size) :
    disk.unlimited.writeAt file offset bytes =
      (bytes.size, (disk.writeAt file offset bytes).2.unlimited) := by
  rcases hroom : disk.room with - | room
  · simp [writeAt, unlimited, hroom]
  · have hfits : min room bytes.size = bytes.size := by
      simpa [writeAt, hroom, ByteArray.size_extract] using h
    simp [writeAt, unlimited, hroom, hfits, ByteArray.extract_zero_size]

/-- No bytes at the end of a file change nothing in it. -/
theorem contentsOf_writeAt_empty {disk : Disk} {file : Nat} (hfile : file < disk.contents.size) :
    (disk.writeAt file (disk.contentsOf file).size .empty).2.contentsOf file =
      disk.contentsOf file := by
  have hnone : (disk.writeAt file (disk.contentsOf file).size .empty).1 = ByteArray.empty.size := by
    unfold writeAt
    cases disk.room <;> simp
  have hlimitless : disk.unlimited.room = none := rfl
  obtain ⟨after, hwrite, -, hcontents⟩ := writeAt_end hlimitless hfile .empty
  have hafter : _ = after := congrArg Prod.snd ((writeAt_unlimited hnone).symm.trans hwrite)
  rw [← hafter, ByteArray.append_empty] at hcontents
  exact hcontents

end Disk

namespace MountedWriter

/-- The writer on the disk without its limit. -/
def unlimited (mounted : MountedWriter) : MountedWriter :=
  { mounted with disk := mounted.disk.unlimited }

/-- A writer has written to its own file and to no other. -/
structure Within (before : Disk) (file : Nat) (mounted : MountedWriter) : Prop where
  isFile : mounted.writer.file = file
  wrote : Disk.Wrote file before mounted.disk

/-- A writer together with the same writer on the disk without its limit. -/
def Lifted (before : Disk) (file : Nat) (mounted twin : MountedWriter) : Prop :=
  Within before file mounted ∧ twin = mounted.unlimited

variable {before : Disk} {file : Nat} {mounted : MountedWriter}

namespace Within

/-- Writing bytes through leaves all other files as they were. -/
theorem writeThrough (h : Within before file mounted) (bytes : ByteArray) :
    Within before file (mounted.writeThrough bytes).2 := by
  refine ⟨h.isFile, h.wrote.trans ?_⟩
  rw [← h.isFile]
  exact Disk.wrote_writeAt _ _ _ _

/-- Emptying the buffer leaves all other files as they were. -/
theorem flush (h : Within before file mounted) : Within before file mounted.flush.2 :=
  ⟨h.isFile, (h.writeThrough mounted.writer.buffer).wrote⟩

/-- Collecting bytes in the buffer leaves all other files as they were. -/
theorem collect (h : Within before file mounted) (bytes : ByteArray) :
    Within before file (mounted.collect bytes) :=
  ⟨h.isFile, h.wrote⟩

/-- Writing bytes behind an empty buffer leaves all other files as they were. -/
theorem writeFlushed (h : Within before file mounted) (bytes : ByteArray) :
    Within before file (mounted.writeFlushed bytes).2 := by
  unfold MountedWriter.writeFlushed
  split
  · exact h.writeThrough bytes
  · exact h.collect bytes

/-- Writing bytes leaves all other files as they were. -/
theorem write (h : Within before file mounted) (bytes : ByteArray) :
    Within before file (mounted.write bytes).2 := by
  have hflush := h.flush
  unfold MountedWriter.write
  split
  · exact h.collect bytes
  · split
    · split
      · next hrun =>
        rw [hrun] at hflush
        exact hflush.writeFlushed bytes
      · next hrun =>
        rw [hrun] at hflush
        exact hflush
    · exact h.writeFlushed bytes

/-- Writing pieces one after the other leaves all other files as they were. -/
theorem writePieces (h : Within before file mounted) (pieces : List String) :
    Within before file (Output.writePieces pieces mounted).2 := by
  induction pieces generalizing mounted with
  | nil => exact h
  | cons piece rest ih =>
    have hwrite : Within before file (Output.write piece.toUTF8 mounted).2 :=
      h.write piece.toUTF8
    unfold Output.writePieces
    split
    · next hrun =>
      rw [hrun] at hwrite
      exact ih hwrite
    · next hrun =>
      rw [hrun] at hwrite
      exact hwrite

end Within

/-- An operation fails because the disk is full, or does what it does without the limit. -/
def FullOr (outcome twin : Except IoFault Unit × MountedWriter) : Prop :=
  outcome.1 = .error .deviceFull ∨ outcome.1 = .ok () ∧ twin = (.ok (), outcome.2.unlimited)

/-- Writing bytes through fails for a full disk or comes to what it comes to without a limit. -/
theorem writeThrough_fullOr (mounted : MountedWriter) (bytes : ByteArray) :
    FullOr (mounted.writeThrough bytes) (mounted.unlimited.writeThrough bytes) := by
  by_cases hfits : (mounted.disk.writeAt mounted.writer.file mounted.writer.offset bytes).1 =
      bytes.size
  · right
    simp only [writeThrough, unlimited, Disk.writeAt_unlimited hfits, hfits, if_true, and_self]
  · left
    simp only [writeThrough, if_neg hfits]

/-- Emptying the buffer fails for a full disk or comes to what it comes to without a limit. -/
theorem flush_fullOr (mounted : MountedWriter) : FullOr mounted.flush mounted.unlimited.flush := by
  rcases writeThrough_fullOr mounted mounted.writer.buffer with hfull | ⟨hok, hsame⟩
  · exact .inl hfull
  · refine .inr ⟨hok, ?_⟩
    show (MountedWriter.flush mounted.unlimited) = _
    unfold flush
    simp only [unlimited] at hsame ⊢
    rw [hsame]

/-- Writing behind an empty buffer fails for a full disk or comes to what it comes to without a
limit. -/
theorem writeFlushed_fullOr (mounted : MountedWriter) (bytes : ByteArray) :
    FullOr (mounted.writeFlushed bytes) (mounted.unlimited.writeFlushed bytes) := by
  unfold writeFlushed
  by_cases hlarge : mounted.writer.capacity ≤ bytes.size
  · rw [if_pos hlarge, if_pos (show mounted.unlimited.writer.capacity ≤ bytes.size from hlarge)]
    exact writeThrough_fullOr mounted bytes
  · rw [if_neg hlarge, if_neg (show ¬ mounted.unlimited.writer.capacity ≤ bytes.size from hlarge)]
    exact .inr ⟨rfl, rfl⟩

/-- Writing bytes fails for a full disk or comes to what it comes to without a limit. -/
theorem write_fullOr (mounted : MountedWriter) (bytes : ByteArray) :
    FullOr (mounted.write bytes) (mounted.unlimited.write bytes) := by
  have hspare : mounted.unlimited.spare = mounted.spare := rfl
  unfold write
  rw [hspare]
  by_cases hfits : bytes.size < mounted.spare
  · rw [if_pos hfits, if_pos hfits]
    exact .inr ⟨rfl, rfl⟩
  rw [if_neg hfits, if_neg hfits]
  by_cases hsmall : mounted.spare < bytes.size
  · -- what is held back has to go first, and only that may fill the disk before the bytes come
    rw [if_pos hsmall, if_pos hsmall]
    rcases hflush : mounted.flush with ⟨result, flushed⟩
    have hflushed := flush_fullOr mounted
    rw [hflush] at hflushed
    rcases hflushed with hfull | ⟨hok, hsame⟩
    · obtain rfl : result = .error .deviceFull := hfull
      exact .inl rfl
    · obtain rfl : result = .ok () := hok
      rw [hsame]
      exact writeFlushed_fullOr flushed bytes
  · rw [if_neg hsmall, if_neg hsmall]
    exact writeFlushed_fullOr mounted bytes

/-- Writing pieces fails for a full disk or comes to what it comes to without a limit. -/
theorem writePieces_fullOr (mounted : MountedWriter) (pieces : List String) :
    FullOr (Output.writePieces pieces mounted) (Output.writePieces pieces mounted.unlimited) := by
  induction pieces generalizing mounted with
  | nil => exact .inr ⟨rfl, rfl⟩
  | cons piece rest ih =>
    have hfirst : FullOr (Output.write piece.toUTF8 mounted)
        (Output.write piece.toUTF8 mounted.unlimited) := write_fullOr mounted piece.toUTF8
    unfold Output.writePieces
    rcases hrun : Output.write piece.toUTF8 mounted with ⟨result, left⟩
    rw [hrun] at hfirst
    rcases hfirst with hfull | ⟨hok, hsame⟩
    · obtain rfl : result = .error .deviceFull := hfull
      exact .inl rfl
    · obtain rfl : result = .ok () := hok
      rw [hsame]
      exact ih left

/-- A writer goes on like the same writer on the disk without its limit until the disk is full. -/
theorem lifted_alikeUntil (before : Disk) (file : Nat) :
    Output.AlikeUntil (Lifted before file) fun mounted _ => Within before file mounted where
  write := by
    rintro mounted _ bytes ⟨hwithin, rfl⟩
    rcases write_fullOr mounted bytes with hfull | ⟨hok, hsame⟩
    · exact .inr ⟨.deviceFull, hfull, hwithin.write bytes⟩
    · refine .inl ⟨hok.trans (congrArg Prod.fst hsame).symm, hwithin.write bytes, ?_⟩
      exact congrArg Prod.snd hsame
  flush := by
    rintro mounted _ ⟨hwithin, rfl⟩
    rcases flush_fullOr mounted with hfull | ⟨hok, hsame⟩
    · exact .inr ⟨.deviceFull, hfull, hwithin.flush⟩
    · refine .inl ⟨hok.trans (congrArg Prod.fst hsame).symm, hwithin.flush, ?_⟩
      exact congrArg Prod.snd hsame
  write_keeps := fun _ _ _ h => h
  flush_keeps := fun _ _ h => h

/-- The disk has room for what a writer holds back and for so many bytes more. -/
def Fits (count : Nat) (mounted : MountedWriter) : Prop :=
  ∀ room, mounted.disk.room = some room → mounted.writer.buffer.size + count ≤ room

namespace Fits

variable {count : Nat} {bytes : ByteArray}

/-- Bytes for which there is room can be written through, and they take their size off the room. -/
theorem writeThrough (mounted : MountedWriter) (bytes : ByteArray)
    (hsize : ∀ room, mounted.disk.room = some room → bytes.size ≤ room) :
    (mounted.writeThrough bytes).1 = .ok () ∧
      (mounted.writeThrough bytes).2.writer.offset = mounted.writer.offset + bytes.size ∧
      (mounted.writeThrough bytes).2.disk.room = mounted.disk.room.map (· - bytes.size) := by
  rcases hroom : mounted.disk.room with - | room
  · simp [MountedWriter.writeThrough, Disk.writeAt, hroom]
  · have hfits := hsize room hroom
    simp [MountedWriter.writeThrough, Disk.writeAt, hroom, hfits]

/-- The buffer can be emptied where there is room for it. -/
theorem flush (h : Fits count mounted) :
    mounted.flush.1 = .ok () ∧ mounted.flush.2.writer.buffer = .empty ∧
      Fits count mounted.flush.2 := by
  obtain ⟨hok, hoffset, hroom⟩ := writeThrough mounted mounted.writer.buffer
    fun room hroom => (Nat.le_add_right _ count).trans (h room hroom)
  have hempty : mounted.flush.2.writer.buffer = .empty := by
    simp only [MountedWriter.flush, hoffset, Nat.add_sub_cancel_left, ByteArray.extract_same]
  refine ⟨hok, hempty, fun room hleft => ?_⟩
  have hleft' : mounted.disk.room.map (· - mounted.writer.buffer.size) = some room :=
    hroom.symm.trans hleft
  obtain ⟨before, hbefore, rfl⟩ := Option.map_eq_some_iff.1 hleft'
  have hfits := h before hbefore
  rw [hempty, ByteArray.size_empty]
  omega

/-- Bytes for which there is room can be written behind an empty buffer, and the rest still fits. -/
theorem writeFlushed (h : Fits (bytes.size + count) mounted) :
    (mounted.writeFlushed bytes).1 = .ok () ∧ Fits count (mounted.writeFlushed bytes).2 := by
  unfold MountedWriter.writeFlushed
  split
  · obtain ⟨hok, -, hroom⟩ := writeThrough mounted bytes fun room hroom => by
      have := h room hroom
      omega
    refine ⟨hok, fun room hleft => ?_⟩
    rw [hroom] at hleft
    obtain ⟨before, hbefore, rfl⟩ := Option.map_eq_some_iff.1 hleft
    have hfits := h before hbefore
    show mounted.writer.buffer.size + count ≤ before - bytes.size
    omega
  · refine ⟨rfl, fun room hroom => ?_⟩
    have hfits := h room hroom
    simp only [MountedWriter.collect, ByteArray.size_append]
    omega

/-- Bytes for which there is room can be written, and the rest still fits. -/
theorem write (h : Fits (bytes.size + count) mounted) :
    (mounted.write bytes).1 = .ok () ∧ Fits count (mounted.write bytes).2 := by
  unfold MountedWriter.write
  split
  · refine ⟨rfl, fun room hroom => ?_⟩
    have hfits := h room hroom
    simp only [MountedWriter.collect, ByteArray.size_append]
    omega
  · split
    · obtain ⟨hok, -, hfits⟩ := h.flush
      rcases hrun : mounted.flush with ⟨result, left⟩
      rw [hrun] at hok hfits
      obtain rfl : result = .ok () := hok
      exact hfits.writeFlushed
    · exact h.writeFlushed

/-- Where there is room for pieces, they are written. -/
theorem writePieces {pieces : List String}
    (h : Fits (pieces.map fun piece => piece.toUTF8.size).sum mounted) :
    (Output.writePieces pieces mounted).1 = .ok () := by
  induction pieces generalizing mounted with
  | nil => rfl
  | cons piece rest ih =>
    rw [List.map_cons, List.sum_cons] at h
    obtain ⟨hok, hfits⟩ := h.write
    unfold Output.writePieces
    rcases hrun : Output.write piece.toUTF8 mounted with ⟨result, left⟩
    have hrun' : mounted.write piece.toUTF8 = (result, left) := hrun
    rw [hrun'] at hok hfits
    obtain rfl : result = .ok () := hok
    exact ih hfits

end Fits

end MountedWriter

end XmlWorkload
