import XmlWorkload.Disk.Basic
import XmlWorkload.Output.Basic

/-!
# Buffered output to files

A writer collects bytes and brings them to its file when its buffer is full.  Bytes that no buffer
can hold go to the file at once.  A writer works on a disk while it is mounted there.
-/

set_option autoImplicit false

namespace XmlWorkload

/-- A writer to a file. -/
structure FileWriter where
  file : Nat
  /-- Where in the file the next bytes go. -/
  offset : Nat
  /-- The bytes that the file has not received yet. -/
  buffer : ByteArray
  /-- How many bytes are collected at most. -/
  capacity : Nat
  deriving Inhabited

/-- A writer together with the disk that it works on. -/
structure MountedWriter where
  writer : FileWriter
  disk : Disk
  deriving Inhabited

namespace MountedWriter

/-- Writes bytes to the file, behind those written before. -/
def writeThrough (bytes : ByteArray) (mounted : MountedWriter) :
    Except IoFault Unit × MountedWriter :=
  let writer := mounted.writer
  let (count, disk) := mounted.disk.writeAt writer.file writer.offset bytes
  let advanced : MountedWriter := ⟨{ writer with offset := writer.offset + count }, disk⟩
  (if count = bytes.size then .ok () else .error .deviceFull, advanced)

/-- Brings the buffer to the file.  What the file does not receive stays in the buffer. -/
def flush (mounted : MountedWriter) : Except IoFault Unit × MountedWriter :=
  let buffer := mounted.writer.buffer
  let (result, written) := mounted.writeThrough buffer
  let count := written.writer.offset - mounted.writer.offset
  (result, { written with
    writer := { written.writer with buffer := buffer.extract count buffer.size } })

/-- Adds bytes to the buffer. -/
def collect (bytes : ByteArray) (mounted : MountedWriter) : MountedWriter :=
  { mounted with writer := { mounted.writer with buffer := mounted.writer.buffer ++ bytes } }

/-- The number of bytes that still fit into the buffer. -/
def spare (mounted : MountedWriter) : Nat := mounted.writer.capacity - mounted.writer.buffer.size

/-- Writes bytes that the flushed buffer may be too small for. -/
def writeFlushed (bytes : ByteArray) (mounted : MountedWriter) :
    Except IoFault Unit × MountedWriter :=
  if mounted.writer.capacity ≤ bytes.size then mounted.writeThrough bytes
  else (.ok (), mounted.collect bytes)

/-- Writes bytes: to the buffer if they leave some of it empty, and otherwise after the buffer has
been brought to the file if they do not fit. -/
def write (bytes : ByteArray) (mounted : MountedWriter) : Except IoFault Unit × MountedWriter :=
  if bytes.size < mounted.spare then (.ok (), mounted.collect bytes)
  else if mounted.spare < bytes.size then
    match mounted.flush with
    | (.ok (), mounted) => mounted.writeFlushed bytes
    | (.error fault, mounted) => (.error fault, mounted)
  else mounted.writeFlushed bytes

instance : Output MountedWriter := ⟨write, flush⟩

end MountedWriter

end XmlWorkload
