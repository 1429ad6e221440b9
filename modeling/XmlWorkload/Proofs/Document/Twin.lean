import XmlWorkload.Proofs.Disk.Twin
import XmlWorkload.Proofs.Document.OnDisk

/-!
# Documents with a disk of their own

A document in a file of a disk with room does what it would do if nothing else were on the disk.
Main statement: whatever is done to a document that has a twin on a disk of its own gives the result
that it gives there, and leaves twins behind (`FileDocument.Twin.act`).
-/

set_option autoImplicit false

namespace XmlWorkload.FileDocument

/-- Two writers have written the same, one of them to a file of a disk and the other to the only
file of its own. -/
abbrev WritesAlone (file : Nat) (disk : Disk) : MountedWriter → MountedWriter → Prop :=
  MountedWriter.Twin disk file .lone 0

/-- A document in a file of a disk is in the same state as one with a disk of its own, and both
files have received the same. -/
def Twin (file : Nat) (disk : Disk) (document : FileDocument) (lone : MountedDocument) : Prop :=
  Document.Related (XmlStream.Related (WritesAlone file disk)) (document.mount disk) lone

variable {file : Nat} {disk disk' : Disk} {document : FileDocument} {lone : MountedDocument}

namespace Twin

/-- Twins have received the same text. -/
theorem text_eq (h : Twin file disk document lone) :
    document.text disk = lone.sink.output.text :=
  h.sink.output.text_eq

/-- What the file of a document has received. -/
theorem contents_eq (h : Twin file disk document lone) :
    disk.contentsOf document.sink.output.file =
      lone.sink.output.disk.contentsOf lone.sink.output.writer.file := by
  have houtput := h.sink.output
  have hisFile : document.sink.output.file = file := houtput.ends.isFile
  rw [hisFile, houtput.ends'.isFile]
  exact houtput.contents

/-- What happens elsewhere on the disk does not matter to a document. -/
theorem frame (h : Twin file disk document lone) (hroom : disk'.room = none)
    (hfile : file < disk'.contents.size)
    (hcontents : disk'.contentsOf file = disk.contentsOf file) :
    Twin file disk' document lone := by
  have houtput := h.sink.output
  have hends : MountedWriter.AtEnd disk' file ⟨document.sink.output, disk'⟩ := by
    refine ⟨hroom, houtput.ends.isFile, hfile, ?_, Disk.SameBut.refl file disk'⟩
    rw [hcontents]
    exact houtput.ends.offset
  exact { h with
    sink := { h.sink with
      output := { houtput with ends := hends, contents := hcontents.trans houtput.contents } } }

end Twin

/-- A document that was changed together with its twin while it was mounted still has it, and
nothing but its file has changed. -/
theorem twin_unmount {mounted : MountedDocument}
    (h : Document.Related (XmlStream.Related (WritesAlone file disk)) mounted lone) :
    Twin file mounted.sink.output.disk (unmount mounted) lone ∧
      Disk.SameBut file disk mounted.sink.output.disk := by
  have houtput := h.sink.output
  have hends : MountedWriter.AtEnd mounted.sink.output.disk file mounted.sink.output :=
    { houtput.ends with frame := Disk.SameBut.refl file _ }
  have hrelated : Document.Related (XmlStream.Related
      (WritesAlone file mounted.sink.output.disk)) mounted lone :=
    { h with sink := { h.sink with output := { houtput with ends := hends } } }
  exact ⟨hrelated, houtput.ends.frame⟩

/-- What is done to a document that has a twin gives the result that it gives there.  It leaves
twins behind, and touches no other file. -/
theorem Twin.act {α : Type} {action : Action MountedDocument α}
    (h : Twin file disk document lone)
    (haction : Action.Alike (Document.Related (XmlStream.Related (WritesAlone file disk))) action
      action) :
    let outcome := FileDocument.act action (document, disk)
    outcome.1 = (action.run lone).1 ∧ Twin file outcome.2.2 outcome.2.1 (action.run lone).2 ∧
      Disk.SameBut file disk outcome.2.2 := by
  obtain ⟨hresult, hleft⟩ := haction h
  exact ⟨hresult, twin_unmount hleft⟩

/-- The streams of twins are alike. -/
theorem writesAlone_alike (file : Nat) (disk : Disk) :
    Sink.Alike (XmlStream.Related (WritesAlone file disk)) :=
  XmlStream.alike (MountedWriter.twin_alike disk file .lone 0)

/-- An emission comes to the same for twins, and they stay twins. -/
theorem Twin.act_emit (h : Twin file disk document lone) (emission : Emission) :
    let outcome := FileDocument.act (Document.emit emission.path emission.template) (document, disk)
    let left := (Document.emit emission.path emission.template).run lone
    outcome.1 = left.1 ∧ Twin file outcome.2.2 outcome.2.1 left.2 ∧
      Disk.SameBut file disk outcome.2.2 :=
  h.act (Document.emit_alike (writesAlone_alike file disk) emission.path emission.template)

/-- Closing comes to the same for twins, and they stay twins. -/
theorem Twin.act_close (h : Twin file disk document lone) :
    let outcome := FileDocument.act Document.close (document, disk)
    outcome.1 = (Document.close.run lone).1 ∧
      Twin file outcome.2.2 outcome.2.1 (Document.close.run lone).2 ∧
      Disk.SameBut file disk outcome.2.2 :=
  h.act (Document.close_alike (writesAlone_alike file disk))

end XmlWorkload.FileDocument
