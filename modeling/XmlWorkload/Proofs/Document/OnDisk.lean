import XmlWorkload.Document.Set
import XmlWorkload.Proofs.Disk.Writer
import XmlWorkload.Proofs.Document.Closing

/-!
# Documents in files

A document that lies in a file of a disk with room follows emissions as one in memory does, and what
happens to it changes no other file.  Main statements: emitting and closing keep it that way, and
when nobody can use the document any more its file has the whole text.
-/

set_option autoImplicit false

namespace XmlWorkload

/-- What a document follows does not depend on where its output lies: any reliable output will do
that took the same. -/
theorem Document.Follows.withOutput {ω ω' : Type} [Output ω] [Output ω']
    {reliable : Output.Reliable ω} {reliable' : Output.Reliable ω'} {front : ByteArray}
    {root : String} {emissions : List Emission} {document : Document (XmlStream ω)}
    (h : Document.Follows reliable front root emissions document) {output : ω'}
    (hholds : reliable'.holds output)
    (hsettled : reliable.settled document.sink.output → reliable'.settled output)
    (htaken : reliable'.taken output = reliable.taken document.sink.output) :
    Document.Follows reliable' front root emissions
      { document with sink := document.sink.withOutput output } := by
  refine ⟨hholds, ?_⟩
  have hshown := h.2
  cases hstatus : document.status with
  | live =>
    rw [hstatus] at hshown
    obtain ⟨draft, hdraft, ⟨htree, hstream⟩, hcursor⟩ := hshown
    exact ⟨draft, hdraft, ⟨htree, hholds, hstream.frames, hstream.heldTag, hstream.nextElement,
      htaken.trans hstream.taken⟩, hcursor⟩
  | failed reason => trivial
  | closed =>
    rw [hstatus] at hshown
    obtain ⟨tree, htree, hsettled', htaken'⟩ := hshown
    exact ⟨tree, htree, hsettled hsettled', htaken.trans htaken'⟩

namespace FileDocument

/-- What was written to a document: what its file has, and what is held back. -/
def text (document : FileDocument) (disk : Disk) : ByteArray :=
  MountedWriter.text ⟨document.sink.output, disk⟩

/-- A document has followed emissions into a file of a disk. -/
def Follows (front : ByteArray) (root : String) (file : Nat) (emissions : List Emission)
    (disk : Disk) (document : FileDocument) : Prop :=
  Document.Follows (MountedWriter.reliable disk file) front root emissions (document.mount disk)

variable {front : ByteArray} {root : String} {file : Nat} {emissions : List Emission}
  {disk disk' : Disk} {document : FileDocument}

/-- The writer of a document that has followed emissions is at the end of its file. -/
theorem Follows.atEnd (h : Follows front root file emissions disk document) :
    MountedWriter.AtEnd disk file ⟨document.sink.output, disk⟩ := h.1

/-- What happens elsewhere on the disk does not matter to a document. -/
theorem Follows.frame (h : Follows front root file emissions disk document)
    (hroom : disk'.room = none) (hfile : file < disk'.contents.size)
    (hcontents : disk'.contentsOf file = disk.contentsOf file) :
    Follows front root file emissions disk' document := by
  have hend := h.atEnd
  apply Document.Follows.withOutput h
  · refine ⟨hroom, hend.isFile, hfile, ?_, Disk.SameBut.refl file disk'⟩
    rw [hcontents]
    exact hend.offset
  · intro hsettled
    exact hsettled
  · show MountedWriter.text _ = MountedWriter.text _
    unfold MountedWriter.text
    show disk'.contentsOf document.sink.output.file ++ _ =
      disk.contentsOf document.sink.output.file ++ _
    have hisFile : document.sink.output.file = file := hend.isFile
    rw [hisFile, hcontents]
    rfl

/-- A document that was changed while it was mounted goes on following, and nothing but its file has
changed. -/
theorem follows_unmount {mounted : MountedDocument}
    (h : Document.Follows (MountedWriter.reliable disk file) front root emissions mounted) :
    Follows front root file emissions mounted.sink.output.disk (unmount mounted) ∧
      Disk.SameBut file disk mounted.sink.output.disk := by
  have hend : MountedWriter.AtEnd disk file mounted.sink.output := h.1
  refine ⟨Document.Follows.withOutput h ?_ ?_ ?_, hend.frame⟩
  · exact ⟨hend.room, hend.isFile, hend.inRange, hend.offset, Disk.SameBut.refl file _⟩
  · intro hsettled
    exact hsettled
  · rfl

/-- An emission to a document is followed if it is granted, and touches no other file. -/
theorem Follows.act_emit (h : Follows front root file emissions disk document)
    (emission : Emission) :
    let outcome := (act (Document.emit emission.path emission.template)) (document, disk)
    Follows front root file (emissions ++ Document.granted emission outcome.1) outcome.2.2
        outcome.2.1 ∧
      Disk.SameBut file disk outcome.2.2 :=
  follows_unmount (Document.Follows.emit h emission)

/-- Closing a document leaves it with what it followed and not live, and touches no other file. -/
theorem Follows.act_close (h : Follows front root file emissions disk document) :
    let outcome := (act Document.close) (document, disk)
    Follows front root file emissions outcome.2.2 outcome.2.1 ∧
      Disk.SameBut file disk outcome.2.2 ∧ outcome.2.1.status ≠ .live := by
  have hclose := Document.Follows.close h
  obtain ⟨hfollows, hframe⟩ := follows_unmount hclose.1
  exact ⟨hfollows, hframe, hclose.2⟩

/-- A live document takes exactly what can be written. -/
theorem Follows.act_emit_cases (h : Follows front root file emissions disk document)
    (hlive : document.status = .live) (emission : Emission) (hpath : emission.path ≠ []) :
    let outcome := (act (Document.emit emission.path emission.template)) (document, disk)
    (Document.IsWritable emission ∧ outcome.1 = .ok () ∧ outcome.2.1.status = .live) ∨
      (¬ Document.IsWritable emission ∧ ∃ error, outcome.1 = .error error) := by
  intro outcome
  have hmounted : (document.mount disk).status = .live := hlive
  rcases Document.emit_of_follows_cases emission h hmounted hpath with
    ⟨hwritable, left, hrun, hstill⟩ | ⟨hwritable, error, left, hrun⟩
  · simp only [Action.run] at hrun
    refine .inl ⟨hwritable, ?_, ?_⟩
    · simp only [outcome, act, hrun]
    · simp only [outcome, act, hrun]
      exact hstill
  · simp only [Action.run] at hrun
    refine .inr ⟨hwritable, error, ?_⟩
    simp only [outcome, act, hrun]

/-- A live document can be closed. -/
theorem Follows.act_close_of_live (h : Follows front root file emissions disk document)
    (hlive : document.status = .live) :
    let outcome := (act Document.close) (document, disk)
    outcome.1 = .ok () ∧ outcome.2.1.status = .closed := by
  intro outcome
  have hmounted : (document.mount disk).status = .live := hlive
  obtain ⟨left, hrun, hclosed, -⟩ := Document.close_of_live h hmounted
  simp only [Action.run] at hrun
  refine ⟨?_, ?_⟩
  · simp only [outcome, act, hrun]
  · simp only [outcome, act, hrun]
    exact hclosed

/-- What leaves a mounted document as it is leaves the disk as it is, too. -/
theorem act_of_run (document : FileDocument) (disk : Disk) {α : Type}
    {action : Action MountedDocument α} {result : Except Error α}
    (hrun : action.run (document.mount disk) = (result, document.mount disk)) :
    act action (document, disk) = (result, document, disk) := by
  simp only [Action.run] at hrun
  simp only [act, hrun]
  rfl

/-- A document that is not live refuses every emission and stays as it is. -/
theorem act_emit_of_not_live (disk : Disk) (hlive : document.status ≠ .live) (emission : Emission) :
    ∃ error, (act (Document.emit emission.path emission.template)) (document, disk) =
      (.error error, document, disk) := by
  by_cases hpath : emission.path = []
  · exact ⟨_, act_of_run document disk (Document.emit_of_path_eq_nil emission hpath)⟩
  cases hresolve : emission.template.resolve with
  | error error =>
    exact ⟨error, act_of_run document disk
      (Document.emit_of_resolve_eq_error emission hpath hresolve)⟩
  | ok elements =>
    have hmounted : (document.mount disk).status ≠ .live := hlive
    obtain ⟨error, hrun, -⟩ := Document.emit_of_not_live emission hpath hresolve hmounted
    exact ⟨error, act_of_run document disk hrun⟩

/-- A closed document has the reference document of what it followed, with nothing held back. -/
theorem Follows.of_closed (h : Follows front root file emissions disk document)
    (hclosed : document.status = .closed) :
    ∃ tree, Reference.tree? root emissions = some tree ∧ document.sink.output.buffer = .empty ∧
      document.text disk = front ++ tree.render.toUTF8 := by
  have hshown := h.2
  have hstatus : (document.mount disk).status = .closed := hclosed
  rw [hstatus] at hshown
  exact hshown

/-- Letting a document go brings its whole text to its file, and touches no other file. -/
theorem Follows.discard (h : Follows front root file emissions disk document) :
    Disk.SameBut file disk (document.discard disk) ∧
      (document.discard disk).contentsOf file = document.text disk := by
  obtain ⟨after, hflush, hend, hbuffer, -, htext⟩ := MountedWriter.flush_ok h.atEnd
  unfold FileDocument.discard
  rw [hflush]
  refine ⟨hend.frame, ?_⟩
  unfold text
  rw [← htext, MountedWriter.text, hbuffer, hend.isFile, ByteArray.append_empty]

end FileDocument

end XmlWorkload
