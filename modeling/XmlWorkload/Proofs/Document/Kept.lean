import XmlWorkload.Proofs.Disk.Room
import XmlWorkload.Proofs.Document.OnDisk

/-!
# Documents on a disk that may run full

A document that lies in a file of any disk keeps to the emissions that it took until it fails: up to
then it is in the state in which it would be on the same disk without its limit.  Main statements:
emitting and closing keep it that way and write to no other file (`FileDocument.Kept.act_emit`,
`FileDocument.Kept.act_close`), and a configuration error changes nothing
(`FileDocument.Kept.act_emit_of_configuration`).
-/

set_option autoImplicit false

namespace XmlWorkload

namespace FileDocument

/-- A document on a disk with the same document on the disk without its limit. -/
abbrev Lifted (before : Disk) (file : Nat) : MountedDocument → MountedDocument → Prop :=
  Document.Related (XmlStream.Related (MountedWriter.Lifted before file))

/-- A document that an error of its output left failed. -/
abbrev Faulted (before : Disk) (file : Nat) : Error → MountedDocument → MountedDocument → Prop :=
  Document.Parted (XmlStream.Parted fun mounted _ => MountedWriter.Within before file mounted)

/-- A document on a disk is lifted to the disk without its limit. -/
theorem lifted_mount (disk : Disk) (document : FileDocument) :
    Lifted disk document.sink.output.file (document.mount disk) (document.mount disk.unlimited) :=
  ⟨rfl, ⟨⟨⟨rfl, Disk.Wrote.refl _ disk⟩, rfl⟩, rfl, rfl, rfl⟩, rfl, rfl, rfl, rfl⟩

/-- A lifted document is the same document, on the same disk without its limit. -/
theorem Lifted.unmount_eq {before : Disk} {file : Nat} {mounted twin : MountedDocument}
    (h : Lifted before file mounted twin) :
    unmount twin = unmount mounted ∧
      twin.sink.output.disk = mounted.sink.output.disk.unlimited := by
  obtain ⟨label, ⟨output, frames, heldTag, next⟩, tree, cursor, status, emitted⟩ := mounted
  obtain ⟨label', ⟨output', frames', heldTag', next'⟩, tree', cursor', status', emitted'⟩ := twin
  obtain ⟨rfl, ⟨⟨-, rfl⟩, rfl, rfl, rfl⟩, rfl, rfl, rfl, rfl⟩ := h
  exact ⟨rfl, rfl⟩

/-- What an action does that goes on as without the limit until the document is failed.  It writes to
no file but that of the document. -/
theorem act_until {action : Action MountedDocument Unit} (document : FileDocument) {disk : Disk}
    (h : ∀ file, Action.AlikeUntil (Lifted disk file) (Faulted disk file) action action) :
    let outcome := act action (document, disk)
    let twin := act action (document, disk.unlimited)
    outcome.2.1.sink.output.file = document.sink.output.file ∧
      Disk.Wrote document.sink.output.file disk outcome.2.2 ∧
      (twin = (outcome.1, outcome.2.1, outcome.2.2.unlimited) ∨
        ∃ fault, outcome.1 = .error (.io fault) ∧ outcome.2.1.status = .failed (.io fault)) := by
  intro outcome twin
  rcases (h document.sink.output.file).outcome (lifted_mount disk document) with
    ⟨hresult, hlifted⟩ | ⟨error, herror, hstatus, ⟨fault, rfl⟩, hwithin⟩
  · obtain ⟨hwithin, -⟩ := hlifted.sink.output
    obtain ⟨hdocument, hdisk⟩ := hlifted.unmount_eq
    refine ⟨hwithin.isFile, hwithin.wrote, .inl ?_⟩
    exact Prod.ext hresult.symm (Prod.ext hdocument hdisk)
  · exact ⟨hwithin.isFile, hwithin.wrote, .inr ⟨fault, herror, hstatus⟩⟩

/-- Discarding a document writes to its file only. -/
theorem wrote_discard (document : FileDocument) (disk : Disk) :
    Disk.Wrote document.sink.output.file disk (document.discard disk) := by
  have hwithin : MountedWriter.Within disk document.sink.output.file
      ⟨document.sink.output, disk⟩ := ⟨rfl, Disk.Wrote.refl _ disk⟩
  exact hwithin.flush.wrote

/-- An emission comes to the same without the limit of the disk, until an error of the output. -/
theorem emit_lifted (disk : Disk) (emission : Emission) (file : Nat) :
    Action.AlikeUntil (Lifted disk file) (Faulted disk file)
      (Document.emit emission.path emission.template)
      (Document.emit emission.path emission.template) :=
  Document.emit_until (XmlStream.alikeUntil (MountedWriter.lifted_alikeUntil disk file)) _ _

/-- Closing comes to the same without the limit of the disk, until an error of the output. -/
theorem close_lifted (disk : Disk) (file : Nat) :
    Action.AlikeUntil (Lifted disk file) (Faulted disk file) Document.close Document.close :=
  Document.close_until (XmlStream.alikeUntil (MountedWriter.lifted_alikeUntil disk file))

/-- A document has failed, or it has followed emissions into its file as it would have without the
limit of the disk. -/
def Kept (front : ByteArray) (root : String) (emissions : List Emission) (disk : Disk)
    (document : FileDocument) : Prop :=
  (∃ reason, document.status = .failed reason) ∨
    Follows front root document.sink.output.file emissions disk.unlimited document

/-- What closing does to a document, with the result that it gives. -/
inductive Closes (before : FileDocument) : Except Error Unit → FileDocument → Prop where
  | again (h : before.status = .closed) : Closes before (.ok ()) before
  | unusable {reason : Error} (h : before.status = .failed reason) :
      Closes before (.error (.documentUnusable reason)) before
  | finished {after : FileDocument} (h : before.status = .live) (hafter : after.status = .closed) :
      Closes before (.ok ()) after
  | faulted {after : FileDocument} {error : Error} (h : before.status = .live)
      (hafter : after.status = .failed error) : Closes before (.error error) after

/-- Closing succeeds exactly when it leaves the document closed. -/
theorem Closes.ok_iff {before after : FileDocument} {result : Except Error Unit}
    (h : Closes before result after) : result = .ok () ↔ after.status = .closed := by
  cases h with
  | again hstatus | unusable hstatus => simp [hstatus]
  | finished _ hstatus | faulted _ hstatus => simp [hstatus]

/-- Closing a failed document gives the reason of its failure. -/
theorem Closes.of_failed {before after : FileDocument} {result : Except Error Unit}
    (h : Closes before result after) {reason : Error} (hfailed : before.status = .failed reason) :
    result = .error (.documentUnusable reason) := by
  cases h with
  | unusable hstatus =>
    rw [hfailed] at hstatus
    cases hstatus
    rfl
  | again hstatus | finished hstatus | faulted hstatus =>
    rw [hfailed] at hstatus
    cases hstatus

namespace Kept

variable {front : ByteArray} {root : String} {emissions : List Emission} {disk disk' : Disk}
  {document : FileDocument}

/-- A live document that was kept has followed its emissions. -/
theorem follows_of_live (h : Kept front root emissions disk document)
    (hlive : document.status = .live) :
    Follows front root document.sink.output.file emissions disk.unlimited document :=
  h.resolve_left fun ⟨_, hfailed⟩ => by simp [hlive] at hfailed

/-- A closed document that was kept has followed its emissions. -/
theorem follows_of_closed (h : Kept front root emissions disk document)
    (hclosed : document.status = .closed) :
    Follows front root document.sink.output.file emissions disk.unlimited document :=
  h.resolve_left fun ⟨_, hfailed⟩ => by simp [hclosed] at hfailed

/-- A document stays kept on a disk with the same contents of its file. -/
theorem frame (h : Kept front root emissions disk document)
    (hfile : document.sink.output.file < disk'.contents.size)
    (hcontents : disk'.contentsOf document.sink.output.file =
      disk.contentsOf document.sink.output.file) :
    Kept front root emissions disk' document :=
  h.imp_right fun hfollows => hfollows.frame rfl hfile hcontents

/-- A document stays kept when something is emitted to it, and follows what is granted. -/
theorem act_emit (h : Kept front root emissions disk document) (emission : Emission) :
    let outcome := act (Document.emit emission.path emission.template) (document, disk)
    Kept front root (emissions ++ Document.granted emission outcome.1) outcome.2.2 outcome.2.1 ∧
      outcome.2.1.sink.output.file = document.sink.output.file ∧
      Disk.Wrote document.sink.output.file disk outcome.2.2 := by
  intro outcome
  obtain ⟨hfile, hwrote, houtcome⟩ := act_until document (emit_lifted disk emission)
  refine ⟨?_, hfile, hwrote⟩
  rcases h with ⟨reason, hstatus⟩ | hfollows
  · have hdead : document.status ≠ .live := by simp [hstatus]
    obtain ⟨error, hrun⟩ := act_emit_of_not_live disk hdead emission
    exact .inl ⟨reason, by simp only [outcome, hrun, hstatus]⟩
  rcases houtcome with htwin | ⟨fault, -, hstatus⟩
  · have hafter := (hfollows.act_emit emission).1
    rw [htwin] at hafter
    right
    rw [hfile]
    exact hafter
  · exact .inl ⟨.io fault, hstatus⟩

/-- A document stays kept when it is closed. -/
theorem act_close (h : Kept front root emissions disk document) :
    let outcome := act Document.close (document, disk)
    Kept front root emissions outcome.2.2 outcome.2.1 ∧
      outcome.2.1.sink.output.file = document.sink.output.file ∧
      Disk.Wrote document.sink.output.file disk outcome.2.2 ∧
      Closes document outcome.1 outcome.2.1 := by
  intro outcome
  cases hstatus : document.status with
  | closed =>
    have hrun : outcome = _ := act_of_run document disk (Document.close_of_closed hstatus)
    rw [hrun]
    exact ⟨h, rfl, Disk.Wrote.refl _ _, .again hstatus⟩
  | failed reason =>
    have hrun : outcome = _ := act_of_run document disk (Document.close_of_failed hstatus)
    rw [hrun]
    exact ⟨h, rfl, Disk.Wrote.refl _ _, .unusable hstatus⟩
  | live =>
    obtain ⟨hfile, hwrote, htwin | ⟨fault, herror, hafter⟩⟩ :=
      act_until document (close_lifted disk)
    · have hfollows := h.follows_of_live hstatus
      obtain ⟨hok, hclosed⟩ := hfollows.act_close_of_live hstatus
      have hkept := hfollows.act_close.1
      rw [htwin] at hok hclosed hkept
      refine ⟨?_, hfile, hwrote, ?_⟩
      · right
        rw [hfile]
        exact hkept
      · rw [show outcome.1 = .ok () from hok]
        exact .finished hstatus hclosed
    · refine ⟨.inl ⟨.io fault, hafter⟩, hfile, hwrote, ?_⟩
      rw [show outcome.1 = .error (.io fault) from herror]
      exact .faulted hstatus hafter

/-- A closed document has the reference document of what it took in its file, and holds nothing
back. -/
theorem of_closed (h : Kept front root emissions disk document)
    (hclosed : document.status = .closed) :
    ∃ tree, Reference.tree? root emissions = some tree ∧ document.sink.output.buffer = .empty ∧
      disk.contentsOf document.sink.output.file = front ++ tree.render.toUTF8 := by
  obtain ⟨tree, htree, hbuffer, htext⟩ := (h.follows_of_closed hclosed).of_closed hclosed
  refine ⟨tree, htree, hbuffer, ?_⟩
  rw [text, MountedWriter.text, hbuffer, ByteArray.append_empty] at htext
  exact htext

/-- Letting a closed document go changes nothing in its file. -/
theorem discard_of_closed (h : Kept front root emissions disk document)
    (hclosed : document.status = .closed) :
    (document.discard disk).contentsOf document.sink.output.file =
      disk.contentsOf document.sink.output.file := by
  obtain ⟨-, -, hbuffer, -⟩ := h.of_closed hclosed
  have hend := (h.follows_of_closed hclosed).atEnd
  have hoffset : document.sink.output.offset =
    (disk.contentsOf document.sink.output.file).size := hend.offset
  unfold discard MountedWriter.flush MountedWriter.writeThrough
  simp only [hbuffer, hoffset]
  exact Disk.contentsOf_writeAt_empty hend.inRange

/-- A configuration error leaves a document as it is. -/
theorem act_emit_of_configuration (h : Kept front root emissions disk document)
    {emission : Emission} {error : Error}
    (hrun : (act (Document.emit emission.path emission.template) (document, disk)).1 = .error error)
    (hseverity : error.severity = .configuration) :
    act (Document.emit emission.path emission.template) (document, disk) =
      (.error error, document, disk) := by
  have hsame : ∀ error', (act (Document.emit emission.path emission.template) (document, disk)) =
      (.error error', document, disk) → error' = error := by
    intro error' hrun'
    rw [hrun'] at hrun
    cases hrun
    rfl
  by_cases hpath : emission.path = []
  · have hrun' := act_of_run document disk (Document.emit_of_path_eq_nil emission hpath)
    rwa [hsame _ hrun'] at hrun'
  cases hresolve : emission.template.resolve with
  | error fault =>
    have hrun' := act_of_run document disk
      (Document.emit_of_resolve_eq_error emission hpath hresolve)
    rwa [hsame _ hrun'] at hrun'
  | ok elements =>
    -- a template that resolves is refused for its names or by the disk, or the document is not live
    exfalso
    by_cases hlive : document.status = .live
    · obtain ⟨-, -, htwin | ⟨fault, herror, -⟩⟩ :=
        act_until document (emit_lifted disk emission)
      · have hemit := Document.emit_of_follows emission (h.follows_of_live hlive) hlive hpath hresolve
        have herror : ((Document.emit emission.path emission.template).run
            (document.mount disk.unlimited)).1 = .error error :=
          (congrArg Prod.fst htwin).trans hrun
        split at hemit
        · obtain ⟨left, hok, -⟩ := hemit
          rw [hok] at herror
          cases herror
        · obtain ⟨left, hinvalid, -⟩ := hemit
          rw [hinvalid] at herror
          cases herror
          cases hseverity
      · rw [hrun] at herror
        cases herror
        cases hseverity
    · have hmounted : (document.mount disk).status ≠ .live := hlive
      obtain ⟨fault, hrun', hlifecycle⟩ :=
        Document.emit_of_not_live emission hpath hresolve hmounted
      rw [hsame _ (act_of_run document disk hrun'), hseverity] at hlifecycle
      cases hlifecycle

end Kept

end FileDocument

namespace XmlStream

/-- What is written in front of the root. -/
def frontPieces (declared : Bool) : List String := if declared then declarationPieces else []

/-- The pieces in front of a document are as long as its prologue. -/
theorem size_frontPieces (declared : Bool) :
    ((frontPieces declared).map fun piece => piece.toUTF8.size).sum =
      (Reference.prologue declared).toUTF8.size := by
  cases declared <;> decide

/-- A stream with a root that has a name is made by writing what stands in front of the root. -/
theorem create_eq {ω : Type} [Output ω] {root : String} (hroot : Name.isValid root = true)
    (output : ω) (declared : Bool) :
    create output root declared =
      match Output.writePieces (frontPieces declared) output with
      | (.ok (), left) => (.ok (start left root), left)
      | (.error fault, left) => (.error (.io fault), left) := by
  unfold create
  rw [(Name.validate_eq_ok_iff root).2 hroot]
  cases declared with
  | false => rfl
  | true =>
    simp only [emit, frontPieces, if_true, start]
    rcases Output.writePieces declarationPieces output with ⟨⟨⟩ | ⟨⟩, left⟩ <;> rfl

end XmlStream

namespace FileDocument

/-- A document whose stream was made at the start of an empty file has kept to nothing yet. -/
theorem kept_new {disk : Disk} {file : Nat} (hfile : file < disk.contents.size)
    (hempty : disk.contentsOf file = .empty) {root : String} (hroot : Name.isValid root = true)
    (declared : Bool) {capacity : Nat} {left : MountedWriter}
    (hwrite : Output.writePieces (XmlStream.frontPieces declared)
      (⟨⟨file, 0, .empty, capacity⟩, disk⟩ : MountedWriter) = (.ok (), left)) (label : String) :
    left.text = (Reference.prologue declared).toUTF8 ∧
      Kept (Reference.prologue declared).toUTF8 root [] left.disk
        (unmount (.new label (XmlStream.start left root))) := by
  let writer : MountedWriter := ⟨⟨file, 0, .empty, capacity⟩, disk⟩
  have hholds : (MountedWriter.reliable disk.unlimited file).holds writer.unlimited :=
    ⟨rfl, rfl, hfile, (congrArg ByteArray.size hempty).symm, Disk.SameBut.refl _ _⟩
  have htaken : (MountedWriter.reliable disk.unlimited file).taken writer.unlimited = .empty := by
    show disk.contentsOf file ++ .empty = _
    rw [hempty, ByteArray.append_empty]
  have htwin : Output.writePieces (XmlStream.frontPieces declared) writer.unlimited =
      (.ok (), left.unlimited) := by
    have hfullOr := MountedWriter.writePieces_fullOr writer (XmlStream.frontPieces declared)
    rw [hwrite] at hfullOr
    rcases hfullOr with hfull | ⟨-, hsame⟩
    · cases hfull
    · exact hsame
  obtain ⟨stream, hcreate, hshows⟩ := Document.create_ok hholds hroot declared
  rw [XmlStream.create_eq hroot, htwin] at hcreate
  obtain rfl : XmlStream.start left.unlimited root = stream := by
    cases hcreate
    rfl
  rw [htaken, ByteArray.empty_append] at hshows
  have hends : left.writer.file = file := hshows.holds.isFile
  refine ⟨?_, .inr ?_⟩
  · have htext : left.unlimited.text = _ := hshows.taken
    rw [show (Draft.new root).text = "" from rfl] at htext
    exact htext.trans (by simp)
  · have hfollows := (follows_unmount (Document.follows_new label hshows)).1
    rw [← hends] at hfollows
    exact hfollows

end FileDocument

end XmlWorkload
