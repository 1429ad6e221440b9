import XmlWorkload.Proofs.Document.Twin
import XmlWorkload.Proofs.Set.Making

/-!
# Sets as documents on disks of their own

The documents of a set do not disturb one another: each is in the state that it would be in on a
disk of its own, where nothing but what concerns it happened to it.  Main statements: every
operation on a set acts on the document concerned as it would there, and on no other
(`MountedSet.Mirrors.acquire`, `MountedSet.Mirrors.emitTo`, `MountedSet.Mirrors.release`); and when
the set is closed every document is left behind as it would be there
(`MountedSet.Mirrors.closeDocuments`).
-/

set_option autoImplicit false

namespace XmlWorkload

/-- What can be seen of a document. -/
structure DocumentView where
  status : Status
  cursor : List String
  /-- The number of templates that were written. -/
  emitted : Nat
  /-- What was written to the document. -/
  text : ByteArray
  /-- What the file of the document has received of it. -/
  stored : ByteArray

/-- What can be seen of a document of a set. -/
def SharedDocument.view (disk : Disk) (shared : SharedDocument) : DocumentView :=
  ⟨shared.document.status, shared.document.cursor, shared.document.emitted, shared.text disk,
    disk.contentsOf shared.document.sink.output.file⟩

/-- What can be seen of the document with a number. -/
def MountedSet.view? (mounted : MountedSet) (number : Nat) : Option DocumentView :=
  mounted.set.documents[number]?.map (SharedDocument.view mounted.disk)

namespace Document

/-- What can be seen of a document on a disk. -/
def view (document : MountedDocument) : DocumentView :=
  ⟨document.status, document.cursor, document.emitted, document.sink.output.text,
    document.sink.output.disk.contentsOf document.sink.output.writer.file⟩

/-- What can be seen of a document that is closed and let go, with all of it in its file. -/
def leftBehind (document : MountedDocument) : DocumentView :=
  { view (close.run document).2 with stored := (close.run document).2.sink.output.text }

end Document

/-- Twins look the same as long as somebody can use them. -/
theorem FileDocument.Twin.view_eq {file : Nat} {disk : Disk} {shared : SharedDocument}
    {lone : MountedDocument} (h : FileDocument.Twin file disk shared.document lone)
    (hheld : shared.holders ≠ 0) : shared.view disk = lone.view := by
  unfold SharedDocument.view SharedDocument.text
  rw [if_neg hheld, h.text_eq, h.contents_eq]
  show DocumentView.mk _ _ _ _ _ = DocumentView.mk _ _ _ _ _
  rw [DocumentView.mk.injEq]
  exact ⟨h.status, h.cursor, h.emitted, rfl, rfl⟩

namespace MountedSet

/-- A writer on a disk of its own that nothing was written to. -/
def loneWriter (engine : Engine) : MountedWriter :=
  ⟨⟨0, 0, .empty, engine.bufferSize⟩, .lone⟩

/-- The writer of a document with a disk of its own is at the end of its file. -/
theorem atEnd_loneWriter (engine : Engine) : MountedWriter.AtEnd .lone 0 (loneWriter engine) :=
  ⟨rfl, rfl, Nat.one_pos, rfl, Disk.SameBut.refl 0 .lone⟩

/-- The stream of a document with a valid root can be made on a disk of its own. -/
theorem exists_loneStream (engine : Engine) {root : String} (hroot : Name.isValid root = true) :
    ∃ stream written,
      XmlStream.create (loneWriter engine) root engine.declaration = (.ok stream, written) := by
  have hholds : (MountedWriter.reliable .lone 0).holds (loneWriter engine) := atEnd_loneWriter engine
  obtain ⟨stream, hstream, -⟩ := Document.create_ok hholds hroot engine.declaration
  exact ⟨stream, _, hstream⟩

/-- Every document of a set is in the state of the document that stands for its index on a disk of
its own.  `made` are the indices under which documents were made since the set was `origin`. -/
def Mirrors (origin : MountedSet) (made : List Nat) (lone : Nat → MountedDocument)
    (mounted : MountedSet) : Prop :=
  ∀ (number : Nat) (shared : SharedDocument), mounted.set.documents[number]? = some shared →
    ∀ index, made[number]? = some index →
      FileDocument.Twin (origin.disk.contents.size + number) mounted.disk shared.document
        (lone index)

variable {origin : MountedSet} {made claims pending : List Nat} {taken : Nat → List Emission}
  {mounted : MountedSet} {lone : Nat → MountedDocument}

/-- A document that is made is in the state in which it would be made on a disk of its own. -/
theorem twin_addDocument {left : MountedSet} {index number : Nat}
    {stream : XmlStream MountedWriter} {written : MountedWriter}
    (hroom : mounted.disk.room = none)
    (hstream : XmlStream.create (loneWriter mounted.set.engine) mounted.set.root
      mounted.set.engine.declaration = (.ok stream, written))
    (hrun : (addDocument index).run mounted = (.ok number, left)) :
    ∃ document, left.set.documents = mounted.set.documents.push ⟨document, 1⟩ ∧
      FileDocument.Twin mounted.disk.contents.size left.disk document
        (Document.new (mounted.set.filePath index) stream) := by
  simp only [Action.run, addDocument] at hrun
  rcases hcreate : mounted.disk.createFile (mounted.set.filePath index) with ⟨fault | file, disk⟩
  · rw [hcreate] at hrun
    cases fault <;> cases hrun
  obtain ⟨rfl, hdisk, hcontents⟩ := Disk.createFile_ok hcreate
  rw [hcreate] at hrun
  let file := mounted.disk.contents.size
  let writer : MountedWriter := ⟨⟨file, 0, .empty, mounted.set.engine.bufferSize⟩, disk⟩
  have hempty : disk.contentsOf file = .empty := by
    rw [Disk.contentsOf_push hcontents]
    exact Disk.contentsOf_size mounted.disk
  have hsize : file < disk.contents.size := by
    rw [hcontents, Array.size_push]
    exact Nat.lt_succ_self _
  have hwriter : FileDocument.WritesAlone file disk writer (loneWriter mounted.set.engine) :=
    { ends := ⟨hdisk.trans hroom, rfl, hsize, by rw [hempty]; rfl, Disk.SameBut.refl file disk⟩
      ends' := atEnd_loneWriter mounted.set.engine
      contents := hempty
      buffer := rfl
      capacity := rfl }
  simp only at hrun
  rcases hmake : XmlStream.create writer mounted.set.root mounted.set.engine.declaration with
    ⟨error | stream', written'⟩
  · simp only [writer, file] at hmake
    rw [hmake] at hrun
    cases hrun
  obtain ⟨stream'', written'', hmake', hrelated⟩ := XmlStream.create_related
    (MountedWriter.twin_alike disk file .lone 0) hwriter hmake
  rw [hstream] at hmake'
  cases hmake'
  simp only [writer, file] at hmake
  rw [hmake] at hrun
  cases hrun
  have hdocument := Document.new_related (FileDocument.writesAlone_alike file disk)
    (mounted.set.filePath index) hrelated
  exact ⟨_, rfl, (FileDocument.twin_unmount hdocument).1⟩

namespace Mirrors

/-- One of the documents was changed.  If it is in the state of the document that stands for its
index now, and no other file was touched, all documents are. -/
theorem modify (h : Sound origin made claims pending taken mounted)
    (hmirrors : Mirrors origin made lone mounted) {index number : Nat}
    (hindex : made[number]? = some index) {change : SharedDocument → SharedDocument} {disk : Disk}
    {lone' : Nat → MountedDocument}
    (hframe : Disk.SameBut (origin.disk.contents.size + number) mounted.disk disk)
    (htwin : ∀ shared, mounted.set.documents[number]? = some shared →
      FileDocument.Twin (origin.disk.contents.size + number) disk (change shared).document
        (lone' index))
    (hothers : ∀ other, other ≠ index → lone' other = lone other) :
    Mirrors origin made lone'
      ⟨{ mounted.set with documents := mounted.set.documents.modify number change }, disk⟩ := by
  apply forall_modify
  · -- the other documents have other indices, and their files were not touched
    intro other shared hne hshared other' hother'
    have hindexNe : other' ≠ index := by
      rintro rfl
      exact hne (h.ledger.eq_of_index hother' hindex)
    have hlt : other < made.length := (List.getElem?_eq_some_iff.1 hother').1
    rw [hothers other' hindexNe]
    apply (hmirrors other shared hshared other' hother').frame (hframe.room.trans h.room)
    · rw [hframe.size, h.files]
      omega
    · apply hframe.others
      omega
  · intro shared hshared index' hindex'
    rw [hindex] at hindex'
    cases hindex'
    exact htwin shared hshared

/-- Taking hold of a document keeps what the documents mirror. -/
theorem hold (hmirrors : Mirrors origin made lone mounted) (number : Nat) :
    Mirrors origin made lone (mounted.hold number) :=
  forall_modify (fun other shared _ hshared => hmirrors other shared hshared)
    (fun shared hshared => hmirrors number shared hshared)

/-- Writing to a document gives the result that it gives on a disk of its own, and changes the
document in the same way. -/
theorem emitTo (h : Sound origin made claims pending taken mounted)
    (hmirrors : Mirrors origin made lone mounted) {index number : Nat}
    (hindex : made[number]? = some index) (emission : Emission) {lone' : Nat → MountedDocument}
    (hwritten : lone' index =
      ((Document.emit emission.path emission.template).run (lone index)).2)
    (hothers : ∀ other, other ≠ index → lone' other = lone other) :
    let outcome := (MountedSet.emitTo number emission.path emission.template).run mounted
    outcome.1 = ((Document.emit emission.path emission.template).run (lone index)).1 ∧
      Mirrors origin made lone' outcome.2 := by
  intro outcome
  obtain ⟨shared, -, hshared, -⟩ := h.ledger.exists_shared (List.getElem?_eq_some_iff.1 hindex).1
  have htwin := hmirrors number shared hshared index hindex
  obtain ⟨hresult, hleft, hframe⟩ := htwin.act_emit emission
  have houtcome := onDocument_eq hshared (Document.emit emission.path emission.template)
  change outcome = _ at houtcome
  rw [houtcome]
  refine ⟨hresult, modify h hmirrors hindex hframe ?_ hothers⟩
  intro _ _
  rw [hwritten]
  exact hleft

/-- In an open set a caller that lets a document go is not the last that can use it, so nothing
happens to the document. -/
theorem release {number : Nat} (h : Sound origin made (number :: claims) pending taken mounted)
    (hopen : mounted.set.isClosed = false) (hmirrors : Mirrors origin made lone mounted) :
    Mirrors origin made lone (mounted.release number) := by
  have hnumber := h.claimed number List.mem_cons_self
  obtain ⟨shared, index, hshared, hindex⟩ := h.ledger.exists_shared hnumber
  -- the registry of an open set holds the document besides the caller
  have hholders : shared.holders ≠ 1 := by
    have hcount := h.holders number shared hshared
    have hregistered := h.ledger.count_registry hnumber
    rw [if_neg (by simp [hopen])] at hregistered
    rw [List.count_append, List.count_cons_self] at hcount
    omega
  rw [release_eq hshared, if_neg hholders]
  exact forall_modify (fun other shared _ hshared => hmirrors other shared hshared)
    (fun shared hshared => hmirrors number shared hshared)

/-- A document that was added in a file of its own is mirrored if it is in the state of the document
that stands for its index. -/
theorem push (h : Sound origin made claims pending taken mounted)
    (hmirrors : Mirrors origin made lone mounted) {index : Nat} {left : MountedSet}
    {document : FileDocument}
    (hdocuments : left.set.documents = mounted.set.documents.push ⟨document, 1⟩)
    (hroom : left.disk.room = none)
    (hsize : left.disk.contents.size = mounted.disk.contents.size + 1)
    (hcontents : ∀ file, file < mounted.disk.contents.size →
      left.disk.contentsOf file = mounted.disk.contentsOf file)
    (htwin : FileDocument.Twin mounted.disk.contents.size left.disk document (lone index)) :
    Mirrors origin (made ++ [index]) lone left := by
  intro number shared hshared other hother
  rw [hdocuments, Array.getElem?_push, h.count] at hshared
  have hfiles := h.files
  by_cases hlast : number = made.length
  · rw [if_pos hlast] at hshared
    cases hshared
    rw [hlast, List.getElem?_concat_length] at hother
    cases hother
    rw [hlast, ← hfiles]
    exact htwin
  · rw [if_neg hlast] at hshared
    have hlt : number < made.length := by
      rw [← h.count]
      exact (Array.getElem?_eq_some_iff.1 hshared).1
    rw [List.getElem?_append_left hlt] at hother
    apply (hmirrors number shared hshared other hother).frame hroom
    · omega
    · apply hcontents
      omega

/-- In an open set each document looks as it would on a disk of its own. -/
theorem view?_eq (h : Sound origin made claims pending taken mounted)
    (hopen : mounted.set.isClosed = false) (hmirrors : Mirrors origin made lone mounted)
    {number index : Nat} (hindex : made[number]? = some index) :
    mounted.view? number = some (lone index).view := by
  obtain ⟨shared, -, hshared, -⟩ := h.ledger.exists_shared (List.getElem?_eq_some_iff.1 hindex).1
  have htwin := hmirrors number shared hshared index hindex
  unfold view?
  rw [hshared, Option.map_some, htwin.view_eq (h.ledger.holders_of_open hopen hshared)]

/-- Looking a document up changes no document, and one that it makes is in the state in which it
would be made on a disk of its own. -/
theorem acquire (h : Sound origin made claims pending taken mounted)
    (hopen : mounted.set.isClosed = false) (hmirrors : Mirrors origin made lone mounted)
    {index : Nat} {stream : XmlStream MountedWriter} {written : MountedWriter}
    (hstream : XmlStream.create (loneWriter origin.set.engine) origin.set.root
      origin.set.engine.declaration = (.ok stream, written))
    (hlone : index ∉ made → lone index = Document.new (origin.set.filePath index) stream) :
    let outcome := (MountedSet.acquire index).run mounted
    let growth := outcome.2.set.documents.size - mounted.set.documents.size
    Mirrors origin (made ++ List.replicate growth index) lone outcome.2 := by
  intro outcome growth
  have hclosed : ¬ mounted.set.isClosed = true := by simp [hopen]
  cases hfound : mounted.find? index with
  | some number =>
    have hrun : outcome = (.ok number, mounted.hold number) := run_acquire_of_find? hopen hfound
    have hgrowth : growth = 0 := by
      simp only [growth, hrun, MountedSet.hold, Array.size_modify, Nat.sub_self]
    rw [hrun, hgrowth, List.replicate_zero, List.append_nil]
    exact hold hmirrors number
  | none =>
    have hnew := (h.ledger.find?_eq_none_iff hopen).1 hfound
    rcases h.addDocument hclosed hnew with
      ⟨left, disk, -, hrun, hcreate, hframe, -, -, -, hsound⟩ | ⟨error, -, -, hrun, -⟩
    · have hacquire : outcome = (.ok made.length, left.hold made.length) :=
        run_acquire_of_addDocument hopen hfound hrun
      rw [← h.root, ← h.engine] at hstream
      obtain ⟨document, hdocuments, htwin⟩ := twin_addDocument h.room hstream hrun
      have hgrowth : growth = 1 := by
        simp only [growth, hacquire, MountedSet.hold, Array.size_modify, hdocuments,
          Array.size_push, Nat.add_sub_cancel_left]
      rw [hacquire, hgrowth, List.replicate_one]
      obtain ⟨-, hdisk, hcontents⟩ := Disk.createFile_ok hcreate
      apply hold
      apply push h hmirrors hdocuments hsound.room
      · rw [hframe.size, hcontents, Array.size_push]
      · intro file hfile
        rw [hframe.others file (Nat.ne_of_lt hfile)]
        exact Disk.contentsOf_push hcontents file
      · rw [hlone hnew, DocumentSet.filePath, ← h.directory]
        exact htwin
    · have hacquire : outcome = (.error error, mounted) :=
        run_acquire_of_addDocument_error hopen hfound hrun
      have hgrowth : growth = 0 := by
        simp only [growth, hacquire, Nat.sub_self]
      rw [hacquire, hgrowth, List.replicate_zero, List.append_nil]
      exact hmirrors

end Mirrors

end MountedSet

end XmlWorkload
