import XmlWorkload.Proofs.Set.Intact

/-!
# Documents that are added on a disk that others use

A lookup of an index that is not in use makes a file and writes what stands in front of the root.
The file may be there already or its directory missing, and the disk may be full.  Main statement:
what a lookup comes to in each of these cases (`MountedSet.Intact.acquire_cases`).
-/

set_option autoImplicit false

namespace XmlWorkload

/-- There is room for so many bytes on a disk. -/
def Disk.HasRoom (count : Nat) (disk : Disk) : Prop := ∀ room, disk.room = some room → count ≤ room

/-- A document that was just made: nothing was written to it, and its root is held back. -/
structure FileDocument.IsNew (declared : Bool) (root : String) (disk : Disk)
    (document : FileDocument) : Prop where
  status : document.status = .live
  cursor : document.cursor = []
  emitted : document.emitted = 0
  tree : document.tree = .new 0
  heldTag : document.sink.heldTag = some ⟨root, []⟩
  text : document.text disk = (Reference.prologue declared).toUTF8
  kept : document.Kept (Reference.prologue declared).toUTF8 root [] disk

namespace MountedSet

/-- The error of a lookup that could not make a file. -/
def creationError (path : String) : IoFault → Error
  | .alreadyExists => .fileExists path
  | fault => .io fault

/-- The set with a document added under an index. -/
def adding (mounted : MountedSet) (index : Nat) (document : FileDocument) (disk : Disk) :
    MountedSet :=
  ⟨{ mounted.set with
      registry := mounted.set.registry ++ [(index, mounted.set.documents.size)]
      documents := mounted.set.documents.push ⟨document, 1⟩ }, disk⟩

/-- Making a document comes to one of these: the file cannot be made, there is no room for what
stands in front of the root, or the document is added. -/
theorem addDocument_cases (mounted : MountedSet) (index : Nat)
    (hroot : Name.isValid mounted.set.root = true) :
    let path := mounted.set.filePath index
    let prologue := (Reference.prologue mounted.set.engine.declaration).toUTF8
    let outcome := (addDocument index).run mounted
    (∃ fault, mounted.disk.createFile path = (.error fault, mounted.disk) ∧
      outcome = (.error (creationError path fault), mounted)) ∨
    ∃ made disk, mounted.disk.createFile path = (.ok mounted.disk.contents.size, made) ∧
      Disk.Wrote mounted.disk.contents.size made disk ∧
      (¬ mounted.disk.HasRoom prologue.size ∧
          outcome = (.error (.io .deviceFull), ⟨mounted.set, disk⟩) ∨
        ∃ document : FileDocument, outcome =
            (.ok mounted.set.documents.size, mounted.adding index document disk) ∧
          document.sink.output.file = mounted.disk.contents.size ∧
          document.IsNew mounted.set.engine.declaration mounted.set.root disk) := by
  intro path prologue outcome
  rcases hcreate : mounted.disk.createFile path with ⟨fault | file, made⟩
  · obtain rfl := Disk.createFile_error hcreate
    refine .inl ⟨fault, rfl, ?_⟩
    simp only [outcome, Action.run, addDocument, path] at hcreate ⊢
    rw [hcreate]
    cases fault <;> rfl
  right
  obtain ⟨rfl, hroom, hcontents⟩ := Disk.createFile_ok hcreate
  let file := mounted.disk.contents.size
  let writer : MountedWriter := ⟨⟨file, 0, .empty, mounted.set.engine.bufferSize⟩, made⟩
  have hfile : file < made.contents.size := by
    rw [hcontents, Array.size_push]
    exact Nat.lt_succ_self _
  have hempty : made.contentsOf file = .empty := by
    rw [Disk.contentsOf_push hcontents]
    exact Disk.contentsOf_size mounted.disk
  -- the stream is made by writing its front to the empty file, which the disk cuts short or not
  let pieces := XmlStream.frontPieces mounted.set.engine.declaration
  have hstart : MountedWriter.Within made file writer := ⟨rfl, Disk.Wrote.refl _ _⟩
  have hwithin := hstart.writePieces pieces
  have hfullOr := MountedWriter.writePieces_fullOr writer pieces
  have hstream := XmlStream.create_eq hroot writer mounted.set.engine.declaration
  rcases hwrite : Output.writePieces pieces writer with ⟨result, left⟩
  rw [hwrite] at hwithin hfullOr hstream
  rcases hfullOr with hfull | ⟨hok, -⟩
  · obtain rfl : result = .error .deviceFull := hfull
    refine ⟨made, left.flush.2.disk, rfl, hwithin.flush.wrote, .inl ⟨?_, ?_⟩⟩
    · intro hhas
      have hfits : writer.Fits (pieces.map fun piece => piece.toUTF8.size).sum := by
        intro room hmade
        rw [XmlStream.size_frontPieces]
        exact (Nat.zero_add _).trans_le (hhas room (hroom.symm.trans hmade))
      have hok := hfits.writePieces
      rw [hwrite] at hok
      cases hok
    · simp only [outcome, Action.run, addDocument]
      rw [hcreate]
      simp only [writer, file] at hstream
      simp only [hstream]
  · obtain rfl : result = .ok () := hok
    obtain ⟨htext, hkept⟩ := FileDocument.kept_new hfile hempty hroot
      mounted.set.engine.declaration hwrite path
    refine ⟨made, left.disk, rfl, hwithin.wrote, .inr ⟨FileDocument.unmount
      (.new path (XmlStream.start left mounted.set.root)), ?_, hwithin.isFile, ?_⟩⟩
    · simp only [outcome, Action.run, addDocument]
      rw [hcreate]
      simp only [writer, file] at hstream
      simp only [hstream]
      rfl
    · exact ⟨rfl, rfl, rfl, rfl, rfl, htext, hkept⟩

/-- What a lookup can come to, when `made` are the indices under which documents were made. -/
inductive Acquires (made : List Nat) (index : Nat) (mounted : MountedSet) :
    Except Error Nat × MountedSet → Prop where
  | closed (hclosed : mounted.set.isClosed = true) :
      Acquires made index mounted (.error .documentSetClosed, mounted)
  | found (hopen : mounted.set.isClosed = false) {number : Nat}
      (hindex : made[number]? = some index) :
      Acquires made index mounted (.ok number, mounted.hold number)
  /-- No file can be made. -/
  | refused (hopen : mounted.set.isClosed = false) (hnew : index ∉ made) {fault : IoFault}
      (hcreate : mounted.disk.createFile (mounted.set.filePath index) = (.error fault, mounted.disk)) :
      Acquires made index mounted
        (.error (creationError (mounted.set.filePath index) fault), mounted)
  /-- The file was made, but there is no room for what stands in front of the root. -/
  | full (hopen : mounted.set.isClosed = false) (hnew : index ∉ made) {before disk : Disk}
      (hcreate : mounted.disk.createFile (mounted.set.filePath index) =
        (.ok mounted.disk.contents.size, before))
      (hwrote : Disk.Wrote mounted.disk.contents.size before disk)
      (hroom : ¬ mounted.disk.HasRoom
        (Reference.prologue mounted.set.engine.declaration).toUTF8.size) :
      Acquires made index mounted (.error (.io .deviceFull), ⟨mounted.set, disk⟩)
  | added (hopen : mounted.set.isClosed = false) (hnew : index ∉ made) {before disk : Disk}
      (hcreate : mounted.disk.createFile (mounted.set.filePath index) =
        (.ok mounted.disk.contents.size, before))
      (hwrote : Disk.Wrote mounted.disk.contents.size before disk) {document : FileDocument}
      (hfile : document.sink.output.file = mounted.disk.contents.size)
      (hfresh : document.IsNew mounted.set.engine.declaration mounted.set.root disk) :
      Acquires made index mounted
        (.ok made.length, (mounted.adding index document disk).hold made.length)

/-- What was made and written behind all files of a disk left these alone. -/
theorem contentsOf_of_wrote {disk made after : Disk} {path : String}
    (hcreate : disk.createFile path = (.ok disk.contents.size, made))
    (hwrote : Disk.Wrote disk.contents.size made after) {file : Nat}
    (hfile : file < disk.contents.size) : after.contentsOf file = disk.contentsOf file := by
  obtain ⟨-, -, hcontents⟩ := Disk.createFile_ok hcreate
  rw [hwrote.others file (Nat.ne_of_lt hfile)]
  exact Disk.contentsOf_push hcontents file

/-- A disk has one file more after a file was made and written to. -/
theorem size_of_wrote {disk made after : Disk} {path : String}
    (hcreate : disk.createFile path = (.ok disk.contents.size, made))
    (hwrote : Disk.Wrote disk.contents.size made after) :
    after.contents.size = disk.contents.size + 1 := by
  obtain ⟨-, -, hcontents⟩ := Disk.createFile_ok hcreate
  rw [hwrote.size, hcontents, Array.size_push]

namespace Intact

variable {origin : DocumentSet} {made claims : List Nat} {taken : Nat → List Emission}
  {mounted left : MountedSet} {number index : Nat}

/-- Everything that looking up a document can come to, with what holds of it. -/
theorem acquire_cases (h : Intact origin made claims taken mounted) (index : Nat) :
    Acquires made index mounted ((MountedSet.acquire index).run mounted) := by
  cases hclosed : mounted.set.isClosed with
  | true =>
    rw [run_acquire_of_closed hclosed]
    exact .closed hclosed
  | false =>
    cases hfound : mounted.find? index with
    | some number =>
      rw [run_acquire_of_find? hclosed hfound]
      exact .found hclosed ((h.ledger.find?_eq_some_iff hclosed).1 hfound)
    | none =>
      have hnew := (h.ledger.find?_eq_none_iff hclosed).1 hfound
      have hroot : Name.isValid mounted.set.root = true := by
        rw [h.root]
        exact h.validRoot
      obtain ⟨fault, hcreate, hrun⟩ | ⟨before, disk, hcreate, hwrote,
        ⟨hroom, hrun⟩ | ⟨document, hrun, hfile, hfresh⟩⟩ := addDocument_cases mounted index hroot
      · rw [run_acquire_of_addDocument_error hclosed hfound hrun]
        exact .refused hclosed hnew hcreate
      · rw [run_acquire_of_addDocument_error hclosed hfound hrun]
        exact .full hclosed hnew hcreate hwrote hroom
      · rw [h.ledger.count] at hrun
        rw [run_acquire_of_addDocument hclosed hfound hrun]
        exact .added hclosed hnew hcreate hwrote hfile hfresh

/-- Adding a document leaves the set intact. -/
theorem adding (h : Intact origin made claims taken mounted)
    (hopen : mounted.set.isClosed = false) (hnew : index ∉ made) {document : FileDocument}
    {disk : Disk} (hsize : disk.contents.size = mounted.disk.contents.size + 1)
    (hcontents : ∀ file, file < mounted.disk.contents.size →
      disk.contentsOf file = mounted.disk.contentsOf file)
    (hfile : document.sink.output.file = mounted.disk.contents.size)
    (hkept : document.Kept (front origin) origin.root [] disk) :
    Intact origin (made ++ [index]) claims taken (mounted.adding index document disk) ∧
      Spares made.length mounted (mounted.adding index document disk) := by
  -- a document is the one that was added, or was there before under the same number
  have hdocuments : ∀ (number : Nat) (shared : SharedDocument),
      (mounted.set.documents.push ⟨document, 1⟩)[number]? = some shared →
        (number = made.length ∧ shared = ⟨document, 1⟩) ∨
          (number < made.length ∧ mounted.set.documents[number]? = some shared) := by
    intro number shared hshared
    rw [Array.getElem?_push, h.ledger.count] at hshared
    by_cases hlast : number = made.length
    · rw [if_pos hlast] at hshared
      exact .inl ⟨hlast, (Option.some.inj hshared).symm⟩
    · rw [if_neg hlast] at hshared
      exact .inr ⟨h.ledger.lt_length hshared, hshared⟩
  refine ⟨⟨h.directory, h.root, h.engine, h.validRoot, h.ledger.push hopen hnew document, ?_, ?_,
    ?_, ?_⟩, fun other hother => ⟨?_, fun shared hshared => ?_⟩⟩
  · intro number shared hshared
    show shared.file < disk.contents.size
    rcases hdocuments number shared hshared with ⟨-, rfl⟩ | ⟨-, hshared⟩
    · rw [SharedDocument.file, hfile, hsize]
      exact Nat.lt_succ_self _
    · have hrange := h.inRange number shared hshared
      omega
  · intro number other shared shared' hshared hshared' heq
    rcases hdocuments number shared hshared with ⟨rfl, rfl⟩ | ⟨-, hshared⟩ <;>
      rcases hdocuments other shared' hshared' with ⟨rfl, rfl⟩ | ⟨-, hshared'⟩
    · rfl
    · have hrange := h.inRange other shared' hshared'
      rw [← heq, SharedDocument.file, hfile] at hrange
      exact absurd hrange (Nat.lt_irrefl _)
    · have hrange := h.inRange number shared hshared
      rw [heq, SharedDocument.file, hfile] at hrange
      exact absurd hrange (Nat.lt_irrefl _)
    · exact h.apart number other shared shared' hshared hshared' heq
  · intro number shared index' hshared hindex' hheld
    rcases hdocuments number shared hshared with ⟨rfl, rfl⟩ | ⟨hlt, hshared⟩
    · obtain rfl : index = index' := by
        rw [List.getElem?_concat_length] at hindex'
        exact Option.some.inj hindex'
      rw [h.unused index hnew]
      exact hkept
    · rw [List.getElem?_append_left hlt] at hindex'
      have hrange := h.inRange number shared hshared
      apply (h.kept number shared index' hshared hindex' hheld).frame
      · show shared.file < disk.contents.size
        omega
      · exact hcontents _ hrange
  · intro other hother
    apply h.unused
    intro hmem
    exact hother (List.mem_append_left [index] hmem)
  · show (mounted.set.documents.push ⟨document, 1⟩)[other]? = _
    rw [Array.getElem?_push, h.ledger.count, if_neg hother]
  · exact hcontents _ (h.inRange other shared hshared)

/-- A lookup that succeeds leaves the set intact, with a claim on the document of the index. -/
theorem acquire_ok (h : Intact origin made claims taken mounted)
    (hrun : (MountedSet.acquire index).run mounted = (.ok number, left)) :
    let made' := if index ∈ made then made else made ++ [index]
    made'[number]? = some index ∧ Intact origin made' (number :: claims) taken left ∧
      Spares number mounted left := by
  have hcases := h.acquire_cases index
  rw [hrun] at hcases
  cases hcases with
  | found hopen hindex =>
    rw [if_pos (List.mem_of_getElem? hindex)]
    exact ⟨hindex, h.hold hopen hindex⟩
  | added hopen hnew hcreate hwrote hfile hfresh =>
    have hkept := hfresh.kept
    rw [h.root, h.engine] at hkept
    obtain ⟨hintact, hspares⟩ := h.adding hopen hnew (size_of_wrote hcreate hwrote)
      (fun file => contentsOf_of_wrote hcreate hwrote) hfile hkept
    have hindex : (made ++ [index])[made.length]? = some index := List.getElem?_concat_length ..
    obtain ⟨hheld, hspares'⟩ := hintact.hold hopen hindex
    rw [if_neg hnew]
    exact ⟨hindex, hheld, hspares.trans hspares'⟩

/-- A lookup that fails leaves the set as it is, and the files of its documents. -/
theorem acquire_error (h : Intact origin made claims taken mounted) {error : Error}
    (hrun : (MountedSet.acquire index).run mounted = (.error error, left)) :
    left.set = mounted.set ∧ Intact origin made claims taken left ∧
      ∀ number, Untouched mounted left number := by
  have hcases := h.acquire_cases index
  rw [hrun] at hcases
  cases hcases with
  | closed | refused => exact ⟨rfl, h, Untouched.refl mounted⟩
  | @full _ _ _ disk hcreate hwrote _ =>
    have hdisk : mounted.Tolerates disk := by
      refine ⟨?_, fun number shared hshared =>
        contentsOf_of_wrote hcreate hwrote (h.inRange number shared hshared)⟩
      rw [size_of_wrote hcreate hwrote]
      exact Nat.le_succ _
    exact ⟨rfl, h.frame hdisk, hdisk.untouched⟩

end Intact

end MountedSet

end XmlWorkload
