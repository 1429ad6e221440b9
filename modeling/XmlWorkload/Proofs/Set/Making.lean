import XmlWorkload.Proofs.Set.Operations

/-!
# Making documents

An index that is not in use gets a document when it is looked up, in a file of its own.  Main
statement: a lookup keeps a set sound, and adds its index to those in use exactly when it makes a
document (`MountedSet.Sound.acquire`).
-/

set_option autoImplicit false

namespace XmlWorkload

namespace Disk

/-- A file that was made is empty, and has the next number. -/
theorem createFile_ok {disk disk' : Disk} {path : String} {file : Nat}
    (h : disk.createFile path = (.ok file, disk')) :
    file = disk.contents.size ∧ disk'.room = disk.room ∧
      disk'.contents = disk.contents.push .empty := by
  unfold createFile at h
  split at h
  · cases h
  · split at h
    · cases h
    · split at h <;> cases h
      exact ⟨rfl, rfl, rfl⟩

/-- When no file can be made, the disk stays as it is. -/
theorem createFile_error {disk disk' : Disk} {path : String} {fault : IoFault}
    (h : disk.createFile path = (.error fault, disk')) : disk' = disk := by
  unfold createFile at h
  split at h
  · cases h
    rfl
  · split at h
    · cases h
      rfl
    · split at h <;> cases h
      rfl

/-- A new empty file changes no contents. -/
theorem contentsOf_push {disk disk' : Disk} (h : disk'.contents = disk.contents.push .empty)
    (file : Nat) : disk'.contentsOf file = disk.contentsOf file := by
  unfold contentsOf
  rw [h, Array.getD_eq_getD_getElem?, Array.getD_eq_getD_getElem?, Array.getElem?_push]
  by_cases hlast : file = disk.contents.size
  · rw [if_pos hlast, hlast, Array.getElem?_size]
    rfl
  · rw [if_neg hlast]

/-- The file that is made next has no contents yet. -/
theorem contentsOf_size (disk : Disk) : disk.contentsOf disk.contents.size = .empty := by
  unfold contentsOf
  rw [Array.getD_eq_getD_getElem?, Array.getElem?_size]
  rfl

end Disk

namespace MountedSet

section Lookup

variable {mounted left : MountedSet} {index number : Nat}

/-- A closed set gives out no document. -/
theorem run_acquire_of_closed (hclosed : mounted.set.isClosed = true) (index : Nat) :
    (acquire index).run mounted = (.error .documentSetClosed, mounted) := by
  simp only [acquire, Action.run_getState_bind, hclosed, if_true, Action.run_fail]

/-- A document that is found is given out, with one holder more. -/
theorem run_acquire_of_find? (hopen : mounted.set.isClosed = false)
    (hfound : mounted.find? index = some number) :
    (acquire index).run mounted = (.ok number, mounted.hold number) := by
  simp only [acquire, Action.run_getState_bind, hopen, Bool.false_eq_true, if_false, hfound]
  rfl

/-- Looking an index up that is not in use comes to making a document for it. -/
theorem run_acquire_of_addDocument (hopen : mounted.set.isClosed = false)
    (hfound : mounted.find? index = none)
    (hrun : (addDocument index).run mounted = (.ok number, left)) :
    (acquire index).run mounted = (.ok number, left.hold number) := by
  simp only [acquire, Action.run_getState_bind, hopen, Bool.false_eq_true, if_false, hfound]
  rw [Action.run_bind_of_ok hrun]
  rfl

/-- Where a document cannot be added, looking it up fails with the same error. -/
theorem run_acquire_of_addDocument_error {error : Error} (hopen : mounted.set.isClosed = false)
    (hfound : mounted.find? index = none)
    (hrun : (addDocument index).run mounted = (.error error, left)) :
    (acquire index).run mounted = (.error error, left) := by
  simp only [acquire, Action.run_getState_bind, hopen, Bool.false_eq_true, if_false, hfound]
  exact Action.run_bind_of_error hrun _

end Lookup

namespace Sound

variable {origin : MountedSet} {made claims pending : List Nat} {taken : Nat → List Emission}
  {mounted : MountedSet}

/-- A document that was added in a file of its own, and in which nothing was written yet, follows
nothing. -/
theorem push (h : Sound origin made claims pending taken mounted)
    (hopen : ¬ mounted.set.isClosed = true) {index : Nat} (hnew : index ∉ made)
    {document : FileDocument} {disk : Disk} (hroom : disk.room = none)
    (hsize : disk.contents.size = mounted.disk.contents.size + 1)
    (hcontents : ∀ file, file < mounted.disk.contents.size →
      disk.contentsOf file = mounted.disk.contentsOf file)
    (hfollows : FileDocument.Follows (front origin.set) origin.set.root
      mounted.disk.contents.size [] disk document) :
    Sound origin (made ++ [index]) claims pending taken
      ⟨{ mounted.set with
          registry := mounted.set.registry ++ [(index, mounted.set.documents.size)]
          documents := mounted.set.documents.push ⟨document, 1⟩ },
        disk⟩ := by
  have hledger := h.ledger.push (by simpa using hopen) hnew document
  have hdocuments : ∀ (number : Nat) (shared : SharedDocument),
      (mounted.set.documents.push ⟨document, 1⟩)[number]? = some shared →
        (number = made.length ∧ shared = ⟨document, 1⟩) ∨
          (number < made.length ∧ mounted.set.documents[number]? = some shared) := by
    intro number shared hshared
    rw [Array.getElem?_push, h.count] at hshared
    by_cases hlast : number = made.length
    · rw [if_pos hlast] at hshared
      cases hshared
      exact .inl ⟨hlast, rfl⟩
    · rw [if_neg hlast] at hshared
      exact .inr ⟨h.ledger.lt_length hshared, hshared⟩
  refine
    { directory := h.directory
      root := h.root
      engine := h.engine
      validRoot := h.validRoot
      room := hroom
      count := hledger.count
      files := ?_
      nodup := hledger.nodup
      registry := hledger.registry
      holders := hledger.holders
      follows := ?_
      claimed := hledger.claimed
      pendingClaimed := h.pendingClaimed
      live := fun hclosed => absurd hclosed hopen
      unused := ?_ }
  · rw [hsize, h.files, List.length_append, Nat.add_assoc]
    rfl
  · intro number shared index' hshared hindex'
    rcases hdocuments number shared hshared with ⟨rfl, rfl⟩ | ⟨hlt, hshared⟩
    · have hindex : index' = index := by
        rw [List.getElem?_concat_length] at hindex'
        cases hindex'
        rfl
      rw [hindex, h.unused index hnew, ← h.files]
      refine ⟨hfollows.atEnd.isFile, fun _ => hfollows, ?_⟩
      intro hnone
      cases hnone
    · rw [List.getElem?_append_left hlt] at hindex'
      have hfile : origin.disk.contents.size + number < mounted.disk.contents.size := by
        rw [h.files]
        omega
      apply (h.follows number shared index' hshared hindex').frame hroom
      · omega
      · exact hcontents _ hfile
  · intro other hother
    apply h.unused
    intro hmem
    exact hother (List.mem_append_left [index] hmem)

/-- An index that is not in use gets a document in which nothing was written yet, if a file for it
can be made. -/
theorem addDocument (h : Sound origin made claims pending taken mounted)
    (hopen : ¬ mounted.set.isClosed = true) {index : Nat} (hnew : index ∉ made) :
    (∃ left disk document, (MountedSet.addDocument index).run mounted = (.ok made.length, left) ∧
      mounted.disk.createFile (mounted.set.filePath index) =
        (.ok mounted.disk.contents.size, disk) ∧
      Disk.SameBut mounted.disk.contents.size disk left.disk ∧ left.set.isClosed = false ∧
      left.set.documents = mounted.set.documents.push ⟨document, 1⟩ ∧ document.status = .live ∧
      Sound origin (made ++ [index]) claims pending taken left) ∨
    (∃ error fault disk, (MountedSet.addDocument index).run mounted = (.error error, mounted) ∧
      mounted.disk.createFile (mounted.set.filePath index) = (.error fault, disk)) := by
  let path := mounted.set.filePath index
  rcases hcreate : mounted.disk.createFile path with ⟨fault | file, disk⟩
  · right
    obtain rfl := Disk.createFile_error hcreate
    have hrun : ∃ error, (MountedSet.addDocument index).run mounted = (.error error, mounted) := by
      simp only [Action.run, MountedSet.addDocument, path] at hcreate ⊢
      rw [hcreate]
      cases fault <;> exact ⟨_, rfl⟩
    obtain ⟨error, hrun⟩ := hrun
    exact ⟨error, fault, mounted.disk, hrun, rfl⟩
  left
  obtain ⟨rfl, hroom, hcontents⟩ := Disk.createFile_ok hcreate
  let file := mounted.disk.contents.size
  let writer : MountedWriter := ⟨⟨file, 0, .empty, mounted.set.engine.bufferSize⟩, disk⟩
  have hsize : disk.contents.size = file + 1 := by rw [hcontents, Array.size_push]
  have hempty : disk.contentsOf file = .empty := by
    rw [Disk.contentsOf_push hcontents]
    exact Disk.contentsOf_size mounted.disk
  have hholds : (MountedWriter.reliable disk file).holds writer := by
    refine ⟨hroom.trans h.room, rfl, ?_, ?_, Disk.SameBut.refl file disk⟩
    · rw [hsize]
      omega
    · rw [hempty]
      rfl
  obtain ⟨stream, hstream, hshows⟩ := Document.create_ok hholds h.validRoot
    origin.set.engine.declaration
  have htaken : (MountedWriter.reliable disk file).taken writer = .empty := by
    show disk.contentsOf file ++ .empty = _
    rw [hempty, ByteArray.append_empty]
  rw [htaken, ByteArray.empty_append] at hshows
  obtain ⟨hunmounted, hsame⟩ := FileDocument.follows_unmount (Document.follows_new path hshows)
  have hframe : Disk.SameBut file disk stream.output.disk := hsame
  rw [← h.root, ← h.engine] at hstream
  refine ⟨⟨{ mounted.set with
      registry := mounted.set.registry ++ [(index, mounted.set.documents.size)]
      documents := mounted.set.documents.push
        ⟨FileDocument.unmount (Document.new path stream), 1⟩ }, stream.output.disk⟩,
    disk, _, ?_, rfl, hframe, by simpa using hopen, rfl, rfl, ?_⟩
  · simp only [Action.run, MountedSet.addDocument]
    rw [hcreate]
    simp only [writer, file] at hstream
    simp only [hstream, ← h.count]
    rfl
  · apply h.push hopen hnew
    · rw [hframe.room, hroom, h.room]
    · rw [hframe.size, hsize]
    · intro other hother
      rw [hframe.others other (Nat.ne_of_lt hother)]
      exact Disk.contentsOf_push hcontents other
    · exact hunmounted

/-- Everything that a lookup can come to: the set is closed, the index is in use, it gets a new
document, or no file can be made for it. -/
theorem acquire_cases (h : Sound origin made claims pending taken mounted) (index : Nat) :
    let outcome := (MountedSet.acquire index).run mounted
    (mounted.set.isClosed = true ∧ outcome = (.error .documentSetClosed, mounted)) ∨
    (∃ number, mounted.set.isClosed = false ∧ made[number]? = some index ∧
      outcome = (.ok number, mounted.hold number)) ∨
    (∃ left disk document, mounted.set.isClosed = false ∧ index ∉ made ∧
      outcome = (.ok made.length, left.hold made.length) ∧
      mounted.disk.createFile (mounted.set.filePath index) =
        (.ok mounted.disk.contents.size, disk) ∧
      Disk.SameBut mounted.disk.contents.size disk left.disk ∧ left.set.isClosed = false ∧
      left.set.documents = mounted.set.documents.push ⟨document, 1⟩ ∧ document.status = .live ∧
      Sound origin (made ++ [index]) claims pending taken left) ∨
    (∃ error fault disk, mounted.set.isClosed = false ∧ index ∉ made ∧
      outcome = (.error error, mounted) ∧
      mounted.disk.createFile (mounted.set.filePath index) = (.error fault, disk)) := by
  intro outcome
  by_cases hclosed : mounted.set.isClosed = true
  · left
    exact ⟨hclosed, run_acquire_of_closed hclosed index⟩
  right
  have hopen : mounted.set.isClosed = false := by simpa using hclosed
  cases hfound : mounted.find? index with
  | some number =>
    left
    exact ⟨number, hopen, (h.ledger.find?_eq_some_iff hopen).1 hfound, run_acquire_of_find? hopen hfound⟩
  | none =>
    right
    have hnew := (h.ledger.find?_eq_none_iff hopen).1 hfound
    rcases h.addDocument hclosed hnew with
      ⟨left, disk, document, hrun, hcreate, hframe, hstill, hdocuments, hlive, hsound⟩ |
        ⟨error, fault, disk, hrun, hcreate⟩
    · left
      exact ⟨left, disk, document, hopen, hnew, run_acquire_of_addDocument hopen hfound hrun, hcreate,
        hframe, hstill, hdocuments, hlive, hsound⟩
    · right
      exact ⟨error, fault, disk, hopen, hnew, run_acquire_of_addDocument_error hopen hfound hrun,
        hcreate⟩

/-- A lookup keeps a set sound.  It claims the document that it gives, which was made for the index
now or before, and changes nothing when it fails. -/
theorem acquire (h : Sound origin made claims pending taken mounted) (index : Nat) :
    let outcome := (MountedSet.acquire index).run mounted
    let growth := outcome.2.set.documents.size - mounted.set.documents.size
    match outcome.1 with
    | .ok number => (made ++ List.replicate growth index)[number]? = some index ∧
        Sound origin (made ++ List.replicate growth index) (number :: claims) pending taken outcome.2
    | .error _ => outcome.2 = mounted := by
  intro outcome growth
  rcases h.acquire_cases index with ⟨-, hrun⟩ | ⟨number, hopen, hindex, hrun⟩ |
    ⟨left, disk, document, -, -, hrun, -, -, hstill, hdocuments, -, hsound⟩ |
      ⟨error, fault, disk, -, -, hrun, -⟩
  · change outcome = _ at hrun
    rw [hrun]
  · change outcome = _ at hrun
    have hnumber : number < made.length := (List.getElem?_eq_some_iff.1 hindex).1
    have hgrowth : growth = 0 := by
      simp only [growth, hrun, MountedSet.hold, Array.size_modify, Nat.sub_self]
    rw [hrun, hgrowth, List.replicate_zero, List.append_nil]
    exact ⟨hindex, h.hold hnumber fun shared hshared => h.ledger.holders_of_open hopen hshared⟩
  · change outcome = _ at hrun
    have hgrowth : growth = 1 := by
      simp only [growth, hrun, MountedSet.hold, Array.size_modify, hdocuments, Array.size_push,
        Nat.add_sub_cancel_left]
    rw [hrun, hgrowth, List.replicate_one]
    refine ⟨List.getElem?_concat_length .., hsound.hold ?_ ?_⟩
    · rw [List.length_append]
      exact Nat.lt_succ_self _
    · intro shared hshared
      exact hsound.ledger.holders_of_open hstill hshared
  · change outcome = _ at hrun
    rw [hrun]

end Sound

end MountedSet

end XmlWorkload
