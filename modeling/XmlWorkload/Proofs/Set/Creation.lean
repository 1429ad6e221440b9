import XmlWorkload.Document.Set
import XmlWorkload.Proofs.Action

/-!
# Creating sets of documents

A set of documents is empty at first, in a directory that was made ready for it.  Main statement:
what a set that was created has to look like (`DocumentSet.of_create`).
-/

set_option autoImplicit false

namespace XmlWorkload

namespace Disk

/-- Two disks differ at most in what stands where, and no place has come to have a file. -/
structure SameFiles (before after : Disk) : Prop where
  workingDirectory : after.workingDirectory = before.workingDirectory
  contents : after.contents = before.contents
  room : after.room = before.room
  places : ∀ (place : Location) (file : Nat), (place, .file file) ∈ after.entries →
    (place, .file file) ∈ before.entries

namespace SameFiles

/-- A disk that stays as it is has the same files. -/
theorem refl (disk : Disk) : SameFiles disk disk := ⟨rfl, rfl, rfl, fun _ _ hplace => hplace⟩

/-- Two steps that keep the files keep them together. -/
theorem trans {first second third : Disk} (h₁ : SameFiles first second)
    (h₂ : SameFiles second third) : SameFiles first third :=
  ⟨h₂.workingDirectory.trans h₁.workingDirectory, h₂.contents.trans h₁.contents,
    h₂.room.trans h₁.room,
    fun place file hplace => h₁.places place file (h₂.places place file hplace)⟩

end SameFiles

/-- Making a directory keeps the files. -/
theorem sameFiles_createDirectory {disk disk' : Disk} {path : String}
    (h : disk.createDirectory path = .ok disk') : SameFiles disk disk' := by
  unfold createDirectory at h
  cases hlocation : disk.locate path with
  | error fault =>
    rw [hlocation] at h
    cases h
  | ok location =>
    simp only [hlocation, bind, Except.bind] at h
    split at h
    · cases h
    · cases h
    · split at h
      · cases h
      · cases h
        refine ⟨rfl, rfl, rfl, ?_⟩
        intro place file hplace
        rcases List.mem_append.1 hplace with hplace | hplace
        · exact hplace
        · cases List.mem_singleton.1 hplace

/-- Making sure of a directory keeps the files. -/
theorem sameFiles_ensureDirectory (disk : Disk) (path : String) :
    SameFiles disk (disk.ensureDirectory path).2 := by
  unfold ensureDirectory
  split
  · next disk' hcreate => exact sameFiles_createDirectory hcreate
  · split
    · exact SameFiles.refl disk
    · exact SameFiles.refl disk

/-- Making sure of directories keeps the files. -/
theorem sameFiles_ensureDirectories (paths : List String) (disk : Disk) :
    SameFiles disk (ensureDirectories paths disk).2 := by
  induction paths generalizing disk with
  | nil => exact SameFiles.refl disk
  | cons path rest ih =>
    have hfirst := sameFiles_ensureDirectory disk path
    rw [ensureDirectories]
    split
    · next disk' hensure =>
      rw [hensure] at hfirst
      exact hfirst.trans (ih disk')
    · next fault disk' hensure =>
      rw [hensure] at hfirst
      exact hfirst

/-- Making a directory with those above it keeps the files. -/
theorem sameFiles_createDirectories (disk : Disk) (path : String) :
    SameFiles disk (disk.createDirectories path).2 := by
  unfold createDirectories
  split
  · split
    · exact SameFiles.refl disk
    · exact sameFiles_ensureDirectories _ disk
  · exact SameFiles.refl disk

end Disk

namespace DocumentSet

/-- A set that could be made has a valid root and a directory that was made ready, and is empty. -/
theorem of_create {directory root : String} {engine : Engine} {disk left : Disk}
    {set : DocumentSet}
    (h : (create directory root engine).run disk = (.ok set, left)) :
    Name.validate root = .ok () ∧ (prepare directory).run disk = (.ok (), left) ∧
      set = ⟨directory, root, engine, [], false, #[]⟩ := by
  unfold create at h
  cases hroot : Name.validate root with
  | error error =>
    rw [Action.run_ofExcept_bind_of_error hroot] at h
    cases h
  | ok value =>
    rw [Action.run_ofExcept_bind_of_ok hroot] at h
    rcases hprepare : (prepare directory).run disk with ⟨error | value, after⟩
    · rw [Action.run_bind_of_error hprepare] at h
      cases h
    · rw [Action.run_bind_of_ok hprepare] at h
      cases h
      exact ⟨rfl, rfl, rfl⟩

/-- A set can be created below a root with a valid name in a directory that can be made ready. -/
theorem create_ok {directory root : String} {engine : Engine} {disk left : Disk}
    (hroot : Name.validate root = .ok ())
    (hprepare : (prepare directory).run disk = (.ok (), left)) :
    (create directory root engine).run disk =
      (.ok ⟨directory, root, engine, [], false, #[]⟩, left) := by
  unfold create
  rw [Action.run_ofExcept_bind_of_ok hroot, Action.run_bind_of_ok hprepare]
  rfl

/-- Making a directory ready changes no file. -/
theorem sameFiles_prepare (directory : String) (disk : Disk) :
    Disk.SameFiles disk ((prepare directory).run disk).2 := by
  simp only [Action.run, prepare]
  split
  · exact Disk.sameFiles_createDirectories disk directory
  · exact Disk.SameFiles.refl disk
  · exact ⟨rfl, rfl, rfl, fun _ _ hplace => (List.mem_filter.1 hplace).1⟩

end DocumentSet

end XmlWorkload
