import XmlWorkload.Document.Set
import XmlWorkload.Proofs.Disk.Creatable

/-!
# The paths of documents

The file of a document has a plain name with its index in it.  Main statements: documents of
different indices have different paths (`DocumentSet.filePath_injective`), and whether the file of an
index can be made depends only on what stands at its path (`DocumentSet.creatable_filePath_iff`).
-/

set_option autoImplicit false

namespace XmlWorkload

namespace Path

/-- A path that a plain name was joined to does not name a directory. -/
theorem namesDirectory_join_plain (directory : String) {name : String} (hname : IsPlain name) :
    namesDirectory (join directory name) = false := by
  by_cases hempty : directory = ""
  · unfold join namesDirectory
    rw [if_pos hempty, pieces_of_plain hname]
    simp [hname.ne_empty, hname.ne_dot]
  · exact namesDirectory_join hempty hname

/-- Different names joined to one directory are different paths. -/
theorem join_injective (directory : String) : Function.Injective (join directory) := by
  intro first second heq
  have hchars := congrArg String.toList heq
  apply String.toList_inj.1
  unfold join at hchars
  split at hchars
  · exact hchars
  · split at hchars <;> simpa [String.toList_append] using hchars

end Path

namespace Disk

variable {disk : Disk} {path : String}

/-- No walk fails at something that is there already. -/
theorem walk_ne_alreadyExists (disk : Disk) (names : List String) (location : Location) :
    disk.walk location names ≠ .error .alreadyExists := by
  induction names generalizing location with
  | nil => simp [walk]
  | cons name rest ih =>
    unfold walk
    split
    · split
      · simp
      · split
        · exact ih _
        · split <;> exact ih _
    · simp
    · simp

/-- No path leads to the fault of something that is there already. -/
theorem locate_ne_alreadyExists (disk : Disk) (path : String) :
    disk.locate path ≠ .error .alreadyExists := by
  unfold locate checkPath
  simp only [bind, Except.bind]
  split
  · next fault hfault =>
    split at hfault
    · cases hfault
      simp
    · split at hfault <;> cases hfault
      simp
  · exact disk.walk_ne_alreadyExists _ _

/-- No file can be made where something is. -/
theorem createFile_alreadyExists_iff :
    (disk.createFile path).1 = .error .alreadyExists ↔
      ∃ place entry, disk.locate path = .ok place ∧ disk.entry? place = some entry := by
  unfold createFile
  cases hlocate : disk.locate path with
  | error fault =>
    have hother := disk.locate_ne_alreadyExists path
    rw [hlocate] at hother
    simpa using hother
  | ok place =>
    cases hentry : disk.entry? place with
    | some entry => simp [hentry]
    | none => cases Path.namesDirectory path <;> simp [hentry]

/-- A file is not found when it is to be made if its path leads nowhere. -/
theorem createFile_notFound_iff :
    (disk.createFile path).1 = .error .notFound ↔ disk.locate path = .error .notFound := by
  unfold createFile
  cases hlocate : disk.locate path with
  | error fault => simp
  | ok place =>
    cases hentry : disk.entry? place with
    | some entry => simp [hentry]
    | none => cases Path.namesDirectory path <;> simp [hentry]

end Disk

namespace DocumentSet

/-- The name of a file is its index between a fixed start and a fixed ending. -/
theorem toList_fileName (index : Nat) :
    (fileName index).toList =
      'x' :: 'm' :: 'l' :: (Nat.toDigits 10 index ++ ['.', 'x', 'm', 'l']) := by
  unfold fileName
  rw [String.toList_append, String.toList_append, Nat.toString_eq_repr, Nat.toList_repr]
  rfl

/-- Different indices have files of different names. -/
theorem fileName_injective : Function.Injective fileName := by
  intro first second heq
  have hchars := congrArg String.toList heq
  rw [toList_fileName, toList_fileName] at hchars
  simp only [List.cons.injEq, true_and] at hchars
  have hdigits := List.append_cancel_right hchars
  have hvalues := congrArg (fun digits => Nat.ofDigitChars 10 digits 0) hdigits
  simpa only [Nat.ofDigitChars_ten_toDigits] using hvalues

/-- The name of a file is a plain one. -/
theorem isPlain_fileName (index : Nat) : Path.IsPlain (fileName index) := by
  have hchars := toList_fileName index
  refine ⟨?_, ?_, ?_, ?_⟩
  · intro hslash
    have hdigit : '/' ∉ Nat.toDigits 10 index := by
      intro hmem
      have := Nat.isDigit_of_mem_toDigits (by omega) (by omega) hmem
      revert this
      decide
    rw [hchars] at hslash
    simp [hdigit] at hslash
  all_goals
    intro heq
    rw [heq] at hchars
    simp at hchars

/-- Different indices have files of different paths. -/
theorem filePath_injective (set : DocumentSet) : Function.Injective set.filePath :=
  (Path.join_injective set.directory).comp fileName_injective

/-- The file of a document can be made wherever its path leads to a place where nothing is. -/
theorem creatable_filePath_iff (set : DocumentSet) (disk : Disk) (index : Nat) :
    disk.Creatable (set.filePath index) ↔
      ∃ place, disk.locate (set.filePath index) = .ok place ∧ disk.entry? place = none := by
  have hplain : Path.namesDirectory (set.filePath index) = false :=
    Path.namesDirectory_join_plain set.directory (isPlain_fileName index)
  simp [Disk.creatable_iff, hplain]

end DocumentSet

end XmlWorkload
