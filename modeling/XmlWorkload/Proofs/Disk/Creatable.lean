import XmlWorkload.Proofs.Disk.Place
import XmlWorkload.Proofs.Disk.Writer

/-!
# Files that can be made

A new file can be made under a path that names a place where nothing is.  In one directory files of
different names have different places.  Main statement: a file that is made in a directory leaves
room for files of other names (`Disk.Creatable.of_createFile`).
-/

set_option autoImplicit false

namespace XmlWorkload

/-- A plain name is one piece of a path. -/
theorem Path.pieces_of_plain {name : String} (hname : IsPlain name) : pieces name = [name] := by
  unfold pieces
  rw [List.splitOn_eq_singleton hname.noSlash, List.map_singleton, String.ofList_toList]

/-- A plain name that is joined to a directory goes behind the names of the directory. -/
theorem Path.names_join_plain (directory : String) {name : String} (hname : IsPlain name) :
    names (join directory name) = (if directory = "" then [] else names directory) ++ [name] := by
  by_cases hempty : directory = ""
  · rw [if_pos hempty, List.nil_append]
    unfold join names
    rw [if_pos hempty, pieces_of_plain hname]
    simp only [if_neg hname.ne_empty, List.filter_nil]
  · rw [if_neg hempty]
    exact names_join hempty hname

namespace Disk

/-- A new file can be made at a path. -/
def Creatable (disk : Disk) (path : String) : Prop :=
  ∃ file left, disk.createFile path = (.ok file, left)

variable {disk before after : Disk} {path : String}

/-- One step down a plain name leads to the place behind. -/
theorem of_walk_singleton {location reached : Location} {name : String}
    (hname : Path.IsPlain name) (hwalk : disk.walk location [name] = .ok reached) :
    reached = location ++ [name] := by
  simp only [walk, if_neg hname.ne_dot, if_neg hname.ne_dots] at hwalk
  split at hwalk
  · split at hwalk
    · cases hwalk
    · cases hwalk
      rfl
  · cases hwalk
  · cases hwalk

/-- The place of an entry of a directory bears its name. -/
theorem getLast?_of_locate_join {directory name : String} {location : Location}
    (hname : Path.IsPlain name)
    (hlocate : disk.locate (Path.join directory name) = .ok location) :
    location.getLast? = some name := by
  unfold locate at hlocate
  rw [Path.names_join_plain directory hname, walk_append] at hlocate
  cases hcheck : checkPath (Path.join directory name) with
  | error fault =>
    rw [hcheck] at hlocate
    cases hlocate
  | ok value =>
    rw [hcheck] at hlocate
    simp only [bind, Except.bind] at hlocate
    split at hlocate
    · cases hlocate
    · rw [of_walk_singleton hname hlocate, List.getLast?_concat]

/-- A file can be made exactly where the path leads to a free place and does not name a directory.
-/
theorem creatable_iff :
    disk.Creatable path ↔ ∃ location, disk.locate path = .ok location ∧
      disk.entry? location = none ∧ Path.namesDirectory path = false := by
  unfold Creatable createFile
  cases disk.locate path with
  | error fault => simp
  | ok location =>
    cases hentry : disk.entry? location with
    | some entry => simp [hentry]
    | none => cases Path.namesDirectory path <;> simp [hentry]

/-- A file that was made stands behind everything else, in the place of its path. -/
theorem entries_createFile {file : Nat} (h : before.createFile path = (.ok file, after)) :
    ∃ place, before.locate path = .ok place ∧
      after.entries = before.entries ++ [(place, .file file)] ∧
      after.workingDirectory = before.workingDirectory := by
  unfold createFile at h
  split at h
  · cases h
  · next place hlocate =>
    split at h
    · cases h
    · split at h <;> cases h
      exact ⟨place, hlocate, rfl, rfl⟩

/-- Where a file can be made, it still can when something was added elsewhere. -/
theorem Creatable.of_addEntry {place : Location} {entry : Entry} (h : before.Creatable path)
    (hworking : after.workingDirectory = before.workingDirectory)
    (hentries : after.entries = before.entries ++ [(place, entry)])
    (hother : before.locate path ≠ .ok place) : after.Creatable path := by
  obtain ⟨location, hlocate, hfree, hfile⟩ := creatable_iff.1 h
  have hextends : Extends before after := ⟨hworking, _, hentries⟩
  refine creatable_iff.2 ⟨location, hextends.locate hlocate, ?_, hfile⟩
  have hne : ¬ place = location := by
    rintro rfl
    exact hother hlocate
  unfold entry? at hfree ⊢
  by_cases hroot : location = []
  · rw [if_pos hroot] at hfree
    cases hfree
  · rw [if_neg hroot, Option.map_eq_none_iff] at hfree
    rw [if_neg hroot, Option.map_eq_none_iff, hentries, List.find?_append, hfree, Option.none_or]
    simp [hne]

/-- What can be made can still be made when the places are the same. -/
theorem Creatable.of_samePlaces (h : before.Creatable path) (hsame : SamePlaces before after) :
    after.Creatable path := by
  obtain ⟨location, hlocate, hfree, hfile⟩ := creatable_iff.1 h
  have hextends : Extends before after :=
    ⟨hsame.workingDirectory, [], hsame.entries.trans (List.append_nil _).symm⟩
  refine creatable_iff.2 ⟨location, hextends.locate hlocate, ?_, hfile⟩
  unfold entry? at hfree ⊢
  rw [hsame.entries]
  exact hfree

/-- A file that is made in a directory leaves room for files of other names. -/
theorem Creatable.of_createFile {directory name other : String} {file : Nat}
    (hname : Path.IsPlain name) (hother : Path.IsPlain other) (hne : name ≠ other)
    (h : before.Creatable (Path.join directory name))
    (hcreate : before.createFile (Path.join directory other) = (.ok file, after)) :
    after.Creatable (Path.join directory name) := by
  obtain ⟨place, hplace, hentries, hworking⟩ := entries_createFile hcreate
  apply h.of_addEntry hworking hentries
  intro hsame
  have hfirst := getLast?_of_locate_join hname hsame
  rw [getLast?_of_locate_join hother hplace] at hfirst
  exact hne (Option.some.inj hfirst).symm

end Disk

end XmlWorkload
