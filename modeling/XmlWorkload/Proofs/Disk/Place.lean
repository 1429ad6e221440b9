import XmlWorkload.Disk.Basic

/-!
# Places behind a directory

The path of an entry of a directory names the place behind that of the directory.  Directories that
can be found stay where they are when something is added elsewhere.  Main statements: the place of a
path that was joined (`Disk.locate_join`), and what becomes of the way to a directory while entries
are added (`Disk.lookup_directory_of_extends`).
-/

set_option autoImplicit false

namespace XmlWorkload

namespace Path

/-- A text that can stand for an entry of a directory: a name of its own, with no slash in it. -/
structure IsPlain (name : String) : Prop where
  noSlash : '/' ∉ name.toList
  ne_empty : name ≠ ""
  ne_dot : name ≠ "."
  ne_dots : name ≠ ".."

/-- Joining puts a name behind the pieces of a directory, in place of the empty piece behind a slash
at the end. -/
theorem pieces_join {directory name : String} (hdirectory : directory ≠ "")
    (hname : IsPlain name) :
    ∃ first rest, pieces (join directory name) = first :: (rest ++ [name]) ∧
      (pieces directory = first :: (rest ++ [""]) ∨ pieces directory = first :: rest) := by
  have hplain : name.toList.splitOn '/' = [name.toList] :=
    List.splitOn_eq_singleton hname.noSlash
  have hsplit : ∀ front : List Char, ∃ first rest,
      (front.splitOn '/').map String.ofList = first :: rest := by
    intro front
    cases hfront : front.splitOn '/' with
    | nil => exact absurd hfront (List.splitOn_ne_nil '/' front)
    | cons first rest => exact ⟨_, _, rfl⟩
  unfold join
  rw [if_neg hdirectory]
  by_cases hslash : directory.toList.getLast? = some '/'
  · rw [if_pos hslash]
    obtain ⟨front, hfront⟩ := List.getLast?_eq_some_iff.1 hslash
    obtain ⟨first, rest, hpieces⟩ := hsplit front
    refine ⟨first, rest, ?_, .inl ?_⟩
    · unfold pieces
      rw [String.toList_append, hfront, List.append_assoc, List.singleton_append,
        List.splitOn_append_cons_self, hplain, List.map_append, hpieces]
      simp
    · unfold pieces
      rw [hfront, List.splitOn_append_cons_self, List.map_append, hpieces]
      rfl
  · rw [if_neg hslash]
    obtain ⟨first, rest, hpieces⟩ := hsplit directory.toList
    refine ⟨first, rest, ?_, .inr hpieces⟩
    unfold pieces
    have hchars : (directory ++ "/" ++ name).toList = directory.toList ++ '/' :: name.toList := by
      simp [String.toList_append]
    rw [hchars, List.splitOn_append_cons_self, hplain, List.map_append, hpieces]
    simp

/-- The names of an entry of a directory are those of the directory with that of the entry behind
them. -/
theorem names_join {directory name : String} (hdirectory : directory ≠ "")
    (hname : IsPlain name) : names (join directory name) = names directory ++ [name] := by
  obtain ⟨first, rest, hjoin, hpieces⟩ := pieces_join hdirectory hname
  have hkept : (rest ++ [name]).filter (fun piece => piece != "" && piece != ".") =
      rest.filter (fun piece => piece != "" && piece != ".") ++ [name] := by
    rw [List.filter_append]
    simp [hname.ne_empty, hname.ne_dot]
  have hdropped : (rest ++ [""]).filter (fun piece => piece != "" && piece != ".") =
      rest.filter (fun piece => piece != "" && piece != ".") := by
    rw [List.filter_append]
    simp
  unfold names
  rw [hjoin]
  rcases hpieces with hpieces | hpieces
  · rw [hpieces]
    simp only [hkept, hdropped]
    split <;> rfl
  · rw [hpieces]
    simp only [hkept]
    split <;> rfl

/-- A path that a name was joined to is absolute if the directory is. -/
theorem isAbsolute_join {directory : String} (hdirectory : directory ≠ "") (name : String) :
    isAbsolute (join directory name) = isAbsolute directory := by
  have hne : directory.toList ≠ [] := by
    intro hnil
    exact hdirectory (String.toList_eq_nil_iff.1 hnil)
  obtain ⟨c, rest, hchars⟩ := List.exists_cons_of_ne_nil hne
  unfold isAbsolute join
  rw [if_neg hdirectory]
  split <;> simp [String.toList_append, hchars]

/-- A path that a plain name was joined to does not name a directory. -/
theorem namesDirectory_join {directory name : String} (hdirectory : directory ≠ "")
    (hname : IsPlain name) : namesDirectory (join directory name) = false := by
  obtain ⟨first, rest, hjoin, -⟩ := pieces_join hdirectory hname
  have hlast : (pieces (join directory name)).getLast? = some name := by
    rw [hjoin, ← List.cons_append, List.getLast?_concat]
  unfold namesDirectory
  rw [hlast]
  simp [hname.ne_empty, hname.ne_dot]

/-- A path that a plain name was joined to is not empty. -/
theorem join_ne_empty {directory name : String} (hname : IsPlain name) :
    join directory name ≠ "" := by
  intro hempty
  unfold join at hempty
  have hname' := hname.ne_empty
  split at hempty
  · exact hname' hempty
  · split at hempty <;> simp_all

end Path

namespace Disk

/-- Before every name that is gone down there has to be a directory, so a way in two parts is gone
one part after the other. -/
theorem walk_append (disk : Disk) (location : Location) (first second : List String) :
    disk.walk location (first ++ second) =
      (disk.walk location first).bind fun reached => disk.walk reached second := by
  induction first generalizing location with
  | nil => rfl
  | cons name rest ih =>
    simp only [List.cons_append, walk, ih]
    split
    · split
      · rfl
      · split
        · rfl
        · split <;> rfl
    · rfl
    · rfl

/-- One disk has everything that another one has where it was, and maybe more. -/
structure Extends (before after : Disk) : Prop where
  workingDirectory : after.workingDirectory = before.workingDirectory
  entries : ∃ more, after.entries = before.entries ++ more

namespace Extends

variable {before after : Disk}

/-- What was at a place before is there after entries were added. -/
theorem entry? (h : Extends before after) {location : Location} {entry : Entry}
    (hentry : before.entry? location = some entry) : after.entry? location = some entry := by
  obtain ⟨more, hmore⟩ := h.entries
  unfold Disk.entry? at hentry ⊢
  by_cases hroot : location = []
  · rw [if_pos hroot] at hentry ⊢
    exact hentry
  · rw [if_neg hroot] at hentry ⊢
    obtain ⟨found, hfound, hvalue⟩ := Option.map_eq_some_iff.1 hentry
    rw [hmore, List.find?_append, hfound]
    exact congrArg some hvalue

/-- A walk through directories leads to the same place after entries were added. -/
theorem walk (h : Extends before after) {location reached : Location} {names : List String}
    (hwalk : before.walk location names = .ok reached) :
    after.walk location names = .ok reached := by
  induction names generalizing location with
  | nil => exact hwalk
  | cons name rest ih =>
    rw [Disk.walk] at hwalk ⊢
    cases hentry : before.entry? location with
    | none =>
      rw [hentry] at hwalk
      cases hwalk
    | some entry =>
      rw [hentry] at hwalk
      rw [h.entry? hentry]
      cases entry with
      | file number => cases hwalk
      | directory =>
        simp only at hwalk ⊢
        split at hwalk
        · cases hwalk
        · next hfits =>
          rw [if_neg hfits]
          split at hwalk
          · next hdot =>
            rw [if_pos hdot]
            exact ih hwalk
          · next hdot =>
            rw [if_neg hdot]
            split at hwalk
            · next hdots =>
              rw [if_pos hdots]
              exact ih hwalk
            · next hdots =>
              rw [if_neg hdots]
              exact ih hwalk

/-- A path leads to the same place after entries were added. -/
theorem locate (h : Extends before after) {path : String} {location : Location}
    (hlocate : before.locate path = .ok location) : after.locate path = .ok location := by
  unfold Disk.locate at hlocate ⊢
  cases hcheck : checkPath path with
  | error fault =>
    rw [hcheck] at hlocate
    cases hlocate
  | ok value =>
    rw [hcheck] at hlocate
    rw [h.workingDirectory]
    exact h.walk hlocate

end Extends

/-- What is found under a path whose place is known. -/
theorem lookup_of_locate {disk : Disk} {path : String} {location : Location} (hne : path ≠ "")
    (hlocate : disk.locate path = .ok location) :
    disk.lookup path =
      match disk.entry? location with
      | none => .error .notFound
      | some .directory => .ok (location, .directory)
      | some (.file number) =>
        if Path.namesDirectory path then .error .notDirectory else .ok (location, .file number) := by
  unfold lookup
  rw [if_neg hne]
  simp only [bind, Except.bind, pure, Except.pure, hlocate]
  cases hentry : disk.entry? location with
  | none => rfl
  | some entry =>
    cases entry with
    | directory => rfl
    | file number =>
      simp only
      split <;> rfl

/-- The path of a directory that is found names its place. -/
theorem of_lookup_directory {disk : Disk} {path : String} {location : Location}
    (h : disk.lookup path = .ok (location, .directory)) :
    path ≠ "" ∧ disk.locate path = .ok location ∧ disk.entry? location = some .directory := by
  have hne : path ≠ "" := by
    rintro rfl
    cases h
  cases hlocate : disk.locate path with
  | error fault =>
    unfold lookup at h
    rw [if_neg hne] at h
    simp only [bind, Except.bind, hlocate] at h
    cases h
  | ok reached =>
    rw [lookup_of_locate hne hlocate] at h
    cases hentry : disk.entry? reached with
    | none =>
      rw [hentry] at h
      cases h
    | some entry =>
      rw [hentry] at h
      cases entry with
      | directory =>
        simp only [Except.ok.injEq, Prod.mk.injEq, and_true] at h
        rw [← h]
        exact ⟨hne, rfl, hentry⟩
      | file number =>
        simp only at h
        split at h <;> cases h

/-- A directory is found where it was when something was added elsewhere. -/
theorem Extends.lookup_directory {before after : Disk} (h : Extends before after) {path : String}
    {location : Location} (hlookup : before.lookup path = .ok (location, .directory)) :
    after.lookup path = .ok (location, .directory) := by
  obtain ⟨hne, hlocate, hentry⟩ := of_lookup_directory hlookup
  rw [lookup_of_locate hne (h.locate hlocate), h.entry? hentry]

section Join

variable {disk : Disk} {directory name : String} {location : Location}

/-- The way to an entry of a directory is the way to the directory and one step more. -/
theorem locate_join (hlookup : disk.lookup directory = .ok (location, .directory))
    (hname : Path.IsPlain name) :
    disk.locate (Path.join directory name) =
      (checkPath (Path.join directory name)).bind fun _ =>
        if nameLimit < name.utf8ByteSize then .error .nameTooLong
        else .ok (location ++ [name]) := by
  obtain ⟨hne, hlocate, hentry⟩ := of_lookup_directory hlookup
  have hwalk : disk.walk (if Path.isAbsolute directory then [] else disk.workingDirectory)
      (Path.names directory) = .ok location := by
    unfold locate at hlocate
    cases hcheck : checkPath directory with
    | error fault =>
      rw [hcheck] at hlocate
      cases hlocate
    | ok value =>
      rw [hcheck] at hlocate
      exact hlocate
  have hstep : disk.walk location [name] =
      if nameLimit < name.utf8ByteSize then .error .nameTooLong else .ok (location ++ [name]) := by
    simp only [walk, hentry, if_neg hname.ne_dot, if_neg hname.ne_dots]
  unfold locate
  rw [Path.names_join hne hname, Path.isAbsolute_join hne, walk_append, hwalk]
  simp only [bind, Except.bind, hstep]

/-- A file that can be made in a directory has a path and a name of fair length, and nothing was in
its place. -/
theorem of_createFile_join (hlookup : disk.lookup directory = .ok (location, .directory))
    (hname : Path.IsPlain name) {file : Nat} {made : Disk}
    (h : disk.createFile (Path.join directory name) = (.ok file, made)) :
    checkPath (Path.join directory name) = .ok () ∧ name.utf8ByteSize ≤ nameLimit ∧
      disk.entry? (location ++ [name]) = none := by
  unfold createFile at h
  rw [locate_join hlookup hname] at h
  cases hcheck : checkPath (Path.join directory name) with
  | error fault =>
    rw [hcheck] at h
    cases h
  | ok value =>
    rw [hcheck] at h
    simp only [Except.bind] at h
    by_cases hlong : nameLimit < name.utf8ByteSize
    · rw [if_pos hlong] at h
      cases h
    · rw [if_neg hlong] at h
      simp only at h
      cases hentry : disk.entry? (location ++ [name]) with
      | some entry =>
        rw [hentry] at h
        cases h
      | none => exact ⟨rfl, by omega, rfl⟩

/-- A file can be made in a directory under a path and a name of fair length if nothing is in its
place. -/
theorem createFile_join (hlookup : disk.lookup directory = .ok (location, .directory))
    (hname : Path.IsPlain name) (hcheck : checkPath (Path.join directory name) = .ok ())
    (hfits : name.utf8ByteSize ≤ nameLimit) (hentry : disk.entry? (location ++ [name]) = none) :
    disk.createFile (Path.join directory name) =
      (.ok disk.contents.size,
        { disk.addEntry (location ++ [name]) (.file disk.contents.size) with
          contents := disk.contents.push .empty }) := by
  have hne := (of_lookup_directory hlookup).1
  have hnot : ¬ nameLimit < name.utf8ByteSize := by omega
  unfold createFile
  rw [locate_join hlookup hname, hcheck]
  simp only [Except.bind, if_neg hnot, hentry, Path.namesDirectory_join hne hname]
  rfl

/-- A file that stands in a directory is read under its joined path. -/
theorem readFile_join (hlookup : disk.lookup directory = .ok (location, .directory))
    (hname : Path.IsPlain name) (hcheck : checkPath (Path.join directory name) = .ok ())
    (hfits : name.utf8ByteSize ≤ nameLimit) {file : Nat}
    (hentry : disk.entry? (location ++ [name]) = some (.file file)) :
    disk.readFile (Path.join directory name) = .ok (disk.contents.getD file .empty) := by
  have hne := (of_lookup_directory hlookup).1
  have hnot : ¬ nameLimit < name.utf8ByteSize := by omega
  have hlocate : disk.locate (Path.join directory name) = .ok (location ++ [name]) := by
    rw [locate_join hlookup hname, hcheck]
    exact if_neg hnot
  have hfound := lookup_of_locate (Path.join_ne_empty hname) hlocate
  rw [hentry] at hfound
  simp only [Path.namesDirectory_join hne hname, Bool.false_eq_true, if_false] at hfound
  unfold readFile
  simp only [bind, Except.bind, hfound]
  rfl

end Join

end Disk

end XmlWorkload
