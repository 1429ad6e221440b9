import Mathlib.Algebra.GroupWithZero.Nat
import XmlWorkload.Proofs.Set.Making
import XmlWorkload.Proofs.Set.Paths
import XmlWorkload.Run.Basic

/-!
# The files of a run

The file of a document can stand in any directory and counts as a document.  Main statements: while
files of documents are added to a directory each of them is found under its path
(`DocumentSet.Placed.readFile`), and the summary of a run counts them and the documents that the
directory had before (`DocumentSet.Placed.summarize`).
-/

set_option autoImplicit false

namespace XmlWorkload

/-- A text behind the last dot of a name is the ending of the name. -/
theorem Path.ending?_eq {name : String} {front tail : List Char}
    (hname : name.toList = front ++ '.' :: tail) (hfront : front ≠ []) (htail : '.' ∉ tail)
    (hdots : name ≠ "..") : Path.ending? name = some (String.ofList tail) := by
  have hreversed : name.toList.reverse = tail.reverse ++ '.' :: front.reverse := by
    rw [hname]
    simp
  have htaken : name.toList.reverse.takeWhile (fun c => c != '.') = tail.reverse := by
    rw [hreversed, List.takeWhile_append_of_pos]
    · simp
    · intro c hc
      have hne : c ≠ '.' := by
        rintro rfl
        exact htail (List.mem_reverse.1 hc)
      simpa using hne
  have hrest : name.toList.reverse.drop (tail.reverse.length + 1) = front.reverse := by
    rw [hreversed, ← List.drop_drop, List.drop_left]
    rfl
  obtain ⟨last, others, hlast⟩ := List.exists_cons_of_ne_nil (List.reverse_ne_nil_iff.2 hfront)
  unfold Path.ending?
  simp only [if_neg hdots, htaken, hrest, hlast, List.reverse_reverse]

/-- What an entry of a disk is to the directory at a place: a name in it, or nothing. -/
def Disk.childOf? (location : Location) : Location × Entry → Option (String × Entry)
  | (place, entry) =>
    match place.getLast? with
    | some name => if place.dropLast == location then some (name, entry) else none
    | none => none

/-- The children of a directory are found by going through the entries of the disk. -/
theorem Disk.children_eq (disk : Disk) (location : Location) :
    disk.children location = disk.entries.filterMap (childOf? location) := rfl

namespace Run

/-- What a name in a directory counts for in a summary: the size of a document, or nothing. -/
def sizeOf? (disk : Disk) : String × Entry → Option Nat
  | (name, .file number) =>
    if isDocument name then some (disk.contents.getD number .empty).size else none
  | (_, .directory) => none

/-- A directory that is found is summed up by the documents in it and their sizes. -/
theorem summarize_of_lookup {disk : Disk} {directory : String} {location : Location}
    (h : disk.lookup directory = .ok (location, .directory)) :
    summarize directory disk = .ok ⟨((disk.children location).filterMap (sizeOf? disk)).length,
      ((disk.children location).filterMap (sizeOf? disk)).sum⟩ := by
  unfold summarize
  simp only [bind, Except.bind, h, List.sum_eq_foldl_nat]
  rfl

/-- Only a file in the directory counts. -/
theorem sizeOf?_childOf? {disk : Disk} {location place : Location} {entry : Entry}
    (h : ∀ (name : String) (number : Nat),
      (place, entry) ≠ (location ++ [name], Entry.file number)) :
    (Disk.childOf? location (place, entry)).bind (sizeOf? disk) = none := by
  simp only [Disk.childOf?]
  split
  · next name hname =>
    split
    · next hplace =>
      have hsplit := List.dropLast_append_getLast? name hname
      rw [beq_iff_eq.1 hplace] at hsplit
      cases entry with
      | directory => rfl
      | file number =>
        rw [← hsplit] at h
        exact absurd rfl (h name number)
    · rfl
  · rfl

/-- There is nothing to count in a directory without files. -/
theorem summarize_of_no_files {disk : Disk} {directory : String} {location : Location}
    (h : disk.lookup directory = .ok (location, .directory))
    (hempty : ∀ (name : String) (file : Nat), (location ++ [name], .file file) ∉ disk.entries) :
    summarize directory disk = .ok ⟨0, 0⟩ := by
  have hnothing : (disk.children location).filterMap (sizeOf? disk) = [] := by
    rw [Disk.children_eq, List.filterMap_filterMap, List.filterMap_eq_nil_iff]
    rintro ⟨place, entry⟩ hmem
    apply sizeOf?_childOf?
    rintro name number ⟨⟩
    exact hempty name number hmem
  rw [summarize_of_lookup h, hnothing]
  rfl

/-- A document in the directory counts with its size. -/
theorem sizeOf?_childOf?_concat (disk : Disk) (location : Location) {name : String}
    (h : isDocument name = true) (number : Nat) :
    (Disk.childOf? location (location ++ [name], .file number)).bind (sizeOf? disk) =
      some (disk.contentsOf number).size := by
  simp only [Disk.childOf?, List.getLast?_concat, List.dropLast_concat, beq_self_eq_true, if_true,
    Option.bind_some, sizeOf?, h]
  rfl

end Run

namespace DocumentSet

/-- The file of a document counts as a document. -/
theorem isDocument_fileName (index : Nat) : Run.isDocument (fileName index) = true := by
  have hchars : (fileName index).toList =
      ('x' :: 'm' :: 'l' :: Nat.toDigits 10 index) ++ '.' :: ['x', 'm', 'l'] := by
    rw [toList_fileName]
    simp
  have hending := Path.ending?_eq hchars (by simp) (by simp) (isPlain_fileName index).ne_dots
  unfold Run.isDocument
  rw [hending]
  rfl

/-- The entry of the file of a document in a directory, the numbers of the files going on from a
first one. -/
def entryOf (location : Location) (first : Nat) (document : Nat × Nat) : Location × Entry :=
  (location ++ [fileName document.1], .file (first + document.2))

/-- The files of documents have been added to a directory of a disk, in the order in which the
documents were made. -/
structure Placed (location : Location) (before : Disk) (made : List Nat) (disk : Disk) : Prop where
  workingDirectory : disk.workingDirectory = before.workingDirectory
  entries : disk.entries =
    before.entries ++ made.zipIdx.map (entryOf location before.contents.size)

namespace Placed

variable {location : Location} {before disk after : Disk} {made : List Nat}

/-- Before a document is made the disk is as it was. -/
theorem none_made (location : Location) (disk : Disk) : Placed location disk [] disk :=
  ⟨rfl, (List.append_nil _).symm⟩

/-- Documents stay placed on a disk with the same places. -/
theorem of_samePlaces (h : Placed location before made disk)
    (hframe : Disk.SamePlaces disk after) : Placed location before made after :=
  ⟨hframe.workingDirectory.trans h.workingDirectory, hframe.entries.trans h.entries⟩

/-- A disk with documents placed has everything from before. -/
theorem extends_before (h : Placed location before made disk) : Disk.Extends before disk :=
  ⟨h.workingDirectory, _, h.entries⟩

/-- Where nothing was before, only the file of a document that was made can be. -/
theorem entry?_eq (h : Placed location before made disk) {index : Nat}
    (hfree : before.entry? (location ++ [fileName index]) = none) :
    disk.entry? (location ++ [fileName index]) =
      (made.zipIdx.find? fun document => document.1 == index).map fun document =>
        .file (before.contents.size + document.2) := by
  have hne : location ++ [fileName index] ≠ [] := by simp
  have hsame : ((fun entry : Location × Entry => entry.1 == location ++ [fileName index]) ∘
      entryOf location before.contents.size) = fun document => document.1 == index := by
    funext document
    simp [entryOf, fileName_injective.eq_iff, Function.comp_apply]
  unfold Disk.entry? at hfree ⊢
  rw [if_neg hne, Option.map_eq_none_iff] at hfree
  rw [if_neg hne, h.entries, List.find?_append, hfree, Option.none_or, List.find?_map, hsame,
    Option.map_map]
  rfl

/-- The document with a number is at the place of its index, in a file of its own. -/
theorem entry?_of_mem (h : Placed location before made disk) (hnodup : made.Nodup)
    {index number : Nat} (hfree : before.entry? (location ++ [fileName index]) = none)
    (hindex : made[number]? = some index) :
    disk.entry? (location ++ [fileName index]) = some (.file (before.contents.size + number)) := by
  have hfound : (made.zipIdx.find? fun document => document.1 == index) = some (index, number) :=
    (find?_zipIdx_eq_some_iff hnodup).2 ⟨rfl, hindex⟩
  rw [h.entry?_eq hfree, hfound]
  rfl

/-- Where no file of a document was made everything is as it was. -/
theorem entry?_of_other (h : Placed location before made disk) {place : Location}
    (hplace : ∀ index ∈ made, place ≠ location ++ [fileName index]) :
    disk.entry? place = before.entry? place := by
  have hnone : (made.zipIdx.map (entryOf location before.contents.size)).find?
      (fun entry => entry.1 == place) = none := by
    rw [List.find?_eq_none]
    rintro entry hentry heq
    obtain ⟨document, hdocument, rfl⟩ := List.mem_map.1 hentry
    have hindex := List.mem_of_getElem? (List.mem_zipIdx_iff_getElem?.1 hdocument)
    exact hplace document.1 hindex (beq_iff_eq.1 heq).symm
  unfold Disk.entry?
  rw [h.entries, List.find?_append, hnone, Option.or_none]

/-- Nothing is at the place of an index for which no document was made. -/
theorem entry?_of_not_mem (h : Placed location before made disk) {index : Nat}
    (hfree : before.entry? (location ++ [fileName index]) = none) (hnew : index ∉ made) :
    disk.entry? (location ++ [fileName index]) = none := by
  refine (h.entry?_of_other ?_).trans hfree
  intro other hother heq
  apply hnew
  rw [fileName_injective (List.singleton_inj.1 (List.append_cancel_left heq))]
  exact hother

section Directory

variable {directory : String}

/-- A file that could be made in the directory at first can be made as long as its index is not in
use. -/
theorem createFile (h : Placed location before made disk)
    (hlookup : before.lookup directory = .ok (location, .directory)) {index file : Nat}
    {left : Disk}
    (hcreate : before.createFile (Path.join directory (fileName index)) = (.ok file, left))
    (hnew : index ∉ made) (hsize : disk.contents.size = before.contents.size + made.length) :
    ∃ added, disk.createFile (Path.join directory (fileName index)) =
        (.ok disk.contents.size, added) ∧
      Placed location before (made ++ [index]) added := by
  have hplain := isPlain_fileName index
  obtain ⟨hcheck, hfits, hfree⟩ := Disk.of_createFile_join hlookup hplain hcreate
  have hcreated := Disk.createFile_join (h.extends_before.lookup_directory hlookup) hplain hcheck
    hfits (h.entry?_of_not_mem hfree hnew)
  refine ⟨_, hcreated, h.workingDirectory, ?_⟩
  simp only [Disk.addEntry, h.entries, hsize, List.zipIdx_append, List.map_append,
    List.append_assoc, Nat.zero_add]
  rfl

/-- The file of a document is read under its path. -/
theorem readFile (h : Placed location before made disk)
    (hlookup : before.lookup directory = .ok (location, .directory)) {index file number : Nat}
    {left : Disk}
    (hcreate : before.createFile (Path.join directory (fileName index)) = (.ok file, left))
    (hnodup : made.Nodup) (hindex : made[number]? = some index) :
    disk.readFile (Path.join directory (fileName index)) =
      .ok (disk.contentsOf (before.contents.size + number)) := by
  have hplain := isPlain_fileName index
  obtain ⟨hcheck, hfits, hfree⟩ := Disk.of_createFile_join hlookup hplain hcreate
  exact Disk.readFile_join (h.extends_before.lookup_directory hlookup) hplain hcheck hfits
    (h.entry?_of_mem hnodup hfree hindex)

/-- The summary of a run counts the files of the documents that were made, and the documents that were
there before. -/
theorem summarize (h : Placed location before made disk)
    (hlookup : before.lookup directory = .ok (location, .directory))
    (hkept : ∀ (place : Location) (file : Nat), (place, .file file) ∈ before.entries →
      disk.contentsOf file = before.contentsOf file)
    {tally : FileTally} (htally : Run.summarize directory before = .ok tally) :
    Run.summarize directory disk = .ok ⟨tally.files + made.length,
      tally.bytes + (made.zipIdx.map fun document =>
        (disk.contentsOf (before.contents.size + document.2)).size).sum⟩ := by
  have hbefore : before.entries.filterMap
      (fun listed => (Disk.childOf? location listed).bind (Run.sizeOf? disk)) =
        (before.children location).filterMap (Run.sizeOf? before) := by
    rw [Disk.children_eq, List.filterMap_filterMap]
    apply List.filterMap_congr
    rintro ⟨place, entry⟩ hmem
    cases entry with
    | directory =>
      simp only [Disk.childOf?]
      split
      · split <;> rfl
      · rfl
    | file number =>
      have hsame : disk.contents.getD number .empty = before.contents.getD number .empty :=
        hkept place number hmem
      simp only [Disk.childOf?]
      split
      · split
        · simp only [Option.bind_some, Run.sizeOf?, hsame]
        · rfl
      · rfl
  have hsizes : (disk.children location).filterMap (Run.sizeOf? disk) =
      (before.children location).filterMap (Run.sizeOf? before) ++ made.zipIdx.map fun document =>
        (disk.contentsOf (before.contents.size + document.2)).size := by
    rw [← hbefore, Disk.children_eq, List.filterMap_filterMap, h.entries, List.filterMap_append,
      List.filterMap_map, ← List.filterMap_eq_map]
    congr 1
    apply List.filterMap_congr
    intro document _
    exact Run.sizeOf?_childOf?_concat disk location (isDocument_fileName document.1) _
  have hfound := h.extends_before.lookup_directory hlookup
  rw [Run.summarize_of_lookup hlookup] at htally
  obtain rfl := Except.ok.inj htally
  rw [Run.summarize_of_lookup hfound, hsizes, List.length_append, List.sum_append, List.length_map,
    List.length_zipIdx]

end Directory

end Placed

end DocumentSet

end XmlWorkload
