import Mathlib.Data.List.Induction
import XmlWorkload.Proofs.Disk.Ways
import XmlWorkload.Proofs.Set.Creation

/-!
# Directories made ready

A directory that is made ready is emptied if its path is found.  Otherwise it is made with the
directories on the way to it.  Main statements: outside of it nothing changes apart from new
directories on the way (`Disk.Readied.kept`); and inside of it nothing is left, if its path was found
or has no step up (`Disk.Readied.cleared`).
-/

set_option autoImplicit false

namespace XmlWorkload

namespace Disk

/-- A place lies below another one. -/
def Below (location place : Location) : Prop := location <+: place ∧ place ≠ location

/-- Everything on a disk lies in a directory, and every file has contents. -/
structure WellFormed (disk : Disk) : Prop where
  nested : ∀ (place : Location) (entry : Entry), (place, entry) ∈ disk.entries →
    disk.entry? place.dropLast = some .directory
  stored : ∀ (place : Location) (file : Nat), (place, .file file) ∈ disk.entries →
    file < disk.contents.size

/-- Whether the contents of an entry are on a disk. -/
def isStored (disk : Disk) : Entry → Bool
  | .directory => true
  | .file number => number < disk.contents.size

/-- Whether a disk is well-formed can be checked entry by entry. -/
theorem wellFormed_iff (disk : Disk) : disk.WellFormed ↔
    (disk.entries.all fun listed =>
      disk.entry? listed.1.dropLast == some .directory && disk.isStored listed.2) = true := by
  simp only [List.all_eq_true, Bool.and_eq_true, beq_iff_eq]
  constructor
  · rintro hdisk ⟨place, entry⟩ hmem
    refine ⟨hdisk.nested place entry hmem, ?_⟩
    cases entry with
    | directory => rfl
    | file number => exact decide_eq_true (hdisk.stored place number hmem)
  · intro hall
    exact ⟨fun place entry hmem => (hall (place, entry) hmem).1,
      fun place file hmem => of_decide_eq_true (hall (place, .file file) hmem).2⟩

instance (disk : Disk) : Decidable disk.WellFormed := decidable_of_iff _ (wellFormed_iff disk).symm

section Below

variable {disk : Disk} {location place : Location} {entry : Entry}

/-- What is found at a place below the root is listed. -/
theorem mem_of_entry? (hplace : place ≠ []) (h : disk.entry? place = some entry) :
    (place, entry) ∈ disk.entries := by
  unfold entry? at h
  rw [if_neg hplace] at h
  obtain ⟨⟨place', entry'⟩, hfound, rfl⟩ := Option.map_eq_some_iff.1 h
  have hsame : (place' == place) = true :=
    List.find?_some (p := fun listed : Location × Entry => listed.1 == place) hfound
  obtain rfl : place' = place := beq_iff_eq.1 hsame
  exact List.mem_of_find?_eq_some hfound

/-- What is listed on a disk is something in its place. -/
theorem entry?_ne_none_of_mem (h : (place, entry) ∈ disk.entries) : disk.entry? place ≠ none := by
  intro hnone
  unfold entry? at hnone
  split at hnone
  · cases hnone
  · rw [Option.map_eq_none_iff, List.find?_eq_none] at hnone
    exact hnone _ h (beq_self_eq_true place)

/-- What has a name in a directory is below the directory. -/
theorem below_concat (location : Location) (name : String) : Below location (location ++ [name]) :=
  ⟨List.prefix_append _ _, by simp⟩

/-- A file that is found at a place of a well-formed disk has contents. -/
theorem WellFormed.file_lt {file : Nat} (hdisk : WellFormed disk)
    (h : disk.entry? place = some (.file file)) : file < disk.contents.size := by
  have hplace : place ≠ [] := by
    rintro rfl
    cases h
  have hmem := mem_of_entry? hplace h
  exact hdisk.stored _ _ hmem

/-- Above everything there are directories. -/
theorem WellFormed.above (hdisk : WellFormed disk) (h : disk.entry? place = some entry)
    (hbelow : Below location place) : disk.entry? location = some .directory := by
  induction place using List.reverseRecOn generalizing entry with
  | nil => exact absurd (List.prefix_nil.1 hbelow.1).symm hbelow.2
  | append_singleton front name ih =>
    have hmem := mem_of_entry? (by simp) h
    have hfront := hdisk.nested _ _ hmem
    rw [List.dropLast_concat] at hfront
    rcases List.prefix_concat_iff.1 hbelow.1 with heq | habove
    · exact absurd heq.symm hbelow.2
    · by_cases heq : front = location
      · rwa [heq] at hfront
      · exact ih hfront ⟨habove, heq⟩

/-- Where nothing is, there is nothing below either. -/
theorem WellFormed.nothing_below (hdisk : WellFormed disk) (h : disk.entry? location = none)
    (hbelow : Below location place) : disk.entry? place = none := by
  cases hentry : disk.entry? place with
  | none => rfl
  | some entry =>
    have habove := hdisk.above hentry hbelow
    rw [h] at habove
    cases habove

/-- Nothing is left below a place when all below it was removed. -/
theorem entry?_removeBelow (hbelow : Below location place) :
    Disk.entry? (disk.removeBelow location false) place = none := by
  have hne : place ≠ [] := by
    rintro rfl
    exact hbelow.2 (List.prefix_nil.1 hbelow.1).symm
  unfold entry? removeBelow
  rw [if_neg hne, Option.map_eq_none_iff, List.find?_eq_none]
  intro listed hlisted hplace
  have hkept := (List.mem_filter.1 hlisted).2
  rw [beq_iff_eq.1 hplace] at hkept
  simp [List.isPrefixOf_iff_prefix.2 hbelow.1, hbelow.2] at hkept

/-- What is not below a place stays when all below it is removed. -/
theorem entry?_removeBelow_of_not_below (hbelow : ¬ Below location place) :
    Disk.entry? (disk.removeBelow location false) place = disk.entry? place := by
  unfold entry? removeBelow
  rw [List.find?_filter]
  congr 3
  funext listed
  by_cases hplace : listed.1 = place
  · have hkept : (location.isPrefixOf place && place != location) = false := by
      rw [Bool.eq_false_iff]
      intro hin
      simp only [Bool.and_eq_true, List.isPrefixOf_iff_prefix, bne_iff_ne] at hin
      exact hbelow hin
    simp [hplace, hkept]
  · simp [hplace]

end Below

/-- Where a path starts. -/
def base (disk : Disk) (path : String) : Location :=
  if Path.isAbsolute path then [] else disk.workingDirectory

/-- The first names of a path lead to a place. -/
def OnWay (disk : Disk) (path : String) (place : Location) : Prop :=
  ∃ count, place = reach (disk.base path) ((Path.names path).take count)

/-- A path leads to a place when it passes its check and can be walked. -/
theorem walk_of_locate {disk : Disk} {path : String} {place : Location}
    (h : disk.locate path = .ok place) :
    checkPath path = .ok () ∧ disk.walk (disk.base path) (Path.names path) = .ok place := by
  unfold locate at h
  cases hcheck : checkPath path with
  | error fault =>
    rw [hcheck] at h
    cases h
  | ok value =>
    rw [hcheck] at h
    exact ⟨rfl, h⟩

/-- The place that a path leads to is read off its names. -/
theorem eq_reach_of_locate {disk : Disk} {path : String} {place : Location}
    (h : disk.locate path = .ok place) : place = reach (disk.base path) (Path.names path) :=
  eq_reach_of_walk (walk_of_locate h).2

/-- Without steps up the way to a place passes places above it only. -/
theorem OnWay.prefix {disk other : Disk} {path : String} {place location : Location}
    (h : disk.OnWay path place) (hnames : ".." ∉ Path.names path)
    (hlocate : other.locate path = .ok location)
    (hworking : other.workingDirectory = disk.workingDirectory) : place <+: location := by
  obtain ⟨count, rfl⟩ := h
  have hbase : other.base path = disk.base path := by
    unfold base
    rw [hworking]
  rw [eq_reach_of_locate hlocate, hbase]
  exact reach_take_prefix hnames _ count

/-- One disk is another one with new directories at the places of some paths. -/
structure Widens (paths : List String) (before after : Disk) : Prop extends Extends before after where
  entry?_cases : ∀ place, after.entry? place = before.entry? place ∨
    ∃ path ∈ paths, before.entry? place = none ∧ after.entry? place = some .directory ∧
      after.locate path = .ok place

namespace Widens

variable {paths others : List String} {before middle after : Disk}

/-- A disk that nothing happened to has been widened by no path. -/
theorem refl (paths : List String) (disk : Disk) : Widens paths disk disk :=
  ⟨⟨rfl, [], (List.append_nil _).symm⟩, fun _ => .inl rfl⟩

/-- Widening a disk twice widens it by the paths of both times. -/
theorem trans (h₁ : Widens paths before middle) (h₂ : Widens others middle after) :
    Widens (paths ++ others) before after := by
  obtain ⟨first, hfirst⟩ := h₁.entries
  obtain ⟨second, hsecond⟩ := h₂.entries
  refine ⟨⟨h₂.workingDirectory.trans h₁.workingDirectory, first ++ second, ?_⟩, ?_⟩
  · rw [hsecond, hfirst, List.append_assoc]
  · intro place
    rcases h₂.entry?_cases place with hsame | ⟨path, hpath, hnone, hmade, hlocate⟩
    · rw [hsame]
      refine (h₁.entry?_cases place).imp_right ?_
      rintro ⟨path, hpath, hnone, hmade, hlocate⟩
      exact ⟨path, List.mem_append_left _ hpath, hnone, hmade, h₂.locate hlocate⟩
    · refine .inr ⟨path, List.mem_append_right _ hpath, ?_, hmade, hlocate⟩
      -- what was there at first would be there in between
      cases hbefore : before.entry? place with
      | none => rfl
      | some entry =>
        have hthere := h₁.entry? hbefore
        rw [hthere] at hnone
        cases hnone

/-- Making a directory widens a disk by its path. -/
theorem of_createDirectory {path : String} (h : before.createDirectory path = .ok after) :
    Widens [path] before after := by
  unfold createDirectory at h
  cases hlocate : before.locate path with
  | error fault =>
    rw [hlocate] at h
    cases h
  | ok location =>
    simp only [hlocate, bind, Except.bind] at h
    split at h
    · cases h
    · cases h
    · next hnone =>
      split at h
      · cases h
      · cases h
        have hextends : Extends before (before.addEntry location .directory) :=
          ⟨rfl, _, rfl⟩
        refine ⟨hextends, ?_⟩
        intro place
        have hroot : location ≠ [] := by
          rintro rfl
          cases hnone
        by_cases hplace : place = location
        · subst hplace
          refine .inr ⟨path, List.mem_singleton.2 rfl, hnone, ?_, hextends.locate hlocate⟩
          unfold entry? at hnone ⊢
          rw [if_neg hroot, Option.map_eq_none_iff] at hnone
          simp [addEntry, List.find?_append, hnone]
        · -- the new entry is one of another place
          left
          unfold entry? addEntry
          simp [List.find?_append, Ne.symm hplace]

/-- Making sure of a directory widens a disk by its path. -/
theorem of_ensureDirectory {path : String} (h : before.ensureDirectory path = (.ok (), after)) :
    Widens [path] before after := by
  unfold ensureDirectory at h
  split at h
  · next made hmade =>
    cases h
    exact of_createDirectory hmade
  · split at h
    · cases h
      exact refl _ _
    · cases h

/-- Making sure of directories widens a disk by their paths. -/
theorem of_ensureDirectories (h : ensureDirectories paths before = (.ok (), after)) :
    Widens paths before after := by
  induction paths generalizing before with
  | nil =>
    cases h
    exact refl _ _
  | cons path rest ih =>
    rw [ensureDirectories] at h
    split at h
    · next middle hfirst => exact (of_ensureDirectory hfirst).trans (ih h)
    · cases h

end Widens

/-- A directory was made ready at a place of a disk: it was emptied, or made with the directories on
the way to it. -/
inductive Readied (path : String) (location : Location) (before after : Disk) : Prop where
  | emptied (hlookup : before.lookup path = .ok (location, .directory))
      (hafter : after = before.removeBelow location false)
  | made {fault : IoFault} (hlookup : before.lookup path = .error fault)
      (hfound : after.lookup path = .ok (location, .directory))
      (hwidens : Widens (ancestors path) before after)

/-- A directory that could be made ready, and is found behind that, was readied. -/
theorem readied_of_prepare {path : String} {location : Location} {before after : Disk}
    (hprepare : (DocumentSet.prepare path).run before = (.ok (), after))
    (hfound : after.lookup path = .ok (location, .directory)) :
    Readied path location before after := by
  obtain ⟨hne, hlocate, -⟩ := of_lookup_directory hfound
  simp only [Action.run, DocumentSet.prepare] at hprepare
  split at hprepare
  · next fault hmissing =>
    refine .made hmissing hfound ?_
    unfold createDirectories at hprepare
    split at hprepare
    · rw [if_neg hne] at hprepare
      rcases hmade : ensureDirectories (ancestors path) before with ⟨fault' | value, made⟩
      · rw [hmade] at hprepare
        cases hprepare
      · rw [hmade] at hprepare
        cases hprepare
        exact Widens.of_ensureDirectories hmade
    · cases hprepare
  · cases hprepare
  · next place hlookup =>
    cases hprepare
    -- the path leads to the same place before and after
    have hbefore := eq_reach_of_locate (of_lookup_directory hlookup).2.1
    have hafter := eq_reach_of_locate hlocate
    have hsame : location = place := hafter.trans hbefore.symm
    rw [hsame]
    exact .emptied hlookup rfl

/-- What was below the place that a path leads to has to go when a directory is made ready there: the
path was found, or it has no step up. -/
def Clears (disk : Disk) (path : String) : Prop :=
  (∃ found, disk.lookup path = .ok found) ∨ ".." ∉ Path.names path

/-- A directory was made on the way of a path that was not found. -/
structure Paved (path : String) (before after : Disk) (place : Location) : Prop where
  missing : ∀ found, before.lookup path ≠ .ok found
  nothing : before.entry? place = none
  made : after.entry? place = some .directory
  onWay : before.OnWay path place

namespace Readied

variable {path : String} {location place : Location} {before after : Disk}

/-- Where the directories on the way of a path are made, they are all that comes about. -/
theorem paved_of_made {fault : IoFault} (hlookup : before.lookup path = .error fault)
    (hne : path ≠ "") (hwidens : Widens (ancestors path) before after) (place : Location) :
    after.entry? place = before.entry? place ∨ Paved path before after place := by
  refine (hwidens.entry?_cases place).imp_right ?_
  rintro ⟨part, hpart, hnone, hmade, hlocate⟩
  obtain ⟨⟨count, hnames⟩, habsolute⟩ := Path.names_of_mem_ancestors hne hpart
  refine ⟨?_, hnone, hmade, count, ?_⟩
  · intro found hfound
    rw [hlookup] at hfound
    cases hfound
  · rw [eq_reach_of_locate hlocate, hnames, base, base, habsolute, hwidens.workingDirectory]

/-- Outside of a directory that was made ready everything is as it was, apart from new directories on
the way to it.  The same goes for what is inside, if it does not have to go. -/
theorem kept (h : Readied path location before after)
    (hplace : ¬ (before.Clears path ∧ Below location place)) :
    after.entry? place = before.entry? place ∨ Paved path before after place := by
  cases h with
  | emptied hlookup hafter =>
    rw [hafter]
    left
    apply entry?_removeBelow_of_not_below
    exact fun hbelow => hplace ⟨.inl ⟨_, hlookup⟩, hbelow⟩
  | made hlookup hfound hwidens =>
    exact paved_of_made hlookup (of_lookup_directory hfound).1 hwidens place

/-- Without steps up the new directories are those above the one that was made ready. -/
theorem prefix_of_onWay (h : Readied path location before after) (hnames : ".." ∉ Path.names path)
    (hplace : before.OnWay path place) : place <+: location := by
  cases h with
  | emptied hlookup hafter => exact hplace.prefix hnames (of_lookup_directory hlookup).2.1 rfl
  | made hlookup hfound hwidens =>
    exact hplace.prefix hnames (of_lookup_directory hfound).2.1 hwidens.workingDirectory

/-- A directory that was made ready is empty if its path was found or has no step up. -/
theorem cleared (h : Readied path location before after) (hbefore : before.WellFormed)
    (hpath : before.Clears path) (hplace : Below location place) : after.entry? place = none := by
  cases h with
  | emptied hlookup hafter =>
    rw [hafter]
    exact entry?_removeBelow hplace
  | made hlookup hfound hwidens =>
    have hnames : ".." ∉ Path.names path := by
      refine hpath.resolve_left ?_
      rintro ⟨found, hfound⟩
      rw [hlookup] at hfound
      cases hfound
    obtain ⟨hne, hlocate, hentry⟩ := of_lookup_directory hfound
    have hnothing : before.entry? location = none := by
      cases hthere : before.entry? location with
      | none => rfl
      | some entry =>
        have hsame := hwidens.entry? hthere
        rw [hentry] at hsame
        cases hsame
        -- with directories all the way the path would have been found
        exfalso
        obtain ⟨hcheck, hwalk⟩ := walk_of_locate hlocate
        have hwalk' : before.walk (after.base path) (Path.names path) = .ok location := by
          apply walk_of_directories hnames hwalk
          intro front hfront
          by_cases heq : front = location
          · rwa [heq]
          · exact hbefore.above hthere ⟨hfront, Ne.symm heq⟩
        have hlocate' : before.locate path = .ok location := by
          rw [base, hwidens.workingDirectory] at hwalk'
          unfold locate
          rw [hcheck]
          exact hwalk'
        rw [lookup_of_locate hne hlocate', hthere] at hlookup
        cases hlookup
    rcases paved_of_made hlookup hne hwidens place with hsame | hpaved
    · rw [hsame]
      exact hbefore.nothing_below hnothing hplace
    · -- what was made on the way lies above the directory, not below it
      have habove := hpaved.onWay.prefix hnames hlocate hwidens.workingDirectory
      exact absurd (habove.eq_of_length_le hplace.1.length_le) hplace.2

end Readied

end Disk

end XmlWorkload
