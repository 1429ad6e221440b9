import XmlWorkload.Proofs.Disk.Ready
import XmlWorkload.Proofs.Run.Carried
import XmlWorkload.Proofs.Run.Outcome
import XmlWorkload.Proofs.Set.Frame

/-!
# What runs do to a disk

A run that is refused or not asked to write leaves the disk as it was.  A run that writes makes its
output directory ready and puts the files of its cycles there, whatever comes of the cycles.  Main
statement: this is all that it does, in whatever order its workers take their steps
(`Run.effect_of_run`).
-/

set_option autoImplicit false

namespace XmlWorkload.Run

/-- A run is refused or not asked to write: its workload cannot be loaded, it has no workers, it is
only to show its cycles, its root has no valid name, or its output path names a file. -/
inductive Declined (request : RunRequest) (disk : Disk) : Prop where
  | unloaded {error : LoadError} (hload : loadWorkload request.workload disk = .error error)
  | noThreads (hthreads : request.threads = 0)
  | shown (hdry : request.dryRun = true)
  | badRoot {workload : Workload} {error : Error}
      (hload : loadWorkload request.workload disk = .ok workload)
      (hroot : Name.validate (rootOf request workload) = .error error)
  | occupied {place : Location} {file : Nat}
      (hlookup : disk.lookup request.outputDirectory = .ok (place, .file file))

/-- A run writes the file with an index: it is that of a cycle that is carried out and resolves. -/
def Writes (request : RunRequest) (workload : Workload) (index : Nat) : Prop :=
  workload.WritesFile (rangeOf request workload) request.threads index

/-- A place that no file of a run takes. -/
def Unused (request : RunRequest) (workload : Workload) (location place : Location) : Prop :=
  ∀ index, Writes request workload index → place ≠ location ++ [DocumentSet.fileName index]

/-- What a run that writes does to a disk.  Its directory is there, with a new file for each index of
a cycle that is carried out and resolves.  Everything that was in it before is gone, unless its path was not found and
has a step up.  Elsewhere nothing has changed apart from new directories on the way, which are those
above the directory if its path has no step up.  Files from before keep their contents. -/
structure Effect (request : RunRequest) (workload : Workload) (location : Location)
    (disk left : Disk) : Prop where
  found : left.lookup request.outputDirectory = .ok (location, .directory)
  files : ∀ index, Writes request workload index → ∃ file,
    left.entry? (location ++ [DocumentSet.fileName index]) = some (.file file) ∧
      disk.contents.size ≤ file
  cleared : disk.Clears request.outputDirectory → ∀ place, Disk.Below location place →
    Unused request workload location place → left.entry? place = none
  kept : ¬ disk.Clears request.outputDirectory → ∀ place, Disk.Below location place →
    Unused request workload location place →
    left.entry? place = disk.entry? place ∨ Disk.Paved request.outputDirectory disk left place
  outside : ∀ place, ¬ Disk.Below location place →
    left.entry? place = disk.entry? place ∨ Disk.Paved request.outputDirectory disk left place
  parents : ".." ∉ Path.names request.outputDirectory →
    ∀ place, Disk.Paved request.outputDirectory disk left place → place <+: location
  contents : ∀ (place : Location) (file : Nat), disk.entry? place = some (.file file) →
    left.contentsOf file = disk.contentsOf file

variable {request : RunRequest} {workload : Workload} {disk left : Disk} {location : Location}
  {result : Except RunError RunReport} {outcome : RunOutcome}

/-- A directory that was made ready, and that files of documents were added to, is as a run that
writes leaves it. -/
theorem effect_of_placed {made : List Nat} (hdisk : disk.WellFormed)
    (h : Unhindered request workload disk location)
    (hplaced : DocumentSet.Placed location (newSet request workload disk).disk made left)
    (hnodup : made.Nodup)
    (hmade : ∀ index, index ∈ made ↔ Writes request workload index)
    (hcontents : ∀ file < (newSet request workload disk).disk.contents.size,
      left.contentsOf file = (newSet request workload disk).disk.contentsOf file) :
    Effect request workload location disk left := by
  let directory := request.outputDirectory
  let prepared := (newSet request workload disk).disk
  have hfiles : Disk.SameFiles disk prepared := DocumentSet.sameFiles_prepare directory disk
  have hreadied : Disk.Readied directory location disk prepared :=
    Disk.readied_of_prepare (Prod.ext h.prepare rfl) h.ready
  have hother : ∀ place, Unused request workload location place →
      left.entry? place = prepared.entry? place :=
    fun place hunused => hplaced.entry?_of_other fun index hindex =>
      hunused index ((hmade index).1 hindex)
  have hkept : ∀ place, ¬ (disk.Clears directory ∧ Disk.Below location place) →
      Unused request workload location place →
      left.entry? place = disk.entry? place ∨ Disk.Paved directory disk left place := by
    intro place hplace hunused
    have hsame := hother place hunused
    rcases hreadied.kept hplace with hold | hpaved
    · exact .inl (hsame.trans hold)
    · exact .inr { hpaved with made := hsame.trans hpaved.made }
  refine
    { found := hplaced.extends_before.lookup_directory h.ready
      files := ?_
      cleared := ?_
      kept := fun hclears place _ => hkept place fun hboth => hclears hboth.1
      outside := ?_
      parents := fun hnames place hpaved => hreadied.prefix_of_onWay hnames hpaved.onWay
      contents := ?_ }
  · intro index hindex
    obtain ⟨number, hnumber⟩ := List.getElem?_of_mem ((hmade index).2 hindex)
    obtain ⟨cycle, step, hcycle, hresolve, rfl⟩ := hindex
    -- the file of the cycle could be made, so nothing else was in its place
    obtain ⟨file, made, hcreate⟩ := h.files cycle hcycle.mem_cycles step hresolve
    obtain ⟨-, -, hfree⟩ :=
      Disk.of_createFile_join h.ready (DocumentSet.isPlain_fileName step.file) hcreate
    refine ⟨_, hplaced.entry?_of_mem hnodup hfree hnumber, ?_⟩
    rw [← hfiles.contents]
    exact Nat.le_add_right _ _
  · intro hclears place hbelow hunused
    rw [hother place hunused]
    exact hreadied.cleared hdisk hclears hbelow
  · intro place hbelow
    refine hkept place (fun hboth => hbelow hboth.2) ?_
    rintro index - rfl
    exact hbelow (Disk.below_concat _ _)
  · intro place file hplace
    have hfile := hdisk.file_lt hplace
    rw [← hfiles.contents] at hfile
    rw [hcontents file hfile, Disk.contentsOf, Disk.contentsOf, hfiles.contents]

/-- What the workers of a run do to a disk on which no operation fails, whatever comes of the
cycles. -/
theorem effect_of_writesCycles (hpaths : workload.HasPaths) (hthreads : request.threads ≠ 0)
    (hroot : Name.validate (rootOf request workload) = .ok ()) (hdisk : disk.WellFormed)
    (h : Unhindered request workload disk location)
    (hwrites : WritesCycles request workload disk result left) :
    Effect request workload location disk left := by
  have hcreate := create_newSet hroot h.prepare
  have hpositive := Nat.pos_of_ne_zero hthreads
  have hready : Ready workload (rangeOf request workload) (newSet request workload disk) location :=
    ⟨hpaths, h.ready, h.files⟩
  obtain ⟨crew, hreaches, hover, -, rfl⟩ := hwrites.exists_crew hroot h.prepare
  have hstart : Crew.Sound workload (rangeOf request workload) (newSet request workload disk)
      location _ := Crew.sound_start h.room hcreate hpositive location
  have hsound := hstart.reaches hready hreaches
  have hsteady := (Crew.steady_start h.room hcreate hpositive).reaches h.files hreaches
  have hcarrying := (Crew.carrying_start (newSet request workload disk)).reaches
    (Crew.fits_start (rangeOf request workload) request.threads _) hreaches
  have hidle : ∀ worker ∈ crew.workers, worker.stage = .idle :=
    fun worker hworker => (hover worker hworker).1
  have hclosing := (Crew.mounted_of_idle hsound.service hidle).frame_closeDocuments
  apply effect_of_placed hdisk h (hsound.placed.of_samePlaces hclosing.toSamePlaces)
    hsound.service.mounted.nodup (hsteady.mem_made_iff_of_over hcarrying hover)
  -- neither the workers nor the closing write to files that were there before the set
  intro file hfile
  rw [hclosing.contents file hfile]
  exact hstart.service.contents_reaches (Crew.reaches_service hreaches) hfile

/-- A run whose set cannot be made leaves the disk as the attempt left it. -/
theorem eq_of_create_error {error : Error} {after : Disk}
    (hcreate : (DocumentSet.create request.outputDirectory (rootOf request workload) .shared).run
      disk = (.error error, after)) (h : WritesCycles request workload disk result left) :
    left = after := by
  have hrequest : MountedSpace.requestDocuments request.outputDirectory (rootOf request workload)
      ⟨.new spaceName .shared, disk⟩ = (.error error, ⟨.new spaceName .shared, after⟩) := by
    simp only [Action.run] at hcreate
    simp only [MountedSpace.requestDocuments, Space.new, hcreate]
  unfold WritesCycles at h
  simp only [hrequest] at h
  exact h.2

/-- A run that is refused or not asked to write leaves the disk as it was. -/
theorem eq_of_declined (hdeclined : Declined request disk) (hends : Ends request disk outcome left) :
    left = disk := by
  cases hends with
  | unloaded hload => rfl
  | noThreads hload hthreads => rfl
  | shown hload hthreads hdry => rfl
  | @written workload result _ hload hthreads hwriting hwrites =>
    have hbadRoot : ∀ error, Name.validate (rootOf request workload) = .error error →
        left = disk := by
      intro error hroot
      have hcreate : (DocumentSet.create request.outputDirectory (rootOf request workload)
          .shared).run disk = (.error error, disk) := by
        unfold DocumentSet.create
        rw [Action.run_ofExcept_bind_of_error hroot]
      exact eq_of_create_error hcreate hwrites
    cases hdeclined with
    | unloaded hload' =>
      rw [hload] at hload'
      cases hload'
    | noThreads hnone => exact absurd hnone hthreads
    | shown hdry =>
      rw [hwriting] at hdry
      cases hdry
    | badRoot hload' hroot =>
      rw [hload] at hload'
      cases hload'
      exact hbadRoot _ hroot
    | occupied hlookup =>
      cases hroot : Name.validate (rootOf request workload) with
      | error error => exact hbadRoot error hroot
      | ok value =>
        have hprepare : (DocumentSet.prepare request.outputDirectory).run disk =
            (.error (.outputDirectory request.outputDirectory .taken), disk) := by
          simp only [Action.run, DocumentSet.prepare, hlookup]
        have hcreate : (DocumentSet.create request.outputDirectory (rootOf request workload)
            .shared).run disk =
              (.error (.outputDirectory request.outputDirectory .taken), disk) := by
          unfold DocumentSet.create
          rw [Action.run_ofExcept_bind_of_ok hroot, Action.run_bind_of_error hprepare]
        exact eq_of_create_error hcreate hwrites

/-- The root of a run that is not declined has a valid name. -/
theorem root_of_not_declined (hdeclined : ¬ Declined request disk)
    (hload : loadWorkload request.workload disk = .ok workload) :
    Name.validate (rootOf request workload) = .ok () := by
  cases hroot : Name.validate (rootOf request workload) with
  | error error => exact absurd (.badRoot hload hroot) hdeclined
  | ok value => rfl

/-- Any other run has its effect on a disk on which no operation fails, whatever it comes to. -/
theorem effect_of_not_declined (hdeclined : ¬ Declined request disk) (hdisk : disk.WellFormed)
    (hload : loadWorkload request.workload disk = .ok workload)
    (h : Unhindered request workload disk location) (hends : Ends request disk outcome left) :
    Effect request workload location disk left := by
  have hthreads : request.threads ≠ 0 := fun hnone => hdeclined (.noThreads hnone)
  have hwriting : request.dryRun = false := by
    rw [← Bool.not_eq_true]
    exact fun hdry => hdeclined (.shown hdry)
  exact effect_of_writesCycles (Workload.hasPaths_of_loadWorkload hload) hthreads
    (root_of_not_declined hdeclined hload) hdisk h (hends.writesCycles hload hthreads hwriting)

/-- What a run does to a disk, whatever the number of its workers and in whatever order their steps
fall.  The run ends.  If it is refused or not asked to write the disk is left as it was.  Otherwise,
where no operation on the disk fails, it empties its directory, unless the path was not found and has
a step up, puts a new file there for each index of a cycle that is carried out and resolves, and
makes directories on the way; and that is all, whatever comes of the cycles.  The cycles that are
carried out are all of the run, unless one of them ends the work of its worker. -/
theorem effect_of_run (request : RunRequest) (disk : Disk) :
    (∃ outcome left, Ends request disk outcome left) ∧
    ∀ outcome left, Ends request disk outcome left →
      (Declined request disk → left = disk) ∧
      (¬ Declined request disk → disk.WellFormed → ∀ workload location,
        loadWorkload request.workload disk = .ok workload →
        Unhindered request workload disk location →
          Effect request workload location disk left ∧
          ((∀ cycle ∈ (rangeOf request workload).cycles,
              ¬ workload.Overflows (seedOf request workload) cycle) →
            ∀ index, Writes request workload index ↔
              index ∈ workload.fileIndices (rangeOf request workload))) := by
  refine ⟨⟨_, _, ends_perform request disk⟩, ?_⟩
  intro outcome left hends
  refine ⟨fun hdeclined => eq_of_declined hdeclined hends, ?_⟩
  intro hdeclined hdisk workload location hload h
  have hthreads : request.threads ≠ 0 := fun hnone => hdeclined (.noThreads hnone)
  exact ⟨effect_of_not_declined hdeclined hdisk hload h hends,
    Workload.writesFile_iff (Nat.pos_of_ne_zero hthreads)⟩

/-- The small request is not declined unless its output path names a file. -/
theorem not_declined_small {directory : String} {disk : Disk}
    (hload : loadWorkload "w.yaml" disk = .ok smallWorkload)
    (hlookup : ∀ place file, disk.lookup directory ≠ .ok (place, .file file)) :
    ¬ Declined (requestTo directory) disk := by
  intro hdeclined
  cases hdeclined with
  | unloaded hload' =>
    cases hload.symm.trans hload'
  | noThreads hthreads => cases hthreads
  | shown hdry => cases hdry
  | badRoot hload' hroot =>
    cases hload.symm.trans hload'
    have hvalid : Name.validate "root" = .ok () := by rfl
    cases hvalid.symm.trans hroot
  | occupied hlookup' => exact hlookup _ _ hlookup'

/-- The only file of the small request is the one with the index 0. -/
theorem writes_small (directory : String) (index : Nat) :
    Writes (requestTo directory) smallWorkload index ↔ index = 0 := by
  have hindices : smallWorkload.fileIndices (rangeOf (requestTo directory) smallWorkload) = [0] :=
    fileIndices_small
  have hnone : ∀ cycle ∈ (rangeOf (requestTo directory) smallWorkload).cycles,
      ¬ smallWorkload.Overflows (seedOf (requestTo directory) smallWorkload) cycle :=
    fun cycle _ => Workload.not_overflows_of_resolve (resolve_small _ cycle)
  have hthreads : 0 < (requestTo directory).threads := Nat.zero_lt_succ 2
  unfold Writes
  rw [Workload.writesFile_iff hthreads hnone, hindices, List.mem_singleton]

/-- A place other than that of the one document of the small request is not taken. -/
theorem unused_small {directory : String} {location place : Location}
    (h : place ≠ location ++ ["xml0.xml"]) :
    Unused (requestTo directory) smallWorkload location place := by
  have hname : DocumentSet.fileName 0 = "xml0.xml" := by rfl
  intro index hindex
  rw [(writes_small directory index).1 hindex, hname]
  exact h

/-- A disk with the small workload on it, and with a directory that has files and a directory. -/
def crowdedDisk : Disk :=
  ⟨[], [(["w.yaml"], .file 0), (["out"], .directory), (["out", "old.txt"], .file 1),
    (["out", "sub"], .directory), (["out", "sub", "deep.txt"], .file 2)],
    #[smallText.toUTF8, "old".toUTF8, "deep".toUTF8], none⟩

/-- No operation of the small request fails on the crowded disk. -/
theorem unhindered_crowded : Unhindered (requestTo "out") smallWorkload crowdedDisk ["out"] where
  room := rfl
  prepare := by rfl
  ready := by rfl
  files := prepared_small ⟨3, _, by rfl⟩

/-- A run empties a directory with files and directories, and puts its one document there. -/
theorem effect_of_run_crowded :
    loadWorkload "w.yaml" crowdedDisk = .ok smallWorkload ∧
      ¬ Declined (requestTo "out") crowdedDisk ∧ crowdedDisk.WellFormed ∧
      Unhindered (requestTo "out") smallWorkload crowdedDisk ["out"] ∧
      (∃ outcome left, Ends (requestTo "out") crowdedDisk outcome left) ∧
      ∀ outcome left, Ends (requestTo "out") crowdedDisk outcome left →
        left.entry? ["out", "old.txt"] = none ∧ left.entry? ["out", "sub", "deep.txt"] = none ∧
          ∃ file, left.entry? ["out", "xml0.xml"] = some (.file file) := by
  have hload : loadWorkload "w.yaml" crowdedDisk = .ok smallWorkload :=
    loadWorkload_of_readFile (by rfl)
  have hlookup : crowdedDisk.lookup "out" = .ok (["out"], .directory) := by rfl
  have hdeclined : ¬ Declined (requestTo "out") crowdedDisk := by
    apply not_declined_small hload
    intro place file hfile
    cases hlookup.symm.trans hfile
  have hdisk : crowdedDisk.WellFormed := by decide
  obtain ⟨hends, hall⟩ := effect_of_run (requestTo "out") crowdedDisk
  refine ⟨hload, hdeclined, hdisk, unhindered_crowded, hends, ?_⟩
  intro outcome left hend
  have heffect := ((hall outcome left hend).2 hdeclined hdisk smallWorkload ["out"] hload
    unhindered_crowded).1
  have hclears : crowdedDisk.Clears "out" := .inl ⟨_, hlookup⟩
  obtain ⟨file, hfile, -⟩ := heffect.files 0 ((writes_small "out" 0).2 rfl)
  exact ⟨heffect.cleared hclears _ ⟨⟨["old.txt"], rfl⟩, by simp⟩ (unused_small (by simp)),
    heffect.cleared hclears _ ⟨⟨["sub", "deep.txt"], rfl⟩, by simp⟩ (unused_small (by simp)),
    file, hfile⟩

/-- A disk with the small workload on it, and with a directory that has a file. -/
def boxDisk : Disk :=
  ⟨[], [(["w.yaml"], .file 0), (["box"], .directory), (["box", "keep.txt"], .file 1)],
    #[smallText.toUTF8, "x".toUTF8], none⟩

/-- No operation of the small request fails on the disk with a box. -/
theorem unhindered_box :
    Unhindered (requestTo "box/gone/..") smallWorkload boxDisk ["box"] where
  room := rfl
  prepare := by rfl
  ready := by rfl
  files := prepared_small ⟨2, _, by rfl⟩

/-- A run does not empty a directory when its path was not found and leads down and up again. -/
theorem not_cleared :
    ¬ ∀ (request : RunRequest) (workload : Workload) (disk left : Disk) (location : Location)
      (outcome : RunOutcome), ¬ Declined request disk → disk.WellFormed →
      loadWorkload request.workload disk = .ok workload →
      Unhindered request workload disk location → Ends request disk outcome left →
      ∀ place, Disk.Below location place → Unused request workload location place →
        left.entry? place = none := by
  intro hall
  have hload : loadWorkload "w.yaml" boxDisk = .ok smallWorkload :=
    loadWorkload_of_readFile (by rfl)
  have hlookup : boxDisk.lookup "box/gone/.." = .error .notFound := by rfl
  have hmissing : ∀ found, boxDisk.lookup "box/gone/.." ≠ .ok found := by
    intro found hfound
    cases hlookup.symm.trans hfound
  have hdeclined : ¬ Declined (requestTo "box/gone/..") boxDisk :=
    not_declined_small hload fun _ _ => hmissing _
  have hdisk : boxDisk.WellFormed := by decide
  have hends := ends_perform (requestTo "box/gone/..") boxDisk
  have hbelow : Disk.Below ["box"] ["box", "keep.txt"] := ⟨⟨["keep.txt"], rfl⟩, by simp⟩
  have hunused : Unused (requestTo "box/gone/..") smallWorkload ["box"] ["box", "keep.txt"] :=
    unused_small (by simp)
  have hgone := hall _ _ _ _ _ _ hdeclined hdisk hload unhindered_box hends _ hbelow hunused
  have heffect := effect_of_not_declined hdeclined hdisk hload unhindered_box hends
  have hclears : ¬ boxDisk.Clears "box/gone/.." := by
    rintro (⟨found, hfound⟩ | hnames)
    · exact hmissing found hfound
    · have hpieces : Path.names "box/gone/.." = ["box", "gone", ".."] := by rfl
      rw [hpieces] at hnames
      simp at hnames
  -- the file would be gone with everything else, but it was kept
  have hthere : boxDisk.entry? ["box", "keep.txt"] = some (.file 1) := by rfl
  rcases heffect.kept hclears _ hbelow hunused with hsame | hpaved
  · cases hgone.symm.trans (hsame.trans hthere)
  · cases hpaved.nothing.symm.trans hthere

end XmlWorkload.Run
