import Mathlib
import XmlWorkload.Proofs.Disk.Ready
import XmlWorkload.Proofs.Run.Steady

/-!
# What runs come to

A run that is asked to write has its workers carry out the cycles in some order, closes the documents
and sums up.  Main statements: carrying out the cycles worker by worker is one way in which a run can
end (`Run.ends_perform`); where no operation on the disk fails, a run succeeds exactly when each of
its cycles can be written, and then its files are the reference documents of what the cycles emit
(`Run.outcome_of_unhindered`); and a directory that was not emptied is summed up with the files from
before (`Run.not_counted`).
-/

set_option autoImplicit false

namespace XmlWorkload.Run

/-- The cycles of a run. -/
def rangeOf (request : RunRequest) (workload : Workload) : CycleRange :=
  ⟨seedOf request workload, request.startCycle, request.cycles⟩

/-- What a run comes to whose workers carry out the cycles in some order: they start on a new set, and
when none of them takes a step any more the documents are closed and the result is summed up. -/
def WritesCycles (request : RunRequest) (workload : Workload) (disk : Disk)
    (result : Except RunError RunReport) (left : Disk) : Prop :=
  let directory := request.outputDirectory
  match MountedSpace.requestDocuments directory (rootOf request workload)
      ⟨.new spaceName .shared, disk⟩ with
  | (.error error, space) => result = .error (.directory directory error) ∧ left = space.disk
  | (.ok (set, _), space) =>
    ∃ crew, Crew.Reaches workload (seedOf request workload)
        (.start (rangeOf request workload) request.threads ⟨set, space.disk⟩) crew ∧
      crew.IsOver workload (seedOf request workload) ∧
      let written : MountedSpace :=
        ⟨{ space.space with documents := some crew.mounted.set }, crew.mounted.disk⟩
      let closed := MountedSpace.close written
      result = conclude request workload crew.work closed.1 closed.2.disk ∧
        left = closed.2.disk

/-- The outcomes with which a run can end, and the disk that it leaves behind. -/
inductive Ends (request : RunRequest) (disk : Disk) : RunOutcome → Disk → Prop where
  | unloaded {error : LoadError} (hload : loadWorkload request.workload disk = .error error) :
      Ends request disk ⟨[], .error (.workload request.workload error)⟩ disk
  | noThreads {workload : Workload} (hload : loadWorkload request.workload disk = .ok workload)
      (hthreads : request.threads = 0) : Ends request disk ⟨[], .error .noThreads⟩ disk
  | shown {workload : Workload} (hload : loadWorkload request.workload disk = .ok workload)
      (hthreads : request.threads ≠ 0) (hdry : request.dryRun = true) :
      Ends request disk (showCycles request workload) disk
  | written {workload : Workload} {result : Except RunError RunReport} {left : Disk}
      (hload : loadWorkload request.workload disk = .ok workload) (hthreads : request.threads ≠ 0)
      (hwriting : request.dryRun = false)
      (hwrites : WritesCycles request workload disk result left) : Ends request disk ⟨[], result⟩ left

/-- Carrying out the cycles worker by worker is one of the orders. -/
theorem writesCycles_writeCycles (request : RunRequest) (workload : Workload) (disk : Disk) :
    WritesCycles request workload disk (writeCycles request workload disk).1
      (writeCycles request workload disk).2 := by
  unfold WritesCycles writeCycles
  cases hset : DocumentSet.create request.outputDirectory (rootOf request workload) Engine.shared
      disk with
  | mk result left =>
    cases result with
    | error error =>
      have hrequest : MountedSpace.requestDocuments request.outputDirectory
          (rootOf request workload) ⟨.new spaceName .shared, disk⟩ =
            (.error error, ⟨.new spaceName .shared, left⟩) := by
        simp only [MountedSpace.requestDocuments, Space.new, hset]
      simp only [hrequest, and_self]
    | ok set =>
      have hrequest : MountedSpace.requestDocuments request.outputDirectory
          (rootOf request workload) ⟨.new spaceName .shared, disk⟩ =
            (.ok (set, none), ⟨⟨spaceName, .shared, some set⟩, left⟩) := by
        simp only [MountedSpace.requestDocuments, Space.new, hset]
      obtain ⟨crew, hreaches, hover, hpopulate⟩ := Crew.reaches_populate workload
        (rangeOf request workload) request.threads ⟨set, left⟩
      simp only [hrequest]
      refine ⟨crew, hreaches, hover, ?_⟩
      change MountedSet.populate workload
        ⟨seedOf request workload, request.startCycle, request.cycles⟩ request.threads
          ⟨set, left⟩ = _ at hpopulate
      simp only [MountedSpace.onSet, hpopulate, Option.getD_some, and_self]

/-- Carrying out the cycles worker by worker is one way in which a run can end. -/
theorem ends_perform (request : RunRequest) (disk : Disk) :
    Ends request disk (perform request disk).1 (perform request disk).2 := by
  unfold perform
  cases hload : loadWorkload request.workload disk with
  | error error => exact .unloaded hload
  | ok workload =>
    by_cases hthreads : request.threads = 0
    · simp only [if_pos hthreads]
      exact .noThreads hload hthreads
    · simp only [if_neg hthreads]
      cases hdry : request.dryRun with
      | true => exact .shown hload hthreads hdry
      | false => exact .written hload hthreads hdry (writesCycles_writeCycles request workload disk)

/-- A run that is asked to write ends with what its workers come to. -/
theorem Ends.writesCycles {request : RunRequest} {workload : Workload} {disk left : Disk}
    {outcome : RunOutcome} (h : Ends request disk outcome left)
    (hload : loadWorkload request.workload disk = .ok workload) (hthreads : request.threads ≠ 0)
    (hwriting : request.dryRun = false) :
    WritesCycles request workload disk outcome.result left := by
  cases h with
  | unloaded hload' =>
    rw [hload] at hload'
    cases hload'
  | noThreads hload' hnone => exact absurd hnone hthreads
  | shown hload' _ hdry =>
    rw [hwriting] at hdry
    cases hdry
  | written hload' _ _ hwrites =>
    rw [hload] at hload'
    cases hload'
    exact hwrites

/-- The set that a run starts on when its directory was made ready. -/
def newSet (request : RunRequest) (workload : Workload) (disk : Disk) : MountedSet :=
  ⟨⟨request.outputDirectory, rootOf request workload, .shared, [], false, #[]⟩,
    ((DocumentSet.prepare request.outputDirectory).run disk).2⟩

/-- The set is made when the name of the root is valid and the directory can be made ready. -/
theorem create_newSet {request : RunRequest} {workload : Workload} {disk : Disk}
    (hroot : Name.validate (rootOf request workload) = .ok ())
    (hprepare : ((DocumentSet.prepare request.outputDirectory).run disk).1 = .ok ()) :
    (DocumentSet.create request.outputDirectory (rootOf request workload) .shared).run disk =
      (.ok (newSet request workload disk).set, (newSet request workload disk).disk) :=
  DocumentSet.create_ok hroot (Prod.ext hprepare rfl)

/-- The documents of a run whose set can be made are closed when none of its workers takes a step any
more. -/
theorem WritesCycles.exists_crew {request : RunRequest} {workload : Workload} {disk left : Disk}
    {result : Except RunError RunReport}
    (hroot : Name.validate (rootOf request workload) = .ok ())
    (hprepare : ((DocumentSet.prepare request.outputDirectory).run disk).1 = .ok ())
    (h : WritesCycles request workload disk result left) :
    ∃ crew, Crew.Reaches workload (seedOf request workload)
        (.start (rangeOf request workload) request.threads (newSet request workload disk)) crew ∧
      crew.IsOver workload (seedOf request workload) ∧
      let closed := crew.mounted.closeDocuments
      result = conclude request workload crew.work (MountedSet.closeResult closed.1)
        closed.2.disk ∧ left = closed.2.disk := by
  have hcreate := create_newSet hroot hprepare
  have hrequest : MountedSpace.requestDocuments request.outputDirectory (rootOf request workload)
      ⟨.new spaceName .shared, disk⟩ =
        (.ok ((newSet request workload disk).set, none),
          ⟨⟨spaceName, .shared, some (newSet request workload disk).set⟩,
            (newSet request workload disk).disk⟩) := by
    simp only [Action.run] at hcreate
    simp only [MountedSpace.requestDocuments, Space.new, hcreate]
  unfold WritesCycles at h
  simp only [hrequest] at h
  exact h

/-- No operation of a run that writes fails on a disk: there is room, its directory can be made ready
and found behind that, and the file of every cycle can be made. -/
structure Unhindered (request : RunRequest) (workload : Workload) (disk : Disk)
    (location : Location) : Prop where
  room : disk.room = none
  prepare : ((DocumentSet.prepare request.outputDirectory).run disk).1 = .ok ()
  ready : ((DocumentSet.prepare request.outputDirectory).run disk).2.lookup
    request.outputDirectory = .ok (location, .directory)
  files : Crew.Prepared workload (rangeOf request workload) (newSet request workload disk)

/-- A directory that was made ready has no files, if its path was found or has no step up. -/
theorem Unhindered.no_files {request : RunRequest} {workload : Workload} {disk : Disk}
    {location : Location} (h : Unhindered request workload disk location) (hdisk : disk.WellFormed)
    (hclears : disk.Clears request.outputDirectory) (name : String) (file : Nat) :
    (location ++ [name], .file file) ∉ (newSet request workload disk).disk.entries := by
  intro hmem
  have hreadied : Disk.Readied request.outputDirectory location disk
      (newSet request workload disk).disk := Disk.readied_of_prepare (Prod.ext h.prepare rfl) h.ready
  have hnothing := hreadied.cleared hdisk hclears (Disk.below_concat location name)
  exact Disk.entry?_ne_none_of_mem hmem hnothing

/-- The directory that was made ready can be summed up, and there is nothing to count if its path was
found or has no step up. -/
theorem Unhindered.exists_earlier {request : RunRequest} {workload : Workload} {disk : Disk}
    {location : Location} (h : Unhindered request workload disk location)
    (hdisk : disk.WellFormed) : ∃ earlier,
      summarize request.outputDirectory (newSet request workload disk).disk = .ok earlier ∧
      (disk.Clears request.outputDirectory → earlier = ⟨0, 0⟩) := by
  refine ⟨_, summarize_of_lookup h.ready, fun hclears => ?_⟩
  have hnothing := summarize_of_no_files h.ready (h.no_files hdisk hclears)
  exact Except.ok.inj ((summarize_of_lookup h.ready).symm.trans hnothing)

/-- The workers of a run write to no file that was in the directory before. -/
theorem contents_kept {request : RunRequest} {workload : Workload} {disk : Disk} {crew : Crew}
    (hdisk : disk.WellFormed)
    (hstart : Service.Sound (newSet request workload disk)
      (Crew.start (rangeOf request workload) request.threads (newSet request workload disk)).service)
    (hreaches : Crew.Reaches workload (seedOf request workload)
      (.start (rangeOf request workload) request.threads (newSet request workload disk)) crew)
    {place : Location} {file : Nat}
    (hmem : (place, .file file) ∈ (newSet request workload disk).disk.entries) :
    file < (newSet request workload disk).disk.contents.size ∧
      crew.mounted.disk.contentsOf file = (newSet request workload disk).disk.contentsOf file := by
  have hfiles := DocumentSet.sameFiles_prepare request.outputDirectory disk
  have hlt : file < (newSet request workload disk).disk.contents.size := by
    show file < ((DocumentSet.prepare request.outputDirectory).run disk).2.contents.size
    rw [hfiles.contents]
    exact hdisk.stored place file (hfiles.places place file hmem)
  exact ⟨hlt, hstart.contents_reaches (Crew.reaches_service hreaches) hlt⟩

section Conclusion

variable {request : RunRequest} {workload : Workload} {metrics : Metrics}
  {work : Except CycleError Metrics} {closed : Except Error Unit} {disk : Disk}
  {report : RunReport}

/-- A run has a report exactly if the work of no worker was ended, the directory can be summed up, no
cycle failed and the documents could be closed. -/
theorem conclude_eq_ok_iff : conclude request workload work closed disk = .ok report ↔
    ∃ metrics tally, work = .ok metrics ∧ summarize request.outputDirectory disk = .ok tally ∧
      metrics.failures = 0 ∧ closed = .ok () ∧
      report = ⟨seedOf request workload, rootOf request workload, request.outputDirectory,
        some metrics, tally⟩ := by
  unfold conclude
  rcases work with error | metrics
  · simp [Except.mapError, bind, Except.bind]
  rcases summarize request.outputDirectory disk with fault | tally
  · simp [Except.mapError, bind, Except.bind]
  by_cases hfailures : 0 < metrics.failures
  · simp [Except.mapError, bind, Except.bind, hfailures, Nat.ne_of_gt hfailures]
  · rcases closed with failure | ⟨⟩
    · simp [Except.mapError, bind, Except.bind, hfailures]
    · simp [Except.mapError, bind, Except.bind, pure, Except.pure,
        Nat.eq_zero_of_not_pos hfailures, eq_comm]

/-- A run has no report if the work of one of its workers was ended. -/
theorem conclude_ne_ok_of_not_isDone {crew : Crew} {seed : Nat} (hover : crew.IsOver workload seed)
    (hnot : ¬ crew.IsDone) : conclude request workload crew.work closed disk ≠ .ok report := by
  intro hreport
  obtain ⟨metrics, -, hwork, -⟩ := conclude_eq_ok_iff.1 hreport
  exact hnot ((Crew.work_eq_ok_iff hover).1 hwork).1

end Conclusion

/-- What the workers of a run come to on a disk on which no operation fails.  The run has a report
exactly when each cycle can be written.  Then every cycle is counted as one that wrote its element,
and the documents in the directory are one for each index, the document of an index being that of
what the cycles emit to it.  They are counted with their sizes, and so are earlier documents in the
directory, of which there are none if its path was found or has no step up. -/
theorem outcome_of_writesCycles {request : RunRequest} {workload : Workload} {disk left : Disk}
    {location : Location} {result : Except RunError RunReport} (hpaths : workload.HasPaths)
    (hthreads : request.threads ≠ 0)
    (hroot : Name.validate (rootOf request workload) = .ok ()) (hdisk : disk.WellFormed)
    (h : Unhindered request workload disk location)
    (hwrites : WritesCycles request workload disk result left) :
    let range := rangeOf request workload
    ∃ earlier, summarize request.outputDirectory (newSet request workload disk).disk = .ok earlier ∧
    (disk.Clears request.outputDirectory → earlier = ⟨0, 0⟩) ∧
    ((∃ report, result = .ok report) ↔
      ∀ cycle ∈ range.cycles, workload.IsWritable range.seed cycle) ∧
    ∀ report, result = .ok report → ∃ (metrics : Metrics) (texts : Nat → String),
      report.metrics = some metrics ∧ metrics.emitted = range.cycles.length ∧
      metrics.failures = 0 ∧
      report.output.files = earlier.files + (workload.fileIndices range).length ∧
      report.output.bytes = earlier.bytes +
        ((workload.fileIndices range).map fun index => (texts index).toUTF8.size).sum ∧
      ∀ index ∈ workload.fileIndices range,
        left.readFile (Path.join request.outputDirectory (DocumentSet.fileName index)) =
          .ok (texts index).toUTF8 ∧
        ∃ emissions, emissions.Perm (workload.emissionsTo range index) ∧
          Reference.text? true (rootOf request workload) emissions = some (texts index) := by
  intro range
  let origin := newSet request workload disk
  obtain ⟨earlier, hearlier, hnone⟩ := h.exists_earlier hdisk
  refine ⟨earlier, hearlier, hnone, ?_⟩
  have hcreate := create_newSet hroot h.prepare
  have hpositive := Nat.pos_of_ne_zero hthreads
  have hready : Ready workload range origin location := ⟨hpaths, h.ready, h.files⟩
  have hstart : Crew.Sound workload range origin location (.start range request.threads origin) :=
    Crew.sound_start h.room hcreate hpositive location
  obtain ⟨crew, hreaches, hover, rfl, rfl⟩ := hwrites.exists_crew hroot h.prepare
  by_cases hdone : crew.IsDone
  · have hsound := hstart.reaches hready hreaches
    have hkept : ∀ (place : Location) (file : Nat), (place, .file file) ∈ origin.disk.entries →
        file < origin.disk.contents.size ∧
          crew.mounted.disk.contentsOf file = origin.disk.contentsOf file :=
      fun place file hmem => contents_kept hdisk hstart.service hreaches hmem
    obtain ⟨hfailures, hemitted⟩ := crew.counts_metrics
    simp only [conclude_eq_ok_iff, Crew.work_of_isDone hdone]
    -- the verdict was sealed by the cycles, whoever carried them out and when
    rcases hsound.verdict with ⟨done, hsmooth⟩ | hfaulty
    · obtain ⟨closed, texts, hclose, hsummary, hfiles⟩ :=
        hsound.summary_of_done hready hsmooth hdone hkept hearlier
      have hnofailure : crew.metrics.failures = 0 := hfailures.trans hsmooth.failures
      rw [hclose]
      refine ⟨⟨fun _ cycle hcycle => hsmooth.isWritable hdone hcycle,
        fun _ => ⟨_, _, _, rfl, hsummary, hnofailure, rfl, rfl⟩⟩, ?_⟩
      rintro report ⟨metrics, tally, hmetrics, hsummary', -, -, rfl⟩
      cases hmetrics
      cases hsummary.symm.trans hsummary'
      refine ⟨crew.metrics, texts, rfl, ?_, hnofailure, rfl, rfl, hfiles⟩
      rw [hemitted, hsmooth.emitted, ← (hsmooth.cycles_perm hdone).length_eq, List.length_map]
    · have hsome : crew.metrics.failures ≠ 0 := by
        rw [hfailures]
        exact Nat.ne_of_gt hfaulty.failures
      refine ⟨⟨?_, ?_⟩, ?_⟩
      · rintro ⟨report, metrics, tally, hmetrics, -, hnofailure, -⟩
        cases hmetrics
        exact absurd hnofailure hsome
      · intro hall
        obtain ⟨cycle, hcycle, hbad⟩ := hfaulty.cause
        exact absurd (hall cycle hcycle) hbad
      · rintro report ⟨metrics, tally, hmetrics, -, hnofailure, -⟩
        cases hmetrics
        exact absurd hnofailure hsome
  · -- the work of a worker was ended, by a cycle that does not resolve
    refine ⟨⟨fun ⟨report, hreport⟩ => absurd hreport (conclude_ne_ok_of_not_isDone hover hdone),
      fun hall => ?_⟩, fun report hreport =>
        absurd hreport (conclude_ne_ok_of_not_isDone hover hdone)⟩
    refine absurd ((Crew.isDone_iff_of_start range hpositive hreaches hover).2 ?_) hdone
    intro cycle hcycle hoverflows
    exact hoverflows.not_isWritable (hall cycle hcycle)

/-- What a run comes to on a disk on which no operation fails, whatever the number of its workers and
in whatever order their steps fall.  The run ends, and it has a report exactly when each of its
cycles can be written.  Then every cycle is counted as one that wrote its element, there is one
document for each index of a file, and the document of an index is the reference document of what
the cycles emit to it, each once.  These documents are counted with their sizes, and so are earlier
documents in the directory, of which there are none unless its path was not found and has a step
up. -/
theorem outcome_of_unhindered {request : RunRequest} {workload : Workload} {disk : Disk}
    {location : Location} (hload : loadWorkload request.workload disk = .ok workload)
    (hthreads : request.threads ≠ 0) (hwriting : request.dryRun = false)
    (hroot : Name.validate (rootOf request workload) = .ok ()) (hdisk : disk.WellFormed)
    (h : Unhindered request workload disk location) :
    let range := rangeOf request workload
    let stop := min (request.startCycle + request.cycles) (2 ^ 64 - 1)
    ∃ earlier, summarize request.outputDirectory (newSet request workload disk).disk = .ok earlier ∧
    (disk.Clears request.outputDirectory → earlier = ⟨0, 0⟩) ∧
    (∃ outcome left, Ends request disk outcome left) ∧
    ∀ outcome left, Ends request disk outcome left →
      ((∃ report, outcome.result = .ok report) ↔
        ∀ cycle, request.startCycle ≤ cycle → cycle < stop →
          workload.IsWritable (seedOf request workload) cycle) ∧
      ∀ report, outcome.result = .ok report → ∃ (metrics : Metrics) (texts : Nat → String),
        report.metrics = some metrics ∧ metrics.emitted = stop - request.startCycle ∧
        metrics.failures = 0 ∧
        report.output.files = earlier.files + (workload.fileIndices range).length ∧
        report.output.bytes = earlier.bytes +
          ((workload.fileIndices range).map fun index => (texts index).toUTF8.size).sum ∧
        ∀ index ∈ workload.fileIndices range,
          left.readFile (Path.join request.outputDirectory (DocumentSet.fileName index)) =
            .ok (texts index).toUTF8 ∧
          ∃ emissions, emissions.Perm (workload.emissionsTo range index) ∧
            Reference.text? true (rootOf request workload) emissions = some (texts index) := by
  intro range stop
  obtain ⟨earlier, hearlier, hnone⟩ := h.exists_earlier hdisk
  refine ⟨earlier, hearlier, hnone, ⟨_, _, ends_perform request disk⟩, ?_⟩
  intro outcome left hends
  have hpaths := Workload.hasPaths_of_loadWorkload hload
  have hwrites := hends.writesCycles hload hthreads hwriting
  obtain ⟨earlier', hearlier', -, hverdict, hreport⟩ :=
    outcome_of_writesCycles hpaths hthreads hroot hdisk h hwrites
  cases hearlier.symm.trans hearlier'
  have hlength : range.cycles.length = stop - request.startCycle := range.length_cycles
  refine ⟨hverdict.trans ?_, ?_⟩
  · constructor
    · intro hall cycle hle hlt
      exact hall cycle ((range.mem_cycles_iff cycle).2 ⟨hle, hlt⟩)
    · intro hall cycle hcycle
      obtain ⟨hle, hlt⟩ := (range.mem_cycles_iff cycle).1 hcycle
      exact hall cycle hle hlt
  · intro report hok
    rw [← hlength]
    exact hreport report hok

/-- The text of a workload with one operation, which writes an element without content. -/
def smallText : String := "ops: [path: [n]]"

/-- The small workload. -/
def smallWorkload : Workload := .plain 1 Nat.one_pos

/-- Two cycles of the small workload, for three workers. -/
def smallRequest : RunRequest := ⟨"w.yaml", "out", none, 2, 0, 3, none, false⟩

/-- A disk with the small workload on it. -/
def smallDisk : Disk := ⟨[], [(["w.yaml"], .file 0)], #[smallText.toUTF8], none⟩

set_option maxRecDepth 2000 in
/-- The text of the small workload declares one operation with a path of one name. -/
theorem ofText?_small : WorkloadDeclaration.ofText? smallText =
    some ⟨none, none, none, [⟨none, none, none, ["n"], none, none, none⟩]⟩ := by
  cbv

/-- A disk with the small text in its file has the small workload. -/
theorem loadWorkload_of_readFile {disk : Disk}
    (hread : disk.readFile "w.yaml" = .ok smallText.toUTF8) :
    loadWorkload "w.yaml" disk = .ok smallWorkload := by
  have htext : String.fromUTF8? smallText.toUTF8 = some smallText := dif_pos smallText.isValidUTF8
  have hoperations : WorkloadDeclaration.checkOperations 0
      [⟨none, none, none, ["n"], none, none, none⟩] = .ok [.plain] := by cbv
  have hcheck : WorkloadDeclaration.check
      ⟨none, none, none, [⟨none, none, none, ["n"], none, none, none⟩]⟩ = .ok smallWorkload := by
    unfold WorkloadDeclaration.check
    simp only [reduceCtorEq, dite_false, Option.getD_none, Nat.one_ne_zero]
    split
    · next herror =>
      rw [hoperations] at herror
      cases herror
    · next hok =>
      rw [hoperations] at hok
      cases hok
      rfl
  simp only [loadWorkload, Disk.readText, bind, Except.bind, hread, htext, pure, Except.pure,
    Except.mapError, Workload.ofText, ofText?_small, hcheck]

/-- The small disk has the small workload. -/
theorem loadWorkload_small : loadWorkload "w.yaml" smallDisk = .ok smallWorkload :=
  loadWorkload_of_readFile (by rfl)

/-- Every cycle of the small workload resolves to an empty element in the file with the index 0. -/
theorem resolve_small (seed cycle : Nat) : smallWorkload.resolve seed cycle =
    .ok ⟨cycle, "op0", .element, 0, ["n"], .empty⟩ := by
  rw [smallWorkload, Workload.resolve_plain, Nat.mod_one]

/-- Every cycle of the small workload can be written. -/
theorem isWritable_small (seed cycle : Nat) : smallWorkload.IsWritable seed cycle := by
  have hresolve : Template.empty.resolve = .ok [] := by cbv
  refine ⟨_, resolve_small seed cycle, [], hresolve, ?_⟩
  intro name hname
  rw [List.mem_singleton.1 hname]
  rfl

/-- The small request writes one file. -/
theorem fileIndices_small : smallWorkload.fileIndices (rangeOf smallRequest smallWorkload) = [0] := by
  have hfiles : (smallWorkload.stepsOf (rangeOf smallRequest smallWorkload)).map CycleStep.file =
      (rangeOf smallRequest smallWorkload).cycles.map fun _ => 0 := by
    unfold Workload.stepsOf
    simp only [resolve_small]
    rw [List.map_filterMap, ← List.filterMap_eq_map]
    rfl
  have hlength : (rangeOf smallRequest smallWorkload).cycles.length = 2 :=
    CycleRange.length_cycles _
  unfold Workload.fileIndices
  rw [hfiles, List.map_const', hlength]
  rfl

/-- The small request with another output path. -/
def requestTo (directory : String) : RunRequest := { smallRequest with outputDirectory := directory }

/-- The file of the small request can be made when its place is free. -/
theorem prepared_small {directory : String} {disk : Disk}
    (hfree : (newSet (requestTo directory) smallWorkload disk).disk.Creatable
      (Path.join directory (DocumentSet.fileName 0))) :
    Crew.Prepared smallWorkload (rangeOf (requestTo directory) smallWorkload)
      (newSet (requestTo directory) smallWorkload disk) := by
  intro cycle _ step hstep
  rw [resolve_small] at hstep
  cases hstep
  exact hfree

/-- No operation of the small request fails on the small disk. -/
theorem unhindered_small : Unhindered (requestTo "out") smallWorkload smallDisk ["out"] where
  room := rfl
  prepare := by rfl
  ready := by rfl
  files := prepared_small ⟨1, _, by rfl⟩

/-- In whatever order the three workers take their steps, both cycles of the small workload are
counted as written, into one document. -/
theorem outcome_of_unhindered_small :
    loadWorkload (requestTo "out").workload smallDisk = .ok smallWorkload ∧
      (requestTo "out").threads ≠ 0 ∧ (requestTo "out").dryRun = false ∧
      Name.validate (rootOf (requestTo "out") smallWorkload) = .ok () ∧ smallDisk.WellFormed ∧
      Unhindered (requestTo "out") smallWorkload smallDisk ["out"] ∧
      (∃ outcome left, Ends (requestTo "out") smallDisk outcome left) ∧
      ∀ outcome left, Ends (requestTo "out") smallDisk outcome left →
        ∃ report metrics, outcome.result = .ok report ∧ report.metrics = some metrics ∧
          metrics.emitted = 2 ∧ report.output.files = 1 := by
  have hload : loadWorkload (requestTo "out").workload smallDisk = .ok smallWorkload :=
    loadWorkload_small
  have hthreads : (requestTo "out").threads ≠ 0 := by decide
  have hroot : Name.validate (rootOf (requestTo "out") smallWorkload) = .ok () := by rfl
  have hdisk : smallDisk.WellFormed := by decide
  have hnames : ".." ∉ Path.names "out" := by decide
  obtain ⟨earlier, -, hnone, hends, hall⟩ :=
    outcome_of_unhindered hload hthreads rfl hroot hdisk unhindered_small
  refine ⟨hload, hthreads, rfl, hroot, hdisk, unhindered_small, hends, ?_⟩
  intro outcome left hend
  obtain ⟨hverdict, hreport⟩ := hall outcome left hend
  obtain ⟨report, hok⟩ := hverdict.2 fun cycle _ _ => isWritable_small _ cycle
  obtain ⟨metrics, texts, hmetrics, hemitted, -, hfiles, -⟩ := hreport report hok
  have hcount : min ((requestTo "out").startCycle + (requestTo "out").cycles) (2 ^ 64 - 1) -
      (requestTo "out").startCycle = 2 := by simp [requestTo, smallRequest]
  have hindices : smallWorkload.fileIndices (rangeOf (requestTo "out") smallWorkload) = [0] :=
    fileIndices_small
  refine ⟨report, metrics, hok, hmetrics, hemitted.trans hcount, ?_⟩
  rw [hfiles, hnone (.inr hnames), hindices]
  rfl

/-- A disk with the small workload on it, and with a directory that has a document. -/
def usedDisk : Disk :=
  ⟨[], [(["w.yaml"], .file 0), (["box"], .directory), (["box", "xml7.xml"], .file 1)],
    #[smallText.toUTF8, "old".toUTF8], none⟩

/-- A run counts documents that it did not write, when the path of its directory was not found and
leads down and up again. -/
theorem not_counted :
    ¬ ∀ (request : RunRequest) (workload : Workload) (disk left : Disk) (location : Location)
      (outcome : RunOutcome) (report : RunReport),
      loadWorkload request.workload disk = .ok workload → request.threads ≠ 0 →
      request.dryRun = false → Name.validate (rootOf request workload) = .ok () →
      disk.WellFormed → Unhindered request workload disk location →
      Ends request disk outcome left → outcome.result = .ok report →
        report.output.files = (workload.fileIndices (rangeOf request workload)).length := by
  intro hall
  have hload : loadWorkload (requestTo "box/gone/..").workload usedDisk = .ok smallWorkload :=
    loadWorkload_of_readFile (by rfl)
  have hthreads : (requestTo "box/gone/..").threads ≠ 0 := by decide
  have hroot : Name.validate (rootOf (requestTo "box/gone/..") smallWorkload) = .ok () := by rfl
  have hdisk : usedDisk.WellFormed := by decide
  have hunhindered : Unhindered (requestTo "box/gone/..") smallWorkload usedDisk ["box"] :=
    ⟨rfl, by rfl, by rfl, prepared_small ⟨2, _, by rfl⟩⟩
  obtain ⟨earlier, hearlier, -, ⟨outcome, left, hends⟩, hends'⟩ :=
    outcome_of_unhindered hload hthreads rfl hroot hdisk hunhindered
  obtain ⟨hverdict, hreport⟩ := hends' outcome left hends
  obtain ⟨report, hok⟩ := hverdict.2 fun cycle _ _ => isWritable_small _ cycle
  obtain ⟨metrics, texts, -, -, -, hfiles, -⟩ := hreport report hok
  have hcounted := hall _ _ _ _ _ _ _ hload hthreads rfl hroot hdisk hunhindered hends hok
  -- the document from before is one more than there are indices
  have hone : summarize "box/gone/.." (newSet (requestTo "box/gone/..") smallWorkload usedDisk).disk =
      .ok ⟨1, 3⟩ := by rfl
  cases hearlier.symm.trans hone
  have hmore : report.output.files = 1 + report.output.files := by
    conv_rhs => rw [hcounted]
    exact hfiles
  omega

end XmlWorkload.Run
