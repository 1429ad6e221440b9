import XmlWorkload.Proofs.Run.Crew
import XmlWorkload.Proofs.Run.Files
import XmlWorkload.Proofs.Run.Range
import XmlWorkload.Proofs.Set.Fate
import XmlWorkload.Proofs.Set.Live

/-!
# The verdict on a crew

A crew that works in a directory where every file can be made goes well until a worker meets a cycle
that cannot be written.  Until then all documents are live and hold what was carried out, in the
order in which it was written; from then on a failure is on record.  Main statement: every step of a
crew keeps it sound, whatever the order (`Crew.Sound.step`, `Crew.Sound.reaches`), so the verdict
depends on the cycles alone.
-/

set_option autoImplicit false

namespace XmlWorkload

/-- A set of documents stands ready for the cycles of a range: each of them has a path, the directory
of the set is there, and the file of each cycle can be made in it. -/
structure Ready (workload : Workload) (range : CycleRange) (origin : MountedSet)
    (location : Location) : Prop where
  hasPaths : workload.HasPaths
  found : origin.disk.lookup origin.set.directory = .ok (location, .directory)
  free : ∀ cycle ∈ range.cycles, ∀ step, workload.resolve range.seed cycle = .ok step →
    ∃ file left, origin.disk.createFile (origin.set.filePath step.file) = (.ok file, left)

namespace Crew

/-- The number of cycles that failed. -/
def failures (crew : Crew) : Nat := (crew.workers.map fun worker => worker.metrics.failures).sum

/-- The number of cycles that wrote their element. -/
def emitted (crew : Crew) : Nat := (crew.workers.map fun worker => worker.metrics.emitted).sum

section Totals

variable {count : Metrics → Nat}

/-- A count that adds up when what came of some cycles is put together adds up over all workers. -/
theorem count_foldl_merge
    (hmerge : ∀ first second : Metrics, count (first.merge second) = count first + count second)
    (all : List Metrics) (first : Metrics) :
    count (all.foldl .merge first) = count first + (all.map count).sum := by
  induction all generalizing first with
  | nil => rfl
  | cons metrics rest ih =>
    rw [List.foldl_cons, ih (first.merge metrics), hmerge, List.map_cons, List.sum_cons]
    omega

/-- A count that merging adds up is the sum over all workers. -/
theorem count_metrics
    (hmerge : ∀ first second : Metrics, count (first.merge second) = count first + count second)
    (hnone : count .none = 0) (crew : Crew) :
    count crew.metrics = (crew.workers.map fun worker => count worker.metrics).sum := by
  unfold metrics
  rw [count_foldl_merge hmerge, hnone, Nat.zero_add, List.map_map]
  rfl

end Totals

/-- Failures and emissions are those of all workers taken together. -/
theorem counts_metrics (crew : Crew) :
    crew.metrics.failures = crew.failures ∧ crew.metrics.emitted = crew.emitted :=
  ⟨count_metrics (fun _ _ => rfl) rfl crew, count_metrics (fun _ _ => rfl) rfl crew⟩

/-- The history of cycles that wrote what they emit. -/
def recordOf (step : CycleStep) : Record := ⟨step.file, step.emission, .ok ()⟩

/-- So far every cycle could be written: all documents are live, no cycle failed, and what was done
is what has been written, in order. -/
structure Smooth (workload : Workload) (range : CycleRange) (done : List CycleStep) (crew : Crew) :
    Prop where
  live : crew.mounted.AllLive
  failures : crew.failures = 0
  shared : (done.map CycleStep.cycle ++ crew.workers.flatMap Worker.todo).Perm range.cycles
  resolved : ∀ step ∈ done, workload.resolve range.seed step.cycle = .ok step
  writable : ∀ step ∈ done, Document.IsWritable step.emission
  made : ∀ step ∈ done, step.file ∈ crew.made
  log : crew.log = done.map recordOf
  emitted : crew.emitted = done.length

/-- A failure is on record, and there is a cycle that cannot be written. -/
structure Faulty (workload : Workload) (range : CycleRange) (crew : Crew) : Prop where
  failures : 0 < crew.failures
  cause : ∃ cycle ∈ range.cycles, ¬ workload.IsWritable range.seed cycle

/-- A crew is sound: its set is, with the workers as callers, and open; the files of its documents
are where they belong; its workers are at cycles of the range; and it is smooth or faulty. -/
structure Sound (workload : Workload) (range : CycleRange) (origin : MountedSet)
    (location : Location) (crew : Crew) : Prop where
  service : Service.Sound origin crew.service
  isOpen : crew.mounted.set.isClosed = false
  placed : DocumentSet.Placed location origin.disk crew.made crew.mounted.disk
  fits : Fits workload range.seed crew
  todo : ∀ worker ∈ crew.workers, ∀ cycle ∈ worker.todo, cycle ∈ range.cycles
  made : ∀ index ∈ crew.made, ∃ cycle ∈ range.cycles, ∃ step,
    workload.resolve range.seed cycle = .ok step ∧ step.file = index
  verdict : (∃ done, Smooth workload range done crew) ∨ Faulty workload range crew

section Counts

variable {crew later : Crew} {before after : List Worker} {worker worker' : Worker}

/-- The failures change by what they change for the worker that was replaced. -/
theorem failures_replace (h : crew.workers = before ++ worker :: after)
    (hlater : later.workers = before ++ worker' :: after) :
    later.failures + worker.metrics.failures = crew.failures + worker'.metrics.failures :=
  sum_replace (fun worker => worker.metrics.failures) h hlater

/-- The emissions change by what they change for the worker that was replaced. -/
theorem emitted_replace (h : crew.workers = before ++ worker :: after)
    (hlater : later.workers = before ++ worker' :: after) :
    later.emitted + worker.metrics.emitted = crew.emitted + worker'.metrics.emitted :=
  sum_replace (fun worker => worker.metrics.emitted) h hlater

/-- What is to do stays the same when the worker that was replaced has the same to do. -/
theorem todo_replace (h : crew.workers = before ++ worker :: after)
    (hlater : later.workers = before ++ worker' :: after) (htodo : worker'.todo = worker.todo) :
    later.workers.flatMap Worker.todo = crew.workers.flatMap Worker.todo := by
  rw [h, hlater]
  simp only [List.flatMap_append, List.flatMap_cons, htodo]

end Counts

variable {workload : Workload} {range : CycleRange} {origin : MountedSet} {location : Location}
  {crew later : Crew} {done : List CycleStep}

/-- What a worker does that neither adds to what was done nor fails a cycle leaves the verdict as it
is. -/
theorem verdict_of_same {before after : List Worker} {worker worker' : Worker}
    (h : (∃ done, Smooth workload range done crew) ∨ Faulty workload range crew)
    (hworkers : crew.workers = before ++ worker :: after)
    (hlater : later.workers = before ++ worker' :: after) (htodo : worker'.todo = worker.todo)
    (hmetrics : worker'.metrics = worker.metrics)
    (hlive : crew.mounted.AllLive → later.mounted.AllLive)
    (hmade : ∀ index ∈ crew.made, index ∈ later.made) (hlog : later.log = crew.log) :
    (∃ done, Smooth workload range done later) ∨ Faulty workload range later := by
  have hfailures := failures_replace hworkers hlater
  have hemitted := emitted_replace hworkers hlater
  rw [hmetrics] at hfailures hemitted
  rcases h with ⟨done, h⟩ | h
  · refine .inl ⟨done, hlive h.live, ?_, ?_, h.resolved, h.writable, ?_, hlog.trans h.log, ?_⟩
    · rw [← h.failures]
      omega
    · rw [todo_replace hworkers hlater htodo]
      exact h.shared
    · intro step hstep
      exact hmade _ (h.made step hstep)
    · rw [← h.emitted]
      omega
  · refine .inr ⟨?_, h.cause⟩
    have := h.failures
    omega

/-- A crew in which a cycle failed that cannot be written is faulty. -/
theorem faulty_of_failure {before after : List Worker} {worker worker' : Worker} {cycle : Nat}
    (error : CycleError) (hworkers : crew.workers = before ++ worker :: after)
    (hlater : later.workers = before ++ worker' :: after)
    (hmetrics : worker'.metrics = worker.metrics.addOutcome cycle (.error error))
    (hcycle : cycle ∈ range.cycles) (hbad : ¬ workload.IsWritable range.seed cycle) :
    Faulty workload range later := by
  have hfailures := failures_replace hworkers hlater
  rw [hmetrics] at hfailures
  simp only [Metrics.addOutcome, Metrics.addFailure] at hfailures
  exact ⟨by omega, cycle, hcycle, hbad⟩

/-- A crew that was faulty is faulty after one more outcome. -/
theorem faulty_of_faulty {before after : List Worker} {worker worker' : Worker} {cycle : Nat}
    {result : Except CycleError Unit} (h : Faulty workload range crew)
    (hworkers : crew.workers = before ++ worker :: after)
    (hlater : later.workers = before ++ worker' :: after)
    (hmetrics : worker'.metrics = worker.metrics.addOutcome cycle result) :
    Faulty workload range later := by
  have hfailures := failures_replace hworkers hlater
  have hmore : worker.metrics.failures ≤ worker'.metrics.failures := by
    rw [hmetrics]
    cases result with
    | ok value => exact Nat.le_refl _
    | error error => exact Nat.le_succ _
  have hbefore := h.failures
  exact ⟨by omega, h.cause⟩

/-- A worker that writes what its cycle emits adds the cycle to what was done. -/
theorem smooth_of_success {before after : List Worker} {rest : List Nat} {stage stage' : Stage}
    {metrics : Metrics} {step : CycleStep} (h : Smooth workload range done crew)
    (hworkers : crew.workers = before ++ ⟨step.cycle :: rest, stage, metrics⟩ :: after)
    (hlater : later.workers = before ++ ⟨rest, stage', metrics.addSuccess⟩ :: after)
    (hresolve : workload.resolve range.seed step.cycle = .ok step)
    (hwritable : Document.IsWritable step.emission) (hindex : step.file ∈ crew.made)
    (hlive : later.mounted.AllLive) (hmade : later.made = crew.made)
    (hlog : later.log = crew.log ++ [recordOf step]) :
    Smooth workload range (done ++ [step]) later := by
  have hfailures := failures_replace hworkers hlater
  have hemitted := emitted_replace hworkers hlater
  simp only [Metrics.addSuccess] at hfailures hemitted
  refine
    { live := hlive
      failures := ?_
      shared := ?_
      resolved := ?_
      writable := ?_
      made := ?_
      log := ?_
      emitted := ?_ }
  · have := h.failures
    omega
  · -- the cycle in hand has moved from what is to do to what is done
    refine List.Perm.trans ?_ h.shared
    rw [hworkers, hlater]
    simp only [List.map_append, List.map_cons, List.map_nil, List.flatMap_append,
      List.flatMap_cons, List.append_assoc, List.cons_append, List.nil_append]
    exact List.Perm.append_left _ List.perm_middle.symm
  · intro other hother
    rcases List.mem_append.1 hother with hother | hother
    · exact h.resolved other hother
    · rw [List.mem_singleton.1 hother]
      exact hresolve
  · intro other hother
    rcases List.mem_append.1 hother with hother | hother
    · exact h.writable other hother
    · rw [List.mem_singleton.1 hother]
      exact hwritable
  · intro other hother
    rw [hmade]
    rcases List.mem_append.1 hother with hother | hother
    · exact h.made other hother
    · rw [List.mem_singleton.1 hother]
      exact hindex
  · rw [hlog, h.log, List.map_append]
    rfl
  · have := h.emitted
    rw [List.length_append, List.length_singleton]
    omega

namespace Sound

/-- In a set that stands ready the document of a cycle can be looked up. -/
theorem acquire_ok (hready : Ready workload range origin location)
    (h : Sound workload range origin location crew) {cycle : Nat} {step : CycleStep}
    (hcycle : cycle ∈ range.cycles) (hresolve : workload.resolve range.seed cycle = .ok step) :
    ∃ number left, (MountedSet.acquire step.file).run crew.mounted = (.ok number, left) ∧
      left.set.isClosed = false ∧
      DocumentSet.Placed location origin.disk
        (crew.made ++ List.replicate
          (left.set.documents.size - crew.mounted.set.documents.size) step.file) left.disk ∧
      (crew.mounted.AllLive → left.AllLive) := by
  have hmounted : MountedSet.Sound origin crew.made (crew.service.callers.flatMap Stage.claims)
      (crew.service.callers.flatMap Stage.pending) (fun index => grantedOn index crew.log)
      crew.mounted := h.service.mounted
  have hopen := h.isOpen
  -- a file can be made for the index, so the lookup does not fail
  have hcreatable : step.file ∉ crew.made → ∃ added,
      crew.mounted.disk.createFile (crew.mounted.set.filePath step.file) =
        (.ok crew.mounted.disk.contents.size, added) ∧
      DocumentSet.Placed location origin.disk (crew.made ++ [step.file]) added := by
    intro hnew
    obtain ⟨file, made, hfree⟩ := hready.free cycle hcycle step hresolve
    unfold DocumentSet.filePath at hfree ⊢
    rw [hmounted.directory]
    exact h.placed.createFile hready.found hfree hnew hmounted.files
  rcases hmounted.acquire_cases step.file with
    ⟨hclosed, -⟩ | ⟨number, -, -, hrun⟩ |
      ⟨left, disk, document, -, hnew, hrun, hcreate, hframe, hstill, hdocuments, hlive, -⟩ |
        ⟨error, fault, disk, -, hnew, -, hcreate⟩
  · rw [hopen] at hclosed
    cases hclosed
  · refine ⟨number, _, hrun, hopen, ?_, fun hlive => hlive.hold number⟩
    simp only [MountedSet.hold, Array.size_modify, Nat.sub_self, List.replicate_zero,
      List.append_nil]
    exact h.placed
  · obtain ⟨added, hadd, hplaced⟩ := hcreatable hnew
    rw [hadd] at hcreate
    cases hcreate
    refine ⟨_, _, hrun, hstill, ?_, fun hbefore => (hbefore.push hdocuments hlive).hold _⟩
    simp only [MountedSet.hold, Array.size_modify, hdocuments, Array.size_push,
      Nat.add_sub_cancel_left, List.replicate_one]
    exact hplaced.of_samePlaces (Disk.SamePlaces.of_sameBut hframe)
  · obtain ⟨added, hadd, -⟩ := hcreatable hnew
    rw [hadd] at hcreate
    cases hcreate

/-- Writing what a cycle emits adds the cycle to what was done, if it can be written and nothing has
failed yet; otherwise a failure is on record. -/
theorem verdict_write (hready : Ready workload range origin location)
    (h : Sound workload range origin location crew) {before after : List Worker} {rest : List Nat}
    {metrics : Metrics} {step : CycleStep} {number : Nat}
    (hworkers : crew.workers =
      before ++ ⟨step.cycle :: rest, .holding step.file number step.emission, metrics⟩ :: after)
    (hresolve : workload.resolve range.seed step.cycle = .ok step)
    (hcycle : step.cycle ∈ range.cycles) :
    let later := crew.write before after step.cycle rest metrics step.file number step.emission
    (∃ done, Smooth workload range done later) ∨ Faulty workload range later := by
  intro later
  rcases h.verdict with ⟨done, hsmooth⟩ | hfaulty
  · have hindex : crew.made[number]? = some step.file :=
      h.service.holding step.file number step.emission (by simp [callers_eq hworkers])
    have hpath : step.emission.path ≠ [] :=
      Workload.path_ne_nil_of_resolve hready.hasPaths hresolve
    rcases (h.service.focus (callers_eq hworkers)).emitTo_cases hsmooth.live List.mem_cons_self
        step.emission hpath with ⟨hwritable, hok, hstill⟩ | ⟨hbad, error, herror⟩
    · change ((MountedSet.emitTo number step.emission.path step.emission.template).run
        crew.mounted).1 = _ at hok
      have hlater : later.workers =
          before ++ ⟨rest, .leaving number, metrics.addSuccess⟩ :: after := by
        simp only [later, write, hok]
        rfl
      refine .inl ⟨done ++ [step], smooth_of_success hsmooth hworkers hlater hresolve hwritable
        (List.mem_of_getElem? hindex) hstill rfl ?_⟩
      simp only [later, write, hok]
      rfl
    · change ((MountedSet.emitTo number step.emission.path step.emission.template).run
        crew.mounted).1 = _ at herror
      refine .inr (faulty_of_failure (.document error) hworkers rfl ?_ hcycle ?_)
      · simp only [herror]
        rfl
      · rintro ⟨step', hresolve', hwritable⟩
        rw [hresolve] at hresolve'
        cases hresolve'
        exact hbad hwritable
  · exact .inr (faulty_of_faulty hfaulty hworkers rfl rfl)

/-- Every step of a worker keeps a crew sound. -/
theorem step (hready : Ready workload range origin location)
    (h : Sound workload range origin location crew)
    (hstep : Step workload range.seed crew later) :
    Sound workload range origin location later := by
  have hservice := h.service.reaches hstep.reaches
  have hfits := h.fits.step hstep
  have htodo := h.todo
  cases hstep with
  | @skip before after cycle rest metrics error hworkers hresolve hmild =>
    rw [hworkers] at htodo
    have hown := htodo ⟨cycle :: rest, .idle, metrics⟩ (by simp)
    have hbad : ¬ workload.IsWritable range.seed cycle := by
      rintro ⟨step, hstep, -⟩
      rw [hresolve] at hstep
      cases hstep
    refine
      { service := hservice
        isOpen := h.isOpen
        placed := h.placed
        fits := hfits
        todo := forall_replace htodo fun other hother => hown other (List.mem_cons_of_mem _ hother)
        made := h.made
        verdict := .inr ?_ }
    exact faulty_of_failure error hworkers rfl rfl (hown cycle List.mem_cons_self) hbad
  | @lookUp before after cycle rest metrics step hworkers hresolve =>
    rw [hworkers] at htodo
    have hown := htodo ⟨cycle :: rest, .idle, metrics⟩ (by simp)
    have hcycle := hown cycle List.mem_cons_self
    obtain ⟨number, left, hrun, hstill, hplaced, hlive⟩ := h.acquire_ok hready hcycle hresolve
    let growth := left.set.documents.size - crew.mounted.set.documents.size
    have hlater : crew.lookUp before after cycle rest metrics step =
        ⟨left, before ++ ⟨cycle :: rest, .holding step.file number step.emission, metrics⟩ :: after,
          crew.made ++ List.replicate growth step.file, crew.log⟩ := by
      simp only [lookUp, hrun]
      rfl
    rw [hlater] at hservice hfits ⊢
    refine
      { service := hservice
        isOpen := hstill
        placed := hplaced
        fits := hfits
        todo := forall_replace htodo hown
        made := ?_
        verdict := verdict_of_same h.verdict hworkers rfl rfl rfl hlive ?_ rfl }
    · intro index hindex
      rcases List.mem_append.1 hindex with hindex | hindex
      · exact h.made index hindex
      · rw [List.eq_of_mem_replicate hindex]
        exact ⟨cycle, hcycle, step, hresolve, rfl⟩
    · intro index hindex
      exact List.mem_append_left _ hindex
  | @write before after cycle rest metrics index number emission hworkers =>
    obtain ⟨step, hresolve, rfl, rfl⟩ := h.fits.of_holding hworkers
    obtain ⟨rfl, -⟩ := Workload.of_resolve hresolve
    rw [hworkers] at htodo
    have hown := htodo ⟨step.cycle :: rest, .holding step.file number step.emission, metrics⟩
      (by simp)
    have hplaces := (h.service.focus (callers_eq hworkers)).samePlaces_emitTo List.mem_cons_self
      step.emission
    exact
      { service := hservice
        isOpen := (MountedSet.isClosed_onDocument _ _ _).trans h.isOpen
        placed := h.placed.of_samePlaces hplaces
        fits := hfits
        todo := forall_replace htodo fun other hother => hown other (List.mem_cons_of_mem _ hother)
        made := h.made
        verdict := h.verdict_write hready hworkers hresolve (hown step.cycle List.mem_cons_self) }
  | @leave before after todo metrics number hworkers =>
    have hplaces := (h.service.focus (callers_eq hworkers)).samePlaces_release
    rw [hworkers] at htodo
    exact
      { service := hservice
        isOpen := (MountedSet.isClosed_release _ _).trans h.isOpen
        placed := h.placed.of_samePlaces hplaces
        fits := hfits
        todo := forall_replace htodo (htodo ⟨todo, .leaving number, metrics⟩ (by simp))
        made := h.made
        verdict := verdict_of_same h.verdict hworkers rfl rfl rfl
          (fun hlive => hlive.release number) (fun _ hindex => hindex) rfl }

/-- Whatever order the steps of the workers fall in, a crew stays sound. -/
theorem reaches (hready : Ready workload range origin location)
    (h : Sound workload range origin location crew)
    (hreaches : Reaches workload range.seed crew later) :
    Sound workload range origin location later := by
  induction hreaches with
  | refl => exact h
  | tail _ hstep ih => exact ih.step hready hstep

end Sound

/-- A crew is sound and smooth before anything happens. -/
theorem sound_start {directory root : String} {engine : Engine} {disk left : Disk}
    {set : DocumentSet} (hroom : disk.room = none)
    (hcreate : (DocumentSet.create directory root engine).run disk = (.ok set, left))
    {workers : Nat} (hworkers : 0 < workers) (location : Location) :
    Sound workload range ⟨set, left⟩ location (start range workers ⟨set, left⟩) := by
  have hservice : (start range workers ⟨set, left⟩).service =
      Service.start ⟨set, left⟩ workers := by
    simp [start, service, Service.start, Function.comp_def]
  have hnothing : ∀ counts : Metrics → Nat, counts .none = 0 →
      ((start range workers ⟨set, left⟩).workers.map fun worker =>
        counts worker.metrics).sum = 0 := by
    intro counts hnone
    simp [start, Function.comp_def, hnone]
  have htodo : (start range workers ⟨set, left⟩).workers.flatMap Worker.todo =
      (List.range workers).flatMap (range.cyclesOf workers) := by
    simp [start, List.flatMap_map]
  obtain ⟨-, -, hset⟩ := DocumentSet.of_create hcreate
  refine
    { service := ?_
      isOpen := ?_
      placed := DocumentSet.Placed.none_made location left
      fits := fits_start range workers _
      todo := ?_
      made := ?_
      verdict := .inl ⟨[], ?_⟩ }
  · rw [hservice]
    exact Service.sound_start hroom hcreate workers
  · show set.isClosed = false
    rw [hset]
  · intro worker hworker cycle hcycle
    rw [← (range.cyclesOf_perm hworkers).mem_iff, ← htodo]
    exact List.mem_flatMap.2 ⟨worker, hworker, hcycle⟩
  · intro index hindex
    cases hindex
  · refine
      { live := ?_
        failures := hnothing Metrics.failures rfl
        shared := ?_
        resolved := by simp
        writable := by simp
        made := by simp
        log := rfl
        emitted := hnothing Metrics.emitted rfl }
    · intro number shared hshared
      change set.documents[number]? = some shared at hshared
      rw [hset] at hshared
      cases hshared
    · rw [htodo]
      exact range.cyclesOf_perm hworkers

end Crew

end XmlWorkload
