import XmlWorkload.Proofs.Disk.Creatable
import XmlWorkload.Proofs.Run.Apart

/-!
# Crews at work

Where the file of every cycle can be made, no worker fails to look its document up, whatever cycles
fail otherwise.  Main statements: every step keeps a crew steady, in whatever order the workers take
theirs (`Crew.Steady.step`, `Crew.Steady.reaches`); and when the crew is done there is a document
for the file of each cycle that resolves, and no other (`Crew.Steady.mem_made_iff`).
-/

set_option autoImplicit false

namespace XmlWorkload.Crew

/-- The file of every cycle that resolves can be made in the directory of a set. -/
def Prepared (workload : Workload) (range : CycleRange) (origin : MountedSet) : Prop :=
  ∀ cycle ∈ range.cycles, ∀ step, workload.resolve range.seed cycle = .ok step →
    origin.disk.Creatable (origin.set.filePath step.file)

/-- A crew is steady: its set is sound, with the workers as callers, and open; the files that could
be made at first and were not yet still can be; its workers are at cycles of the range; and
documents were made for files of cycles, at the latest when the cycles were done. -/
structure Steady (workload : Workload) (range : CycleRange) (origin : MountedSet) (crew : Crew) :
    Prop where
  service : Service.Sound origin crew.service
  isOpen : crew.mounted.set.isClosed = false
  fits : Fits workload range.seed crew
  creatable : ∀ index, index ∉ crew.made → origin.disk.Creatable (origin.set.filePath index) →
    crew.mounted.disk.Creatable (origin.set.filePath index)
  todo : ∀ worker ∈ crew.workers, ∀ cycle ∈ worker.todo, cycle ∈ range.cycles
  made : ∀ index ∈ crew.made, ∃ cycle ∈ range.cycles, ∃ step,
    workload.resolve range.seed cycle = .ok step ∧ step.file = index
  reached : ∀ cycle ∈ range.cycles, ∀ step, workload.resolve range.seed cycle = .ok step →
    cycle ∈ crew.workers.flatMap Worker.todo ∨ step.file ∈ crew.made

variable {workload : Workload} {range : CycleRange} {origin : MountedSet} {crew later : Crew}

namespace Steady

/-- The document of a cycle can be looked up, and the files of other cycles can still be made. -/
theorem acquire_ok (hprepared : Prepared workload range origin)
    (h : Steady workload range origin crew) {cycle : Nat} {step : CycleStep}
    (hcycle : cycle ∈ range.cycles) (hresolve : workload.resolve range.seed cycle = .ok step) :
    ∃ number left, (MountedSet.acquire step.file).run crew.mounted = (.ok number, left) ∧
      left.set.isClosed = false ∧
      ∀ index, index ∉ crew.made ++ List.replicate
          (left.set.documents.size - crew.mounted.set.documents.size) step.file →
        origin.disk.Creatable (origin.set.filePath index) →
          left.disk.Creatable (origin.set.filePath index) := by
  have hmounted : MountedSet.Sound origin crew.made (crew.service.callers.flatMap Stage.claims)
      (crew.service.callers.flatMap Stage.pending) (fun index => grantedOn index crew.log)
      crew.mounted := h.service.mounted
  have hpath : crew.mounted.set.filePath step.file = origin.set.filePath step.file := by
    unfold DocumentSet.filePath
    rw [hmounted.directory]
  rcases hmounted.acquire_cases step.file with
    ⟨hclosed, -⟩ | ⟨number, -, -, hrun⟩ |
      ⟨left, disk, document, -, hnew, hrun, hcreate, hframe, hstill, hdocuments, -⟩ |
        ⟨error, fault, disk, -, hnew, -, hcreate⟩
  · rw [h.isOpen] at hclosed
    cases hclosed
  · refine ⟨number, _, hrun, h.isOpen, ?_⟩
    intro index hindex
    exact h.creatable index fun hmem => hindex (List.mem_append_left _ hmem)
  · refine ⟨_, _, hrun, hstill, ?_⟩
    intro index hindex hfree
    simp only [MountedSet.hold, Array.size_modify, hdocuments, Array.size_push,
      Nat.add_sub_cancel_left, List.replicate_one, List.mem_append, List.mem_singleton,
      not_or] at hindex
    rw [hpath] at hcreate
    have hnames : DocumentSet.fileName index ≠ DocumentSet.fileName step.file :=
      fun heq => hindex.2 (DocumentSet.fileName_injective heq)
    have hadded := (h.creatable index hindex.1 hfree).of_createFile
      (DocumentSet.isPlain_fileName index) (DocumentSet.isPlain_fileName step.file) hnames hcreate
    exact hadded.of_samePlaces (Disk.SamePlaces.of_sameBut hframe)
  · -- a file can be made for the index, so the lookup does not fail
    obtain ⟨file, made, hfree⟩ := h.creatable step.file hnew (hprepared cycle hcycle step hresolve)
    rw [hpath, hfree] at hcreate
    cases hcreate

/-- A crew stays steady when a worker makes no document and leaves out no cycle but one that does not
resolve, or whose document is there. -/
theorem replace (h : Steady workload range origin crew) {before after : List Worker}
    {worker worker' : Worker} (hworkers : crew.workers = before ++ worker :: after)
    (hlater : later.workers = before ++ worker' :: after) (hmade : later.made = crew.made)
    (hservice : Service.Sound origin later.service) (hfits : Fits workload range.seed later)
    (hopen : later.mounted.set.isClosed = false)
    (hplaces : Disk.SamePlaces crew.mounted.disk later.mounted.disk)
    (htodo : ∀ cycle ∈ worker'.todo, cycle ∈ worker.todo)
    (hleft : ∀ cycle ∈ worker.todo, ∀ step, workload.resolve range.seed cycle = .ok step →
      cycle ∈ worker'.todo ∨ step.file ∈ crew.made) :
    Steady workload range origin later := by
  have htodoBefore := h.todo
  have hreached := h.reached
  rw [hworkers] at htodoBefore hreached
  refine
    { service := hservice
      isOpen := hopen
      fits := hfits
      creatable := ?_
      todo := ?_
      made := ?_
      reached := ?_ }
  · intro index hnew hfree
    rw [hmade] at hnew
    exact (h.creatable index hnew hfree).of_samePlaces hplaces
  · rw [hlater]
    exact forall_replace htodoBefore fun cycle hcycle =>
      htodoBefore worker (by simp) cycle (htodo cycle hcycle)
  · rw [hmade]
    exact h.made
  · intro cycle hcycle step hstep
    rw [hlater, hmade]
    rcases hreached cycle hcycle step hstep with hmem | hmem
    · by_cases hown : cycle ∈ worker.todo ∧ cycle ∉ worker'.todo
      · exact .inr ((hleft cycle hown.1 step hstep).resolve_left hown.2)
      · exact .inl (mem_todo_replace (fun hold => not_not.1 fun hnew => hown ⟨hold, hnew⟩) hmem)
    · exact .inr hmem

/-- A crew stays steady when the document of the cycle in hand is looked up. -/
theorem lookUp (hprepared : Prepared workload range origin) (h : Steady workload range origin crew)
    {before after : List Worker} {cycle : Nat} {rest : List Nat} {metrics : Metrics}
    {step : CycleStep} (hworkers : crew.workers = before ++ ⟨cycle :: rest, .idle, metrics⟩ :: after)
    (hresolve : workload.resolve range.seed cycle = .ok step)
    (hservice : Service.Sound origin (crew.lookUp before after cycle rest metrics step).service)
    (hfits : Fits workload range.seed (crew.lookUp before after cycle rest metrics step)) :
    Steady workload range origin (crew.lookUp before after cycle rest metrics step) := by
  have htodo := h.todo
  have hreached := h.reached
  rw [hworkers] at htodo hreached
  have hown := htodo ⟨cycle :: rest, .idle, metrics⟩ (by simp)
  have hcycle := hown cycle List.mem_cons_self
  obtain ⟨number, left, hrun, hstill, hfree⟩ := h.acquire_ok hprepared hcycle hresolve
  let growth := left.set.documents.size - crew.mounted.set.documents.size
  have hlater : crew.lookUp before after cycle rest metrics step =
      ⟨left, before ++ ⟨cycle :: rest, .holding step.file number step.emission, metrics⟩ :: after,
        crew.made ++ List.replicate growth step.file, crew.log⟩ := by
    simp only [Crew.lookUp, hrun]
    rfl
  rw [hlater] at hservice hfits ⊢
  refine
    { service := hservice
      isOpen := hstill
      fits := hfits
      creatable := hfree
      todo := forall_replace htodo hown
      made := ?_
      reached := ?_ }
  · intro index hindex
    rcases List.mem_append.1 hindex with hindex | hindex
    · exact h.made index hindex
    · rw [List.eq_of_mem_replicate hindex]
      exact ⟨cycle, hcycle, step, hresolve, rfl⟩
  · intro other hother step' hstep'
    refine (hreached other hother step' hstep').imp (mem_todo_replace fun hmem => ?_)
      (List.mem_append_left _)
    exact hmem

/-- Every step of a worker keeps a crew steady. -/
theorem step (hprepared : Prepared workload range origin) (h : Steady workload range origin crew)
    (hstep : Step workload range.seed crew later) : Steady workload range origin later := by
  have hservice := h.service.reaches hstep.reaches
  have hfits := h.fits.step hstep
  cases hstep with
  | @skip before after cycle rest metrics error hworkers hresolve hmild =>
    refine h.replace hworkers rfl rfl hservice hfits h.isOpen (Disk.SamePlaces.refl _)
      (fun _ => List.mem_cons_of_mem _) ?_
    intro other hother step hstep
    rcases List.mem_cons.1 hother with rfl | hrest
    · rw [hresolve] at hstep
      cases hstep
    · exact .inl hrest
  | @lookUp before after cycle rest metrics step hworkers hresolve =>
    exact h.lookUp hprepared hworkers hresolve hservice hfits
  | @write before after cycle rest metrics index number emission hworkers =>
    obtain ⟨step, hresolve, rfl, -⟩ := h.fits.of_holding hworkers
    have hindex : crew.made[number]? = some step.file :=
      h.service.holding step.file number emission (by simp [callers_eq hworkers])
    have hplaces := (h.service.focus (callers_eq hworkers)).samePlaces_emitTo List.mem_cons_self
      emission
    refine h.replace hworkers rfl rfl hservice hfits
      ((MountedSet.isClosed_onDocument _ _ _).trans h.isOpen) hplaces
      (fun _ => List.mem_cons_of_mem _) ?_
    intro other hother step' hstep
    rcases List.mem_cons.1 hother with rfl | hrest
    · -- the document of the cycle in hand is the one that the worker holds
      rw [hresolve] at hstep
      cases hstep
      exact .inr (List.mem_of_getElem? hindex)
    · exact .inl hrest
  | @leave before after todo metrics number hworkers =>
    have hplaces := (h.service.focus (callers_eq hworkers)).samePlaces_release
    exact h.replace hworkers rfl rfl hservice hfits
      ((MountedSet.isClosed_release _ _).trans h.isOpen) hplaces (fun _ hother => hother)
      fun _ hother _ _ => .inl hother

/-- In whatever order the workers take their steps, a crew stays steady. -/
theorem reaches (hprepared : Prepared workload range origin)
    (h : Steady workload range origin crew) (hreaches : Reaches workload range.seed crew later) :
    Steady workload range origin later := by
  induction hreaches with
  | refl => exact h
  | tail _ hstep ih => exact ih.step hprepared hstep

/-- When a crew is done there is a document for the file of each cycle that resolves, and no
other. -/
theorem mem_made_iff (h : Steady workload range origin crew) (hdone : crew.IsDone) (index : Nat) :
    index ∈ crew.made ↔ index ∈ workload.fileIndices range := by
  unfold Workload.fileIndices
  rw [List.mem_dedup, List.mem_map]
  constructor
  · intro hindex
    obtain ⟨cycle, hcycle, step, hresolve, hfile⟩ := h.made index hindex
    exact ⟨step, (workload.mem_stepsOf_iff range step).2 ⟨cycle, hcycle, hresolve⟩, hfile⟩
  · rintro ⟨step, hstep, rfl⟩
    obtain ⟨cycle, hcycle, hresolve⟩ := (workload.mem_stepsOf_iff range step).1 hstep
    refine (h.reached cycle hcycle step hresolve).resolve_left fun hmem => ?_
    obtain ⟨worker, hworker, htodo⟩ := List.mem_flatMap.1 hmem
    rw [(hdone worker hworker).1] at htodo
    cases htodo

end Steady

/-- A crew is steady before anything happens. -/
theorem steady_start {directory root : String} {engine : Engine} {disk left : Disk}
    {set : DocumentSet} (hroom : disk.room = none)
    (hcreate : (DocumentSet.create directory root engine).run disk = (.ok set, left))
    {workers : Nat} (hworkers : 0 < workers) :
    Steady workload range ⟨set, left⟩ (start range workers ⟨set, left⟩) := by
  have hservice : (start range workers ⟨set, left⟩).service =
      Service.start ⟨set, left⟩ workers := by
    simp [start, service, Service.start, Function.comp_def]
  have hcycles : ∀ cycle, cycle ∈ (start range workers ⟨set, left⟩).workers.flatMap Worker.todo ↔
      cycle ∈ range.cycles := by
    intro cycle
    rw [todo_start, (range.cyclesOf_perm hworkers).mem_iff]
  obtain ⟨-, -, hset⟩ := DocumentSet.of_create hcreate
  refine
    { service := ?_
      isOpen := ?_
      fits := fits_start range workers _
      creatable := fun _ _ hfree => hfree
      todo := ?_
      made := fun _ hindex => absurd hindex List.not_mem_nil
      reached := fun cycle hcycle _ _ => .inl ((hcycles cycle).2 hcycle) }
  · rw [hservice]
    exact Service.sound_start hroom hcreate workers
  · show set.isClosed = false
    rw [hset]
  · intro worker hworker cycle hcycle
    exact (hcycles cycle).1 (List.mem_flatMap.2 ⟨worker, hworker, hcycle⟩)

end XmlWorkload.Crew
