import Mathlib.Data.List.Dedup
import XmlWorkload.Proofs.Run.Verdict
import XmlWorkload.Proofs.Set.Frame

/-!
# Crews that are done

When all workers of a crew are done and no cycle has failed, every cycle of the range has written
what it emits, and the set can be closed.  Main statement: then each file has the reference document
of what the cycles emit to it, in some order (`Crew.Sound.files_of_done`).
-/

set_option autoImplicit false

namespace XmlWorkload

namespace Workload

/-- The indices of the files of the cycles of a range, each once. -/
def fileIndices (workload : Workload) (range : CycleRange) : List Nat :=
  ((workload.stepsOf range).map CycleStep.file).dedup

/-- What the cycles of a range emit to the file with an index, the cycles ascending. -/
def emissionsTo (workload : Workload) (range : CycleRange) (index : Nat) : List Emission :=
  ((workload.stepsOf range).filter fun step => step.file == index).map CycleStep.emission

/-- The steps of a range are those of its cycles that resolve. -/
theorem mem_stepsOf_iff (workload : Workload) (range : CycleRange) (step : CycleStep) :
    step ∈ workload.stepsOf range ↔
      ∃ cycle ∈ range.cycles, workload.resolve range.seed cycle = .ok step := by
  unfold stepsOf
  rw [List.mem_filterMap]
  refine exists_congr fun cycle => and_congr_right fun _ => ?_
  cases workload.resolve range.seed cycle with
  | error error => simp [Except.toOption]
  | ok found => simp [Except.toOption]

end Workload

namespace Crew

variable {workload : Workload} {range : CycleRange} {origin : MountedSet} {location : Location}
  {crew : Crew} {done : List CycleStep}

/-- When no worker is in the middle of something nobody can use a document any more. -/
theorem mounted_of_idle (h : Service.Sound origin crew.service)
    (hidle : ∀ worker ∈ crew.workers, worker.stage = .idle) :
    MountedSet.Sound origin crew.made [] [] (fun index => grantedOn index crew.log)
      crew.mounted := by
  have hcallers : ∀ stage ∈ crew.service.callers, stage = .idle := by
    intro stage hstage
    obtain ⟨worker, hworker, rfl⟩ := List.mem_map.1 hstage
    exact hidle worker hworker
  obtain ⟨hclaims, hpending⟩ := Stage.nothing_of_idle hcallers
  have hmounted := h.mounted
  rw [hclaims, hpending] at hmounted
  exact hmounted

/-- When the workers are done nobody can use a document any more. -/
theorem mounted_of_done (h : Service.Sound origin crew.service) (hdone : crew.IsDone) :
    MountedSet.Sound origin crew.made [] [] (fun index => grantedOn index crew.log)
      crew.mounted :=
  mounted_of_idle h fun worker hworker => (hdone worker hworker).2

namespace Smooth

/-- When the workers are done every cycle of the range was. -/
theorem cycles_perm (h : Smooth workload range done crew) (hdone : crew.IsDone) :
    (done.map CycleStep.cycle).Perm range.cycles := by
  have hnothing : crew.workers.flatMap Worker.todo = [] := by
    rw [List.flatMap_eq_nil_iff]
    intro worker hworker
    exact (hdone worker hworker).1
  have hshared := h.shared
  rw [hnothing, List.append_nil] at hshared
  exact hshared

/-- When the workers are done the steps carried out are those of the range. -/
theorem steps_perm (h : Smooth workload range done crew) (hdone : crew.IsDone) :
    done.Perm (workload.stepsOf range) := by
  have hsteps : (done.map CycleStep.cycle).filterMap
      (fun cycle => (workload.resolve range.seed cycle).toOption) = done := by
    rw [List.filterMap_map]
    have hsome : done.filterMap some = done := List.filterMap_some
    refine Eq.trans (List.filterMap_congr ?_) hsome
    intro step hstep
    simp only [Function.comp_apply, h.resolved step hstep, Except.toOption]
  have hperm := (h.cycles_perm hdone).filterMap
    (fun cycle => (workload.resolve range.seed cycle).toOption)
  rw [hsteps] at hperm
  exact hperm

/-- When the workers are done every cycle of the range could be written. -/
theorem isWritable (h : Smooth workload range done crew) (hdone : crew.IsDone) {cycle : Nat}
    (hcycle : cycle ∈ range.cycles) : workload.IsWritable range.seed cycle := by
  obtain ⟨step, hstep, rfl⟩ := List.mem_map.1 ((h.cycles_perm hdone).mem_iff.2 hcycle)
  exact ⟨step, h.resolved step hstep, h.writable step hstep⟩

/-- What was granted on an index is what the cycles emit to its file, in some order. -/
theorem granted_perm (h : Smooth workload range done crew) (hdone : crew.IsDone) (index : Nat) :
    (grantedOn index crew.log).Perm (workload.emissionsTo range index) := by
  have hgranted : ∀ steps : List CycleStep, grantedOn index (steps.map recordOf) =
      (steps.filter fun step => step.file == index).map CycleStep.emission := by
    intro steps
    induction steps with
    | nil => rfl
    | cons step rest ih =>
      unfold grantedOn at ih ⊢
      rw [List.map_cons, List.flatMap_cons, ih]
      by_cases heq : step.file = index
      · simp [recordOf, heq, Document.granted]
      · simp [recordOf, heq]
  rw [h.log, hgranted]
  exact ((h.steps_perm hdone).filter _).map _

end Smooth

namespace Sound

/-- When the workers are done there is one document for each file. -/
theorem made_perm (h : Sound workload range origin location crew)
    (hsmooth : Smooth workload range done crew) (hdone : crew.IsDone) :
    crew.made.Perm (workload.fileIndices range) := by
  apply (List.perm_ext_iff_of_nodup h.service.mounted.nodup (List.nodup_dedup _)).2
  intro index
  rw [List.mem_dedup, List.mem_map]
  constructor
  · intro hindex
    obtain ⟨cycle, hcycle, step, hresolve, hfile⟩ := h.made index hindex
    exact ⟨step, (workload.mem_stepsOf_iff range step).2 ⟨cycle, hcycle, hresolve⟩, hfile⟩
  · rintro ⟨step, hstep, rfl⟩
    exact hsmooth.made step ((hsmooth.steps_perm hdone).mem_iff.2 hstep)

/-- The set of a crew that is done and smooth can be closed, and then each file has the reference
document of what was granted on its index. -/
theorem files_of_done (h : Sound workload range origin location crew)
    (hsmooth : Smooth workload range done crew) (hdone : crew.IsDone) :
    ∃ left, crew.mounted.closeDocuments = ([], left) ∧
      DocumentSet.Placed location origin.disk crew.made left.disk ∧
      ∀ number index, crew.made[number]? = some index → ∃ text,
        Reference.text? origin.set.engine.declaration origin.set.root
          (grantedOn index crew.log) = some text ∧
        left.disk.contentsOf (origin.disk.contents.size + number) = text.toUTF8 := by
  obtain ⟨left, hclose, hsound, hclosed, hset, hplaces⟩ :=
    (mounted_of_done h.service hdone).closeDocuments_of_allLive h.isOpen hsmooth.live
  refine ⟨left, hclose, h.placed.of_samePlaces hplaces, ?_⟩
  intro number index hindex
  have hnumber : number < crew.made.length := (List.getElem?_eq_some_iff.1 hindex).1
  obtain ⟨shared, -, hshared, -⟩ := hsound.ledger.exists_shared hnumber
  have hfollows := hsound.follows number shared index hshared hindex
  have hregistry := hsound.registry
  rw [if_pos hset] at hregistry
  have hnobody : shared.holders = 0 := by
    rw [hsound.holders number shared hshared, hregistry]
    rfl
  obtain ⟨tree, htree, htext⟩ :=
    (hfollows.letGo hnobody).2 ((hclosed number shared hshared).2 List.not_mem_nil)
  refine ⟨Reference.prologue origin.set.engine.declaration ++ tree.render, ?_, ?_⟩
  · unfold Reference.text?
    change Reference.tree? origin.set.root (grantedOn index crew.log) = some tree at htree
    rw [htree]
    rfl
  · rw [htext, Text.toUTF8_append]
    rfl

/-- The files that a crew leaves behind when it is done and smooth are one for each index.  They have
the reference documents of what was emitted, in some order, and they are counted when the directory is
summed up, as are the documents that were there before. -/
theorem summary_of_done (hready : Ready workload range origin location)
    (h : Sound workload range origin location crew) (hsmooth : Smooth workload range done crew)
    (hdone : crew.IsDone)
    (hkept : ∀ (place : Location) (file : Nat), (place, .file file) ∈ origin.disk.entries →
      file < origin.disk.contents.size ∧
        crew.mounted.disk.contentsOf file = origin.disk.contentsOf file)
    {tally : FileTally} (htally : Run.summarize origin.set.directory origin.disk = .ok tally) :
    ∃ (left : MountedSet) (texts : Nat → String), crew.mounted.closeDocuments = ([], left) ∧
      Run.summarize origin.set.directory left.disk =
        .ok ⟨tally.files + (workload.fileIndices range).length, tally.bytes +
          ((workload.fileIndices range).map fun index => (texts index).toUTF8.size).sum⟩ ∧
      ∀ index ∈ workload.fileIndices range,
        left.disk.readFile (origin.set.filePath index) = .ok (texts index).toUTF8 ∧
        ∃ emissions, emissions.Perm (workload.emissionsTo range index) ∧
          Reference.text? origin.set.engine.declaration origin.set.root emissions =
            some (texts index) := by
  obtain ⟨left, hclose, hplaced, hfiles⟩ := h.files_of_done hsmooth hdone
  let reference := fun index =>
    Reference.text? origin.set.engine.declaration origin.set.root (grantedOn index crew.log)
  have htext : ∀ number index, crew.made[number]? = some index →
      reference index = some ((reference index).getD "") ∧
        left.disk.contentsOf (origin.disk.contents.size + number) =
          ((reference index).getD "").toUTF8 := by
    intro number index hindex
    obtain ⟨text, hreference, hcontents⟩ := hfiles number index hindex
    change reference index = some text at hreference
    rw [hreference]
    exact ⟨rfl, hcontents⟩
  have hmade := h.made_perm hsmooth hdone
  have hcontents : ∀ (place : Location) (file : Nat), (place, .file file) ∈ origin.disk.entries →
      left.disk.contentsOf file = origin.disk.contentsOf file := by
    intro place file hmem
    obtain ⟨hlt, hsame⟩ := hkept place file hmem
    have hframe := (mounted_of_done h.service hdone).frame_closeDocuments
    rw [hclose] at hframe
    exact (hframe.contents file hlt).trans hsame
  refine ⟨left, fun index => (reference index).getD "", hclose, ?_, ?_⟩
  · rw [hplaced.summarize hready.found hcontents htally, hmade.length_eq, ← (hmade.map _).sum_nat]
    -- the sizes are summed by number in the order of making, and the texts go by index
    have hfirst : crew.made = crew.made.zipIdx.map Prod.fst := (List.zipIdx_map_fst 0 _).symm
    conv_rhs => rw [hfirst, List.map_map]
    congr 4
    apply List.map_congr_left
    intro document hdocument
    rw [(htext _ _ (List.mem_zipIdx_iff_getElem?.1 hdocument)).2]
    rfl
  · intro index hindex
    have hmem := hmade.mem_iff.2 hindex
    obtain ⟨number, hget⟩ := List.getElem?_of_mem hmem
    obtain ⟨cycle, hcycle, step, hresolve, rfl⟩ := h.made index hmem
    obtain ⟨file, made, hfree⟩ := hready.free cycle hcycle step hresolve
    obtain ⟨hreference, hcontents⟩ := htext number step.file hget
    refine ⟨?_, grantedOn step.file crew.log, hsmooth.granted_perm hdone step.file, hreference⟩
    unfold DocumentSet.filePath at hfree ⊢
    rw [hplaced.readFile hready.found hfree h.service.mounted.nodup hget]
    exact congrArg _ hcontents

end Sound

end Crew

end XmlWorkload
