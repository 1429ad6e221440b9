import XmlWorkload.Proofs.Run.Steady

/-!
# Cycles that are carried out

A cycle that ends the work of its worker leaves the rest of the worker's share undone.  Main
statement: when no worker takes a step any more there is a document for the file of each cycle that
was carried out and resolves, and no other (`Crew.Steady.mem_made_iff_of_over`).
-/

set_option autoImplicit false

namespace XmlWorkload

namespace Workload

/-- A cycle is carried out: it is in the share of a worker, and neither the cycle nor an earlier one
of the share ends the work of the worker. -/
def CarriesOut (workload : Workload) (range : CycleRange) (workers cycle : Nat) : Prop :=
  ∃ worker < workers, cycle ∈ range.cyclesOf workers worker ∧
    ∀ earlier ∈ range.cyclesOf workers worker, earlier ≤ cycle →
      ¬ workload.Overflows range.seed earlier

/-- The file with an index is that of a cycle that is carried out and resolves. -/
def WritesFile (workload : Workload) (range : CycleRange) (workers index : Nat) : Prop :=
  ∃ cycle step, workload.CarriesOut range workers cycle ∧
    workload.resolve range.seed cycle = .ok step ∧ step.file = index

variable {workload : Workload} {range : CycleRange} {workers cycle index : Nat}

/-- A cycle that is carried out is one of the run. -/
theorem CarriesOut.mem_cycles (h : workload.CarriesOut range workers cycle) :
    cycle ∈ range.cycles := by
  obtain ⟨worker, hworker, hmem, -⟩ := h
  obtain ⟨hle, hlt, -⟩ := (range.mem_cyclesOf_iff hworker cycle).1 hmem
  exact (range.mem_cycles_iff cycle).2 ⟨hle, hlt⟩

/-- Where no cycle of a run ends anybody's work, all of them are carried out. -/
theorem carriesOut_iff (hworkers : 0 < workers)
    (hnone : ∀ cycle ∈ range.cycles, ¬ workload.Overflows range.seed cycle) (cycle : Nat) :
    workload.CarriesOut range workers cycle ↔ cycle ∈ range.cycles := by
  refine ⟨CarriesOut.mem_cycles, fun hcycle => ?_⟩
  have hshared := (range.cyclesOf_perm hworkers).mem_iff.2 hcycle
  obtain ⟨worker, hworker, hmem⟩ := List.mem_flatMap.1 hshared
  refine ⟨worker, List.mem_range.1 hworker, hmem, fun earlier hearlier _ => hnone earlier ?_⟩
  exact (range.cyclesOf_perm hworkers).mem_iff.1 (List.mem_flatMap.2 ⟨worker, hworker, hearlier⟩)

/-- Where no cycle of a run ends anybody's work, the files are those of all cycles that resolve. -/
theorem writesFile_iff (hworkers : 0 < workers)
    (hnone : ∀ cycle ∈ range.cycles, ¬ workload.Overflows range.seed cycle) (index : Nat) :
    workload.WritesFile range workers index ↔ index ∈ workload.fileIndices range := by
  unfold fileIndices
  simp only [List.mem_dedup, List.mem_map, mem_stepsOf_iff, WritesFile,
    carriesOut_iff hworkers hnone]
  constructor
  · rintro ⟨cycle, step, hcycle, hresolve, hfile⟩
    exact ⟨step, ⟨cycle, hcycle, hresolve⟩, hfile⟩
  · rintro ⟨step, ⟨cycle, hcycle, hresolve⟩, hfile⟩
    exact ⟨cycle, step, hcycle, hresolve, hfile⟩

end Workload

variable {workload : Workload} {range : CycleRange} {workers : Nat}

/-- What a worker has to do is what is left of the share of one of the workers, and no cycle before
that ended the work. -/
def Worker.Shares (workload : Workload) (range : CycleRange) (workers : Nat) (worker : Worker) :
    Prop :=
  ∃ number < workers, ∃ past, range.cyclesOf workers number = past ++ worker.todo ∧
    ∀ cycle ∈ past, ¬ workload.Overflows range.seed cycle

namespace Worker.Shares

variable {worker : Worker} {cycle : Nat} {rest : List Nat}

/-- The cycles behind the next one of a worker are later ones. -/
theorem lt_of_mem_rest (h : worker.Shares workload range workers)
    (htodo : worker.todo = cycle :: rest) {later : Nat} (hlater : later ∈ rest) : cycle < later := by
  obtain ⟨number, -, past, hshare, -⟩ := h
  have hascending := range.pairwise_cyclesOf workers number
  rw [hshare, htodo] at hascending
  exact (List.pairwise_cons.1 (List.pairwise_append.1 hascending).2.1).1 later hlater

/-- The next cycle of a worker is carried out, unless it ends the work of the worker. -/
theorem carriesOut (h : worker.Shares workload range workers) (htodo : worker.todo = cycle :: rest)
    (hgoes : ¬ workload.Overflows range.seed cycle) : workload.CarriesOut range workers cycle := by
  have hlater : ∀ later ∈ rest, cycle < later := fun later => h.lt_of_mem_rest htodo
  obtain ⟨number, hnumber, past, hshare, hpast⟩ := h
  rw [htodo] at hshare
  refine ⟨number, hnumber, by simp [hshare], ?_⟩
  intro earlier hearlier hle
  rw [hshare] at hearlier
  rcases List.mem_append.1 hearlier with hold | hnew
  · exact hpast earlier hold
  · rcases List.mem_cons.1 hnew with rfl | hrest
    · exact hgoes
    · exact absurd (hlater earlier hrest) (Nat.not_lt.2 hle)

/-- A worker may go on behind a cycle that does not end the work. -/
theorem tail (h : worker.Shares workload range workers) (htodo : worker.todo = cycle :: rest)
    (hgoes : ¬ workload.Overflows range.seed cycle) (stage : Stage) (metrics : Metrics) :
    Worker.Shares workload range workers ⟨rest, stage, metrics⟩ := by
  obtain ⟨number, hnumber, past, hshare, hpast⟩ := h
  refine ⟨number, hnumber, past ++ [cycle], ?_, ?_⟩
  · rw [hshare, htodo, List.append_assoc, List.singleton_append]
  · intro other hother
    rcases List.mem_append.1 hother with hold | hnew
    · exact hpast other hold
    · rw [List.mem_singleton.1 hnew]
      exact hgoes

/-- What a worker whose work is over leaves undone is not carried out. -/
theorem not_carriesOut (h : worker.Shares workload range workers)
    (hover : worker.IsOver workload range.seed) (hcycle : cycle ∈ worker.todo) :
    ¬ workload.CarriesOut range workers cycle := by
  rintro ⟨other, hother, hmem, hgoes⟩
  have hshares := h
  obtain ⟨number, hnumber, past, hshare, -⟩ := h
  have hown : ∀ later ∈ worker.todo, later ∈ range.cyclesOf workers number := by
    intro later hlater
    rw [hshare]
    exact List.mem_append_right _ hlater
  -- the cycle is in one share only
  have hsame : other = number := by
    have hfirst := ((range.mem_cyclesOf_iff hother cycle).1 hmem).2.2
    have hsecond := ((range.mem_cyclesOf_iff hnumber cycle).1 (hown cycle hcycle)).2.2
    exact hfirst.symm.trans hsecond
  rw [hsame] at hgoes
  cases htodo : worker.todo with
  | nil =>
    rw [htodo] at hcycle
    cases hcycle
  | cons head rest =>
    have hends := hover.2 head (by simp [htodo])
    rw [htodo] at hcycle hown
    refine hgoes head (hown head List.mem_cons_self) ?_ hends
    rcases List.mem_cons.1 hcycle with rfl | hrest
    · exact Nat.le_refl _
    · exact Nat.le_of_lt (hshares.lt_of_mem_rest htodo hrest)

end Worker.Shares

namespace Crew

variable {origin : MountedSet} {crew later : Crew}

/-- Every worker is at what is left of a share, and documents were made for files of cycles that are
carried out. -/
structure Carrying (workload : Workload) (range : CycleRange) (workers : Nat) (crew : Crew) :
    Prop where
  shares : ∀ worker ∈ crew.workers, worker.Shares workload range workers
  made : ∀ index ∈ crew.made, workload.WritesFile range workers index

namespace Carrying

/-- Every step of a worker leaves the others at what is left of their shares. -/
theorem step (h : Carrying workload range workers crew) (hfits : Fits workload range.seed crew)
    (hstep : Step workload range.seed crew later) : Carrying workload range workers later := by
  have hshares := h.shares
  cases hstep with
  | @skip before after cycle rest metrics error hworkers hresolve hmild =>
    rw [hworkers] at hshares
    have hown := hshares ⟨cycle :: rest, .idle, metrics⟩ (by simp)
    have hgoes := Workload.not_overflows_of_error hresolve hmild
    exact ⟨forall_replace hshares (hown.tail rfl hgoes _ _), h.made⟩
  | @lookUp before after cycle rest metrics step hworkers hresolve =>
    rw [hworkers] at hshares
    have hown := hshares ⟨cycle :: rest, .idle, metrics⟩ (by simp)
    have hgoes := Workload.not_overflows_of_resolve hresolve
    refine ⟨forall_replace hshares ?_, ?_⟩
    · cases ((MountedSet.acquire step.file).run crew.mounted).1 with
      | error error => exact hown.tail rfl hgoes _ _
      | ok number => exact hown
    · intro index hindex
      rcases List.mem_append.1 hindex with hold | hnew
      · exact h.made index hold
      · rw [List.eq_of_mem_replicate hnew]
        exact ⟨cycle, step, hown.carriesOut rfl hgoes, hresolve, rfl⟩
  | @write before after cycle rest metrics index number emission hworkers =>
    obtain ⟨step, hresolve, -⟩ := hfits.of_holding hworkers
    rw [hworkers] at hshares
    have hown := hshares ⟨cycle :: rest, .holding index number emission, metrics⟩ (by simp)
    have hgoes := Workload.not_overflows_of_resolve hresolve
    exact ⟨forall_replace hshares (hown.tail rfl hgoes _ _), h.made⟩
  | @leave before after todo metrics number hworkers =>
    rw [hworkers] at hshares
    have hown := hshares ⟨todo, .leaving number, metrics⟩ (by simp)
    exact ⟨forall_replace hshares hown, h.made⟩

/-- In whatever order the workers take their steps, each is at what is left of a share. -/
theorem reaches (h : Carrying workload range workers crew) (hfits : Fits workload range.seed crew)
    (hreaches : Reaches workload range.seed crew later) :
    Carrying workload range workers later := by
  induction hreaches with
  | refl => exact h
  | tail hbefore hstep ih => exact ih.step (hfits.reaches hbefore) hstep

end Carrying

/-- Before anything happens every worker is at the beginning of a share. -/
theorem carrying_start (mounted : MountedSet) :
    Carrying workload range workers (start range workers mounted) := by
  refine ⟨?_, fun _ hindex => absurd hindex List.not_mem_nil⟩
  intro worker hworker
  obtain ⟨number, hnumber, rfl⟩ := List.mem_map.1 hworker
  exact ⟨number, List.mem_range.1 hnumber, [], rfl, fun _ hcycle => absurd hcycle List.not_mem_nil⟩

/-- When no worker takes a step any more there is a document for the file of each cycle that was
carried out and resolves, and no other. -/
theorem Steady.mem_made_iff_of_over (h : Steady workload range origin crew)
    (hcarrying : Carrying workload range workers crew)
    (hover : crew.IsOver workload range.seed) (index : Nat) :
    index ∈ crew.made ↔ workload.WritesFile range workers index := by
  refine ⟨hcarrying.made index, ?_⟩
  rintro ⟨cycle, step, hcarried, hresolve, rfl⟩
  refine (h.reached cycle hcarried.mem_cycles step hresolve).resolve_left fun hleft => ?_
  obtain ⟨worker, hworker, htodo⟩ := List.mem_flatMap.1 hleft
  exact (hcarrying.shares worker hworker).not_carriesOut (hover worker hworker) htodo hcarried

end Crew

end XmlWorkload
