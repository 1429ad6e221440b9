import Mathlib.Algebra.BigOperators.Group.List.Basic
import XmlWorkload.Proofs.Run.Verdict

/-!
# What the workers count

Every cycle that is taken in hand is counted once, as one that wrote its element or as one that
failed.  Main statements: every step keeps the counts in line with the history
(`Crew.Counted.step`); at any time the cycles of the range are those that were counted and those
still to be done (`Crew.Counted.attempted_add_todo`); and when a crew is done its totals are settled
by the history (`Crew.Counted.totals`).
-/

set_option autoImplicit false

namespace XmlWorkload

/-- How many cycles a worker has counted or still has to do. -/
def Worker.share (worker : Worker) : Nat := worker.metrics.attempted + worker.todo.length

/-- Every cycle that a worker has counted wrote its element or failed. -/
def Worker.Balanced (worker : Worker) : Prop :=
  worker.metrics.attempted = worker.metrics.emitted + worker.metrics.failures

/-- A worker that counts one more outcome stays balanced. -/
theorem Worker.Balanced.addOutcome {todo todo' : List Nat} {stage stage' : Stage}
    {metrics : Metrics} (h : Worker.Balanced ⟨todo, stage, metrics⟩) (cycle : Nat)
    (result : Except CycleError Unit) :
    Worker.Balanced ⟨todo', stage', metrics.addOutcome cycle result⟩ := by
  unfold Worker.Balanced at h ⊢
  cases result with
  | ok value =>
    simp only [Metrics.addOutcome, Metrics.addSuccess] at h ⊢
    omega
  | error error =>
    simp only [Metrics.addOutcome, Metrics.addFailure] at h ⊢
    omega

/-- Counting the cycle in hand leaves the share of a worker as it is. -/
theorem Worker.share_addOutcome (cycle : Nat) (rest : List Nat) (stage stage' : Stage)
    (metrics : Metrics) (result : Except CycleError Unit) :
    Worker.share ⟨rest, stage', metrics.addOutcome cycle result⟩ =
      Worker.share ⟨cycle :: rest, stage, metrics⟩ := by
  cases result with
  | ok value =>
    simp only [Worker.share, Metrics.addOutcome, Metrics.addSuccess, List.length_cons]
    omega
  | error error =>
    simp only [Worker.share, Metrics.addOutcome, Metrics.addFailure, List.length_cons]
    omega

namespace Crew

/-- How many of the emissions of a history were granted. -/
def grants (log : List Record) : Nat := log.countP fun record => record.result.isOk

/-- The counts of a crew are in line: the cycles that were counted and those that are still to be
done are those of the range, every cycle that was counted wrote its element or failed, and the
emissions that were granted are those that were counted. -/
structure Counted (range : CycleRange) (crew : Crew) : Prop where
  shared : (crew.workers.map Worker.share).sum = range.cycles.length
  balanced : ∀ worker ∈ crew.workers, worker.Balanced
  granted : crew.emitted = grants crew.log

/-- One more record is one more grant if it was granted. -/
theorem grants_concat (log : List Record) (record : Record) :
    grants (log ++ [record]) = grants log + if record.result.isOk then 1 else 0 := by
  unfold grants
  rw [List.countP_append, List.countP_singleton]

variable {workload : Workload} {range : CycleRange} {crew later : Crew}

/-- A worker that was replaced by one with the same share leaves the counts in line if its outcome
is in the history. -/
theorem Counted.replace (h : Counted range crew) {before after : List Worker}
    {worker worker' : Worker} (hworkers : crew.workers = before ++ worker :: after)
    (hlater : later.workers = before ++ worker' :: after) (hshare : worker'.share = worker.share)
    (hbalanced : worker.Balanced → worker'.Balanced)
    (hgrants : worker'.metrics.emitted + grants crew.log =
      worker.metrics.emitted + grants later.log) : Counted range later := by
  have hsum := sum_replace Worker.share hworkers hlater
  have hemitted := emitted_replace hworkers hlater
  have hbefore := h.balanced
  rw [hworkers] at hbefore
  refine ⟨?_, ?_, ?_⟩
  · rw [← h.shared]
    omega
  · rw [hlater]
    exact forall_replace hbefore (hbalanced (hbefore worker (by simp)))
  · have hgranted := h.granted
    omega

/-- Every step of a worker keeps the counts in line. -/
theorem Counted.step (h : Counted range crew) (hstep : Step workload range.seed crew later) :
    Counted range later := by
  cases hstep with
  | @skip before after cycle rest metrics error hworkers hresolve hmild =>
    exact h.replace hworkers rfl (Worker.share_addOutcome cycle rest .idle .idle metrics _)
      (fun hbalanced => hbalanced.addOutcome cycle _) rfl
  | @lookUp before after cycle rest metrics step hworkers hresolve =>
    let outcome := (MountedSet.acquire step.file).run crew.mounted
    have hlater : (crew.lookUp before after cycle rest metrics step).workers =
        before ++ .afterLookUp cycle rest metrics step outcome.1 :: after := rfl
    cases hresult : outcome.1 with
    | error error =>
      rw [hresult] at hlater
      exact h.replace hworkers hlater (Worker.share_addOutcome cycle rest .idle .idle metrics _)
        (fun hbalanced => hbalanced.addOutcome cycle _) rfl
    | ok number =>
      rw [hresult] at hlater
      exact h.replace hworkers hlater rfl (fun hbalanced => hbalanced) rfl
  | @write before after cycle rest metrics index number emission hworkers =>
    let outcome := (MountedSet.emitTo number emission.path emission.template).run crew.mounted
    -- the cycle counts as written exactly when the record that is added is that of a grant
    refine h.replace hworkers rfl (Worker.share_addOutcome cycle rest _ _ metrics _)
      (fun hbalanced => hbalanced.addOutcome cycle _) ?_
    show (metrics.addOutcome cycle (outcome.1.mapError .document)).emitted + grants crew.log =
      metrics.emitted + grants (crew.log ++ [⟨index, emission, outcome.1⟩])
    rw [grants_concat]
    cases outcome.1 with
    | error error => rfl
    | ok value =>
      show metrics.emitted + 1 + grants crew.log = metrics.emitted + (grants crew.log + 1)
      omega
  | @leave before after todo metrics number hworkers =>
    exact h.replace hworkers rfl rfl (fun hbalanced => hbalanced) rfl

/-- In whatever order the workers take their steps, the counts stay in line. -/
theorem Counted.reaches (h : Counted range crew)
    (hreaches : Reaches workload range.seed crew later) : Counted range later := by
  induction hreaches with
  | refl => exact h
  | tail _ hstep ih => exact ih.step hstep

/-- The counts are in line before anything happens. -/
theorem counted_start {workers : Nat} (hworkers : 0 < workers) (mounted : MountedSet) :
    Counted range (start range workers mounted) := by
  refine ⟨?_, ?_, ?_⟩
  · have hlength := (range.cyclesOf_perm hworkers).length_eq
    rw [List.length_flatMap] at hlength
    rw [← hlength]
    simp [start, Worker.share, Metrics.none, Function.comp_def]
  · intro worker hworker
    obtain ⟨number, -, rfl⟩ := List.mem_map.1 hworker
    rfl
  · simp [start, emitted, grants, Metrics.none, Function.comp_def]

/-- At any time every cycle that was counted wrote its element or failed. -/
theorem Counted.attempted_eq (h : Counted range crew) :
    crew.metrics.attempted = crew.metrics.emitted + crew.metrics.failures := by
  have hattempted : crew.metrics.attempted =
      (crew.workers.map fun worker => worker.metrics.attempted).sum :=
    count_metrics (fun _ _ => rfl) rfl crew
  obtain ⟨hfailures, hemitted⟩ := crew.counts_metrics
  have hbalance : (crew.workers.map fun worker => worker.metrics.attempted) =
      crew.workers.map fun worker => worker.metrics.emitted + worker.metrics.failures :=
    List.map_congr_left h.balanced
  rw [hattempted, hbalance, List.sum_map_add, hemitted, hfailures]
  rfl

/-- At any time the cycles of the range are those that were counted and those still to be done. -/
theorem Counted.attempted_add_todo (h : Counted range crew) :
    crew.metrics.attempted + (crew.workers.map fun worker => worker.todo.length).sum =
      range.cycles.length := by
  have hattempted : crew.metrics.attempted =
      (crew.workers.map fun worker => worker.metrics.attempted).sum :=
    count_metrics (fun _ _ => rfl) rfl crew
  rw [hattempted, ← List.sum_map_add, ← h.shared]
  rfl

/-- When a crew is done every cycle of the range is counted, as one that wrote its element if it was
granted and otherwise as one that failed. -/
theorem Counted.totals (h : Counted range crew) (hdone : crew.IsDone) :
    crew.metrics.attempted = range.cycles.length ∧ crew.metrics.emitted = grants crew.log ∧
      crew.metrics.attempted = crew.metrics.emitted + crew.metrics.failures := by
  have hnone : (crew.workers.map fun worker => worker.todo.length).sum = 0 := by
    apply List.sum_eq_zero
    intro length hlength
    obtain ⟨worker, hworker, rfl⟩ := List.mem_map.1 hlength
    rw [(hdone worker hworker).1, List.length_nil]
  have hall := h.attempted_add_todo
  rw [hnone, Nat.add_zero] at hall
  exact ⟨hall, crew.counts_metrics.2.trans h.granted, h.attempted_eq⟩

end Crew

end XmlWorkload
