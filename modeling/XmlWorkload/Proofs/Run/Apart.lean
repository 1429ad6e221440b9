import Mathlib.Data.List.Sort
import XmlWorkload.Proofs.Run.Closing

/-!
# Workers with files of their own

When no two workers have cycles for the same file, each file gets what the cycles emit to it in the
order of the cycles, however many workers there are.  Main statement: what the workers of a run have
to emit to a file is what one worker alone would emit to it, in the same order
(`Workload.emissionsTo_eq_of_exclusive`).
-/

set_option autoImplicit false

namespace XmlWorkload

namespace Workload

variable {workload : Workload} {seed : Nat} {range : CycleRange} {workers : Nat}

/-- What a cycle emits to the file with an index, if anything. -/
def emitsTo (workload : Workload) (seed index cycle : Nat) : List Emission :=
  match workload.resolve seed cycle with
  | .ok step => if step.file = index then [step.emission] else []
  | .error _ => []

/-- Whether a cycle emits anything to the file with an index. -/
def meets (workload : Workload) (seed index cycle : Nat) : Bool :=
  !(workload.emitsTo seed index cycle).isEmpty

/-- A cycle that does not resolve emits nothing to any file. -/
theorem emitsTo_of_error {cycle : Nat} {error : CycleError}
    (h : workload.resolve seed cycle = .error error) (index : Nat) :
    workload.emitsTo seed index cycle = [] := by
  unfold emitsTo
  rw [h]

/-- A cycle that resolves emits to its own file only. -/
theorem emitsTo_of_ok {cycle : Nat} {step : CycleStep} (h : workload.resolve seed cycle = .ok step)
    (index : Nat) :
    workload.emitsTo seed index cycle = if step.file = index then [step.emission] else [] := by
  unfold emitsTo
  rw [h]

/-- A cycle meets the file with an index when it resolves to that file. -/
theorem meets_iff {index cycle : Nat} :
    workload.meets seed index cycle = true ↔
      ∃ step, workload.resolve seed cycle = .ok step ∧ step.file = index := by
  unfold meets emitsTo
  cases workload.resolve seed cycle with
  | error error => simp
  | ok step => by_cases hfile : step.file = index <;> simp [hfile]

/-- Cycles that emit nothing to a file may be left out. -/
theorem flatMap_filter_meets (workload : Workload) (seed index : Nat) (cycles : List Nat) :
    (cycles.filter (workload.meets seed index)).flatMap (workload.emitsTo seed index) =
      cycles.flatMap (workload.emitsTo seed index) := by
  induction cycles with
  | nil => rfl
  | cons cycle rest ih =>
    rw [List.flatMap_cons, ← ih, List.filter_cons]
    by_cases hmeets : workload.meets seed index cycle = true
    · rw [if_pos hmeets, List.flatMap_cons]
    · have hnothing : workload.emitsTo seed index cycle = [] := by simpa [meets] using hmeets
      rw [if_neg hmeets, hnothing, List.nil_append]

/-- What cycles emit to a file is what each of them emits to it, the cycles ascending. -/
theorem emissionsTo_eq (workload : Workload) (range : CycleRange) (index : Nat) :
    workload.emissionsTo range index =
      range.cycles.flatMap (workload.emitsTo range.seed index) := by
  unfold emissionsTo stepsOf
  induction range.cycles with
  | nil => rfl
  | cons cycle rest ih =>
    rw [List.flatMap_cons, ← ih, List.filterMap_cons]
    cases hresolve : workload.resolve range.seed cycle with
    | error error =>
      rw [emitsTo_of_error hresolve]
      rfl
    | ok step =>
      rw [emitsTo_of_ok hresolve]
      by_cases hfile : step.file = index
      · simp [Except.toOption, hfile]
      · simp [Except.toOption, hfile]

/-- The cycles of two workers have no file in common. -/
def Apart (workload : Workload) (seed : Nat) (first second : List Nat) : Prop :=
  ∀ cycle ∈ first, ∀ other ∈ second, ∀ step step', workload.resolve seed cycle = .ok step →
    workload.resolve seed other = .ok step' → step.file ≠ step'.file

/-- Cycles are apart in either order. -/
theorem Apart.symm {first second : List Nat} (h : workload.Apart seed first second) :
    workload.Apart seed second first :=
  fun cycle hcycle other hother step step' hstep hstep' =>
    (h other hother cycle hcycle step' step hstep' hstep).symm

/-- Whose file one worker has, the other emits nothing to it. -/
theorem Apart.flatMap_emitsTo {first second : List Nat} (h : workload.Apart seed first second)
    {cycle : Nat} {step : CycleStep} (hcycle : cycle ∈ first)
    (hresolve : workload.resolve seed cycle = .ok step) :
    second.flatMap (workload.emitsTo seed step.file) = [] := by
  rw [List.flatMap_eq_nil_iff]
  intro other hother
  cases hother' : workload.resolve seed other with
  | error error => exact emitsTo_of_error hother' step.file
  | ok step' =>
    have hapart := h cycle hcycle other hother step step' hresolve hother'
    rw [emitsTo_of_ok hother', if_neg hapart.symm]

/-- No file is used by cycles of two different workers. -/
def Exclusive (workload : Workload) (range : CycleRange) (workers : Nat) : Prop :=
  ∀ first < workers, ∀ second < workers,
    ∀ cycle ∈ range.cyclesOf workers first, ∀ other ∈ range.cyclesOf workers second,
      ∀ step step', workload.resolve range.seed cycle = .ok step →
        workload.resolve range.seed other = .ok step' → step.file = step'.file → first = second

/-- A worker who is alone shares no file. -/
theorem exclusive_one (workload : Workload) (range : CycleRange) : workload.Exclusive range 1 := by
  intro first hfirst second hsecond
  intros
  omega

/-- Workers with files of their own have cycles that are apart. -/
theorem Exclusive.pairwise (h : workload.Exclusive range workers) :
    (List.range workers).Pairwise fun first second =>
      workload.Apart range.seed (range.cyclesOf workers first) (range.cyclesOf workers second) := by
  apply List.nodup_range.pairwise_of_forall_ne
  intro first hfirst second hsecond hne cycle hcycle other hother step step' hstep hstep' hsame
  exact hne (h first (List.mem_range.1 hfirst) second (List.mem_range.1 hsecond) cycle hcycle other
    hother step step' hstep hstep' hsame)

/-- What workers with files of their own have to emit to a file, worker by worker, is what the
cycles emit to it, the cycles ascending. -/
theorem emissionsTo_eq_of_exclusive (h : workload.Exclusive range workers) (hworkers : 0 < workers)
    (index : Nat) :
    ((List.range workers).flatMap (range.cyclesOf workers)).flatMap
        (workload.emitsTo range.seed index) =
      workload.emissionsTo range index := by
  let cycles := (List.range workers).flatMap (range.cyclesOf workers)
  let meets := workload.meets range.seed index
  -- the cycles that meet the file are those of one worker, which has them ascending
  have hascending : (cycles.filter meets).Pairwise (· < ·) := by
    rw [List.filter_flatMap, List.pairwise_flatMap]
    refine ⟨fun worker _ => (range.pairwise_cyclesOf workers worker).filter _, ?_⟩
    apply h.pairwise.imp
    intro first second hapart cycle hcycle other hother
    obtain ⟨hcycle, hmeets⟩ := List.mem_filter.1 hcycle
    obtain ⟨hother, hmeets'⟩ := List.mem_filter.1 hother
    obtain ⟨step, hstep, hfile⟩ := meets_iff.1 hmeets
    obtain ⟨step', hstep', hfile'⟩ := meets_iff.1 hmeets'
    exact absurd (hfile.trans hfile'.symm)
      (hapart cycle hcycle other hother step step' hstep hstep')
  have hsame : cycles.filter meets = range.cycles.filter meets := by
    apply hascending.eq_of_mem_iff (range.pairwise_cycles.filter _)
    intro cycle
    rw [List.mem_filter, List.mem_filter, (range.cyclesOf_perm hworkers).mem_iff]
  rw [emissionsTo_eq, ← flatMap_filter_meets, hsame, flatMap_filter_meets]

end Workload

end XmlWorkload
