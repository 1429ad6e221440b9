import Mathlib.Algebra.GroupWithZero.Nat
import Mathlib.Tactic.Push
import XmlWorkload.Proofs.Run.Cycle
import XmlWorkload.Proofs.Run.Range
import XmlWorkload.Proofs.Set.Service

/-!
# Crews

The workers of a run carry out their cycles at the same time.  Each of them does one thing after the
other, and between any two of its steps others may take theirs.  A worker who meets a cycle with a
text that would become too long takes no step any more.  Main statements: every step of a crew is one
of the callers of its set (`Crew.Step.reaches`); carrying out the cycles worker by worker is one of
the orders in which the steps can fall (`Crew.reaches_populate`); in every order the steps come to an
end (`Crew.remaining_step`, `Crew.exists_over`); and then all cycles were carried out unless one of
them has ended the work of its worker (`Crew.Pending.isDone_iff`).
-/

set_option autoImplicit false

namespace XmlWorkload

/-- A worker of a run. -/
structure Worker where
  /-- The cycles that are still to be carried out, with the one in hand first. -/
  todo : List Nat
  stage : Stage
  metrics : Metrics

/-- The workers of a run with the set of documents that they write to and its history. -/
structure Crew where
  mounted : MountedSet
  workers : List Worker
  /-- The indices under which documents were made, in the order of their numbers. -/
  made : List Nat
  /-- What was written to documents, in the order in which it happened. -/
  log : List Record

/-- What came of some cycles and of one more. -/
def Metrics.addOutcome (metrics : Metrics) (cycle : Nat) : Except CycleError Unit → Metrics
  | .ok () => metrics.addSuccess
  | .error error => metrics.addFailure (MountedSet.failureMessage cycle error)

/-- A worker after the lookup for the cycle in hand. -/
def Worker.afterLookUp (cycle : Nat) (rest : List Nat) (metrics : Metrics) (step : CycleStep) :
    Except Error Nat → Worker
  | .ok number => ⟨cycle :: rest, .holding step.file number step.emission, metrics⟩
  | .error error => ⟨rest, .idle, metrics.addOutcome cycle (.error (.document error))⟩

/-- What a worker is in the middle of belongs to its cycle in hand. -/
def Worker.Fits (workload : Workload) (seed : Nat) (worker : Worker) : Prop :=
  match worker.stage with
  | .idle => True
  | .holding index _ emission => ∃ cycle rest step, worker.todo = cycle :: rest ∧
      workload.resolve seed cycle = .ok step ∧ index = step.file ∧ emission = step.emission
  | .leaving _ => True
  | .closing _ => False

/-- A worker takes no step any more: its share is done, or the next cycle of it ends its work. -/
def Worker.IsOver (workload : Workload) (seed : Nat) (worker : Worker) : Prop :=
  worker.stage = .idle ∧ ∀ cycle ∈ worker.todo.head?, workload.Overflows seed cycle

/-- What is told by a worker who takes no step any more: what came of its cycles, unless its work was
ended. -/
def Worker.work (worker : Worker) : Except CycleError Metrics :=
  if worker.todo = [] then .ok worker.metrics else .error .overflow

/-- How many steps a worker has still to take at most. -/
def Worker.remaining (worker : Worker) : Nat :=
  3 * worker.todo.length +
    match worker.stage with
    | .idle => 2
    | .holding _ _ _ => 1
    | .leaving _ => 3
    | .closing _ => 0

namespace MountedSet

variable {workload : Workload} {seed cycle : Nat} {mounted : MountedSet}

/-- A cycle that ends the work of its worker leaves the set as it is. -/
theorem runCycle_of_overflows (h : workload.Overflows seed cycle) :
    runCycle workload seed cycle mounted = (.error .overflow, mounted) := by
  rw [runCycle, h]

/-- A cycle that does not end the work of its worker fails with no error that does. -/
theorem isFatal_of_runCycle (h : ¬ workload.Overflows seed cycle) {error : CycleError}
    {left : MountedSet} (hrun : runCycle workload seed cycle mounted = (.error error, left)) :
    error.isFatal = false := by
  unfold runCycle at hrun
  split at hrun
  · next found hresolve =>
    cases hrun
    rw [Bool.eq_false_iff]
    rintro hfatal
    rw [Workload.eq_overflow_of_isFatal hfatal] at hresolve
    exact h hresolve
  · next step _ =>
    rcases happly : apply step mounted with ⟨failure | ⟨⟩, after⟩
    · rw [happly] at hrun
      cases hrun
      rfl
    · rw [happly] at hrun
      cases hrun

/-- The work goes on behind a cycle that does not end it. -/
theorem runCycles_cons (h : ¬ workload.Overflows seed cycle) (rest : List Nat)
    (metrics : Metrics) (mounted : MountedSet) :
    runCycles workload seed (cycle :: rest) metrics mounted =
      runCycles workload seed rest
        (metrics.addOutcome cycle (runCycle workload seed cycle mounted).1)
        (runCycle workload seed cycle mounted).2 := by
  rw [runCycles]
  rcases hrun : runCycle workload seed cycle mounted with ⟨error | ⟨⟩, left⟩
  · show (if error.isFatal = true then _ else _) = _
    rw [isFatal_of_runCycle h hrun]
    rfl
  · rfl

/-- Nothing is told of the cycles any more once the work of a worker was ended. -/
theorem foldl_mergeWork_error (error : CycleError) (all : List (Except CycleError Metrics)) :
    all.foldl mergeWork (.error error) = .error error := by
  induction all with
  | nil => rfl
  | cons own rest ih => exact ih

/-- What is told of the cycles of all workers is what came of them, unless the work of one of them was
ended. -/
theorem foldl_mergeWork (workers : List Worker) (first : Metrics) :
    (workers.map Worker.work).foldl mergeWork (.ok first) =
      if ∀ worker ∈ workers, worker.todo = [] then
        .ok ((workers.map Worker.metrics).foldl .merge first)
      else .error .overflow := by
  induction workers generalizing first with
  | nil => rfl
  | cons worker rest ih =>
    rw [List.map_cons, List.foldl_cons, List.map_cons, List.foldl_cons]
    by_cases hdone : worker.todo = []
    · have hmerge : mergeWork (.ok first) worker.work = .ok (first.merge worker.metrics) := by
        rw [Worker.work, if_pos hdone]
        rfl
      rw [hmerge, ih]
      simp only [List.forall_mem_cons, hdone, true_and]
    · have hmerge : mergeWork (.ok first) worker.work = .error .overflow := by
        rw [Worker.work, if_neg hdone]
        rfl
      rw [hmerge, foldl_mergeWork_error, if_neg fun hall => hdone (hall worker List.mem_cons_self)]

end MountedSet

namespace Crew

/-- The set of a crew with the workers as its callers. -/
def service (crew : Crew) : Service :=
  ⟨crew.mounted, crew.workers.map Worker.stage, crew.made, crew.log⟩

/-- The workers of a run before anything happens. -/
def start (range : CycleRange) (workers : Nat) (mounted : MountedSet) : Crew :=
  ⟨mounted, (List.range workers).map fun worker => ⟨range.cyclesOf workers worker, .idle, .none⟩,
    [], []⟩

/-- All cycles were carried out, and every worker has let its document go. -/
def IsDone (crew : Crew) : Prop := ∀ worker ∈ crew.workers, worker.todo = [] ∧ worker.stage = .idle

/-- No worker takes a step any more: each has done its share, or its work was ended. -/
def IsOver (workload : Workload) (seed : Nat) (crew : Crew) : Prop :=
  ∀ worker ∈ crew.workers, worker.IsOver workload seed

/-- What came of all cycles that were carried out. -/
def metrics (crew : Crew) : Metrics := (crew.workers.map Worker.metrics).foldl .merge .none

/-- What is told of the cycles when no worker takes a step any more: what came of them, unless the work
of a worker was ended. -/
def work (crew : Crew) : Except CycleError Metrics :=
  if ∀ worker ∈ crew.workers, worker.todo = [] then .ok crew.metrics else .error .overflow

/-- A worker between two rows of others cannot resolve the cycle in hand. -/
def skip (crew : Crew) (before after : List Worker) (cycle : Nat) (rest : List Nat)
    (metrics : Metrics) (error : CycleError) : Crew :=
  { crew with
    workers := before ++ ⟨rest, .idle, metrics.addOutcome cycle (.error error)⟩ :: after }

/-- A worker between two rows of others looks up the document of the cycle in hand. -/
def lookUp (crew : Crew) (before after : List Worker) (cycle : Nat) (rest : List Nat)
    (metrics : Metrics) (step : CycleStep) : Crew :=
  let outcome := (MountedSet.acquire step.file).run crew.mounted
  let growth := outcome.2.set.documents.size - crew.mounted.set.documents.size
  ⟨outcome.2, before ++ .afterLookUp cycle rest metrics step outcome.1 :: after,
    crew.made ++ List.replicate growth step.file, crew.log⟩

/-- A worker between two rows of others writes to the document that it looked up. -/
def write (crew : Crew) (before after : List Worker) (cycle : Nat) (rest : List Nat)
    (metrics : Metrics) (index number : Nat) (emission : Emission) : Crew :=
  let outcome := (MountedSet.emitTo number emission.path emission.template).run crew.mounted
  let metrics := metrics.addOutcome cycle (outcome.1.mapError .document)
  ⟨outcome.2, before ++ ⟨rest, .leaving number, metrics⟩ :: after, crew.made,
    crew.log ++ [⟨index, emission, outcome.1⟩]⟩

/-- A worker between two rows of others lets its document go. -/
def leave (crew : Crew) (before after : List Worker) (todo : List Nat) (metrics : Metrics)
    (number : Nat) : Crew :=
  { crew with
    mounted := crew.mounted.release number
    workers := before ++ ⟨todo, .idle, metrics⟩ :: after }

/-- One step of one worker.  There is none for a cycle that ends the work of its worker. -/
inductive Step (workload : Workload) (seed : Nat) : Crew → Crew → Prop where
  | skip {crew : Crew} {before after : List Worker} {cycle : Nat} {rest : List Nat}
      {metrics : Metrics} {error : CycleError}
      (h : crew.workers = before ++ ⟨cycle :: rest, .idle, metrics⟩ :: after)
      (hresolve : workload.resolve seed cycle = .error error) (hmild : error.isFatal = false) :
      Step workload seed crew (crew.skip before after cycle rest metrics error)
  | lookUp {crew : Crew} {before after : List Worker} {cycle : Nat} {rest : List Nat}
      {metrics : Metrics} {step : CycleStep}
      (h : crew.workers = before ++ ⟨cycle :: rest, .idle, metrics⟩ :: after)
      (hresolve : workload.resolve seed cycle = .ok step) :
      Step workload seed crew (crew.lookUp before after cycle rest metrics step)
  | write {crew : Crew} {before after : List Worker} {cycle : Nat} {rest : List Nat}
      {metrics : Metrics} {index number : Nat} {emission : Emission}
      (h : crew.workers =
        before ++ ⟨cycle :: rest, .holding index number emission, metrics⟩ :: after) :
      Step workload seed crew
        (crew.write before after cycle rest metrics index number emission)
  | leave {crew : Crew} {before after : List Worker} {todo : List Nat} {metrics : Metrics}
      {number : Nat} (h : crew.workers = before ++ ⟨todo, .leaving number, metrics⟩ :: after) :
      Step workload seed crew (crew.leave before after todo metrics number)

/-- What steps of the workers lead to, in any order. -/
abbrev Reaches (workload : Workload) (seed : Nat) : Crew → Crew → Prop :=
  Relation.ReflTransGen (Step workload seed)

variable {workload : Workload} {seed : Nat} {crew later : Crew}

/-- The callers of the set are what the workers are in the middle of. -/
theorem callers_eq {before after : List Worker} {worker : Worker}
    (h : crew.workers = before ++ worker :: after) :
    crew.service.callers = before.map Worker.stage ++ worker.stage :: after.map Worker.stage := by
  simp only [service, h, List.map_append, List.map_cons]

/-- Every step of a worker is one of a caller of the set, or none. -/
theorem Step.reaches (h : Step workload seed crew later) :
    Service.Reaches crew.service later.service := by
  cases h with
  | @skip before after cycle rest metrics error h hresolve hmild =>
    have hsame : (crew.skip before after cycle rest metrics error).service = crew.service := by
      simp [service, Crew.skip, h]
    rw [hsame]
  | @lookUp before after cycle rest metrics step h hresolve =>
    have hsame : (crew.lookUp before after cycle rest metrics step).service =
        crew.service.lookUp (before.map Worker.stage) (after.map Worker.stage) step.file
          step.emission := by
      simp only [service, Crew.lookUp, Service.lookUp, List.map_append, List.map_cons]
      cases ((MountedSet.acquire step.file).run crew.mounted).1 <;> rfl
    rw [hsame]
    exact Relation.ReflTransGen.single (Service.Step.lookUp _ _ (callers_eq h))
  | @write before after cycle rest metrics index number emission h =>
    have hsame : (crew.write before after cycle rest metrics index number emission).service =
        crew.service.write (before.map Worker.stage) (after.map Worker.stage) index number
          emission := by
      simp [service, Crew.write, Service.write]
    rw [hsame]
    exact Relation.ReflTransGen.single (Service.Step.write (callers_eq h))
  | @leave before after todo metrics number h =>
    have hsame : (crew.leave before after todo metrics number).service =
        crew.service.leave (before.map Worker.stage) (after.map Worker.stage) number := by
      simp [service, Crew.leave, Service.leave]
    rw [hsame]
    exact Relation.ReflTransGen.single (Service.Step.leave (callers_eq h))

/-- What the workers do in any order is a run of the callers of the set. -/
theorem reaches_service (h : Reaches workload seed crew later) :
    Service.Reaches crew.service later.service := by
  induction h with
  | refl => exact .refl
  | tail _ hstep ih => exact ih.trans hstep.reaches

/-- A worker who is alone for a while carries out the cycle in hand, unless it ends its work. -/
theorem reaches_runCycle (workload : Workload) (seed : Nat) (crew : Crew)
    {before after : List Worker} {cycle : Nat} {rest : List Nat} {metrics : Metrics}
    (hgoes : ¬ workload.Overflows seed cycle)
    (h : crew.workers = before ++ ⟨cycle :: rest, .idle, metrics⟩ :: after) :
    let outcome := MountedSet.runCycle workload seed cycle crew.mounted
    ∃ later, Reaches workload seed crew later ∧
      later.workers = before ++ ⟨rest, .idle, metrics.addOutcome cycle outcome.1⟩ :: after ∧
      later.mounted = outcome.2 := by
  intro outcome
  cases hresolve : workload.resolve seed cycle with
  | error error =>
    have hmild : error.isFatal = false := by
      rw [Bool.eq_false_iff]
      intro hfatal
      rw [Workload.eq_overflow_of_isFatal hfatal] at hresolve
      exact hgoes hresolve
    have hskip : Step workload seed crew _ := Step.skip h hresolve hmild
    have houtcome : outcome = (.error error, crew.mounted) := by
      simp only [outcome, MountedSet.runCycle, hresolve]
    refine ⟨_, .single hskip, ?_, ?_⟩
    · rw [houtcome]
      rfl
    · rw [houtcome]
      rfl
  | ok step =>
    have hlook : Step workload seed crew _ := Step.lookUp h hresolve
    let emission := step.emission
    let emitted := (MountedSet.emit step.file emission.path emission.template).run crew.mounted
    have houtcome : outcome = (emitted.1.mapError .document, emitted.2) := by
      simp only [outcome, MountedSet.runCycle, hresolve]
      rfl
    rcases hacquire : (MountedSet.acquire step.file).run crew.mounted with ⟨error | number, left⟩
    · have hemitted : emitted = (.error error, left) := MountedSet.run_emit_of_error hacquire emission
      refine ⟨_, .single hlook, ?_, ?_⟩
      · rw [houtcome, hemitted]
        simp only [lookUp, hacquire]
        rfl
      · rw [houtcome, hemitted]
        simp only [lookUp, hacquire]
    · have hemitted := MountedSet.run_emit_of_ok hacquire emission
      change emitted = _ at hemitted
      let looked := crew.lookUp before after cycle rest metrics step
      have hmounted : looked.mounted = left := by simp only [looked, lookUp, hacquire]
      -- between the three steps nobody else does anything
      have hworkers : looked.workers =
          before ++ ⟨cycle :: rest, .holding step.file number emission, metrics⟩ :: after := by
        simp only [looked, lookUp, hacquire]
        rfl
      have hwrite : Step workload seed looked _ := Step.write hworkers
      have hleave : Step workload seed
          (looked.write before after cycle rest metrics step.file number emission) _ :=
        Step.leave rfl
      refine ⟨_, ((Relation.ReflTransGen.single hlook).tail hwrite).tail hleave, ?_, ?_⟩
      · rw [houtcome, hemitted, ← hmounted]
        rfl
      · rw [houtcome, hemitted, ← hmounted]
        rfl

/-- A worker who is alone for a while carries out its cycles up to the one that ends its work. -/
theorem reaches_runCycles (workload : Workload) (seed : Nat) (todo : List Nat) (crew : Crew)
    {before after : List Worker} {metrics : Metrics}
    (h : crew.workers = before ++ ⟨todo, .idle, metrics⟩ :: after) :
    let outcome := MountedSet.runCycles workload seed todo metrics crew.mounted
    ∃ later worker, Reaches workload seed crew later ∧
      later.workers = before ++ worker :: after ∧ worker.IsOver workload seed ∧
      outcome = (worker.work, later.mounted) := by
  induction todo generalizing crew metrics with
  | nil => exact ⟨crew, _, .refl, h, ⟨rfl, nofun⟩, rfl⟩
  | cons cycle rest ih =>
    by_cases hends : workload.Overflows seed cycle
    · refine ⟨crew, _, .refl, h, ⟨rfl, ?_⟩, ?_⟩
      · intro next hnext
        cases hnext
        exact hends
      · rw [MountedSet.runCycles, MountedSet.runCycle_of_overflows hends]
        rfl
    · obtain ⟨next, hfirst, hworkers, hmounted⟩ := reaches_runCycle workload seed crew hends h
      obtain ⟨later, worker, hothers, hworkers', hover, houtcome⟩ := ih next hworkers
      refine ⟨later, worker, hfirst.trans hothers, hworkers', hover, ?_⟩
      rw [MountedSet.runCycles_cons hends, ← hmounted]
      exact houtcome

/-- Workers may carry out their cycles one worker after the other. -/
theorem reaches_runWorkers (workload : Workload) (range : CycleRange) (workers : Nat)
    (numbers : List Nat) (crew : Crew) (work : Except CycleError Metrics) {before : List Worker}
    (h : crew.workers = before ++
      numbers.map fun worker => ⟨range.cyclesOf workers worker, .idle, .none⟩) :
    ∃ later ends, Reaches workload range.seed crew later ∧ later.workers = before ++ ends ∧
      (∀ worker ∈ ends, worker.IsOver workload range.seed) ∧
      MountedSet.runWorkers workload range workers numbers work crew.mounted =
        ((ends.map Worker.work).foldl MountedSet.mergeWork work, later.mounted) := by
  induction numbers generalizing crew before work with
  | nil => exact ⟨crew, [], .refl, h, by simp, rfl⟩
  | cons worker rest ih =>
    obtain ⟨next, own, hfirst, hworkers, hover, hown⟩ :=
      reaches_runCycles workload range.seed _ crew h
    rw [List.append_cons] at hworkers
    obtain ⟨later, ends, hothers, hworkers', hends, hrun⟩ :=
      ih next (MountedSet.mergeWork work own.work) hworkers
    refine ⟨later, own :: ends, hfirst.trans hothers, ?_, List.forall_mem_cons.2 ⟨hover, hends⟩, ?_⟩
    · rw [hworkers', List.append_assoc]
      rfl
    · rw [MountedSet.runWorkers, hown]
      exact hrun

/-- Populating a set worker by worker is one of the orders in which the steps of its workers can
fall. -/
theorem reaches_populate (workload : Workload) (range : CycleRange) (workers : Nat)
    (mounted : MountedSet) :
    ∃ later, Reaches workload range.seed (start range workers mounted) later ∧
      later.IsOver workload range.seed ∧
      MountedSet.populate workload range workers mounted = (later.work, later.mounted) := by
  obtain ⟨later, ends, hreaches, hworkers, hends, hrun⟩ :=
    reaches_runWorkers workload range workers (List.range workers) (start range workers mounted)
      (.ok .none) (List.nil_append _).symm
  rw [List.nil_append] at hworkers
  refine ⟨later, hreaches, ?_, ?_⟩
  · unfold IsOver
    rw [hworkers]
    exact hends
  · unfold work metrics
    rw [hworkers, ← MountedSet.foldl_mergeWork]
    exact hrun

/-- What every worker is in the middle of belongs to its cycle in hand. -/
def Fits (workload : Workload) (seed : Nat) (crew : Crew) : Prop :=
  ∀ worker ∈ crew.workers, worker.Fits workload seed

/-- Before anything happens no worker is in the middle of something. -/
theorem fits_start (range : CycleRange) (workers : Nat) (mounted : MountedSet) :
    Fits workload range.seed (start range workers mounted) := by
  intro worker hworker
  obtain ⟨number, -, rfl⟩ := List.mem_map.1 hworker
  trivial

/-- Every step leaves each worker at its cycle in hand. -/
theorem Fits.step (h : Fits workload seed crew) (hstep : Step workload seed crew later) :
    Fits workload seed later := by
  unfold Fits at h
  cases hstep with
  | @skip before after cycle rest metrics error hworkers hresolve hmild =>
    rw [hworkers] at h
    exact forall_replace h trivial
  | @lookUp before after cycle rest metrics step hworkers hresolve =>
    rw [hworkers] at h
    apply forall_replace h
    cases ((MountedSet.acquire step.file).run crew.mounted).1 with
    | error error => trivial
    | ok number => exact ⟨cycle, rest, step, rfl, hresolve, rfl, rfl⟩
  | @write before after cycle rest metrics index number emission hworkers =>
    rw [hworkers] at h
    exact forall_replace h trivial
  | @leave before after todo metrics number hworkers =>
    rw [hworkers] at h
    exact forall_replace h trivial

/-- A worker that holds a document holds what its cycle in hand resolves to. -/
theorem Fits.of_holding (h : Fits workload seed crew) {before after : List Worker} {cycle : Nat}
    {rest : List Nat} {index number : Nat} {emission : Emission} {metrics : Metrics}
    (hworkers : crew.workers =
      before ++ ⟨cycle :: rest, .holding index number emission, metrics⟩ :: after) :
    ∃ step, workload.resolve seed cycle = .ok step ∧ index = step.file ∧
      emission = step.emission := by
  obtain ⟨cycle', rest', step, hhand, hresolve, hindex, hemission⟩ :=
    h ⟨cycle :: rest, .holding index number emission, metrics⟩ (by simp [hworkers])
  obtain ⟨rfl, rfl⟩ := List.cons.inj hhand
  exact ⟨step, hresolve, hindex, hemission⟩

/-- As long as the work is not over some worker can take a step. -/
theorem exists_step (h : Fits workload seed crew) (hmore : ¬ crew.IsOver workload seed) :
    ∃ later, Step workload seed crew later := by
  unfold IsOver at hmore
  push Not at hmore
  obtain ⟨worker, hworker, hbusy⟩ := hmore
  have hfits := h worker hworker
  obtain ⟨before, after, hworkers⟩ := List.append_of_mem hworker
  obtain ⟨todo, stage, metrics⟩ := worker
  cases stage with
  | idle =>
    cases todo with
    | nil => exact absurd ⟨rfl, nofun⟩ hbusy
    | cons cycle rest =>
      cases hresolve : workload.resolve seed cycle with
      | error error =>
        refine ⟨_, Step.skip hworkers hresolve (Bool.eq_false_iff.2 fun hfatal => hbusy ⟨rfl, ?_⟩)⟩
        intro next hnext
        cases hnext
        rw [Workload.eq_overflow_of_isFatal hfatal] at hresolve
        exact hresolve
      | ok step => exact ⟨_, Step.lookUp hworkers hresolve⟩
  | holding index number emission =>
    obtain ⟨cycle, rest, step, htodo, -⟩ := hfits
    change todo = cycle :: rest at htodo
    rw [htodo] at hworkers
    exact ⟨_, Step.write hworkers⟩
  | leaving number => exact ⟨_, Step.leave hworkers⟩
  | closing entries => exact hfits.elim

/-- How many steps the workers have still to take at most. -/
def remaining (crew : Crew) : Nat := (crew.workers.map Worker.remaining).sum

/-- A count over all workers changes by what it changes for the one that was replaced. -/
theorem sum_replace (count : Worker → Nat) {before after : List Worker} {worker worker' : Worker}
    (h : crew.workers = before ++ worker :: after)
    (hlater : later.workers = before ++ worker' :: after) :
    (later.workers.map count).sum + count worker =
      (crew.workers.map count).sum + count worker' := by
  rw [h, hlater]
  simp only [List.map_append, List.map_cons, List.sum_append, List.sum_cons]
  omega

/-- Every step leaves fewer steps to take. -/
theorem remaining_step (hstep : Step workload seed crew later) :
    later.remaining < crew.remaining := by
  have hreplace : ∀ {before after : List Worker} {worker worker' : Worker},
      crew.workers = before ++ worker :: after → later.workers = before ++ worker' :: after →
        worker'.remaining < worker.remaining → later.remaining < crew.remaining := by
    intro before after worker worker' hworkers hlater hless
    have hsum := sum_replace Worker.remaining hworkers hlater
    unfold remaining
    omega
  cases hstep with
  | @skip before after cycle rest metrics error hworkers hresolve hmild =>
    apply hreplace hworkers rfl
    simp only [Worker.remaining, List.length_cons]
    omega
  | @lookUp before after cycle rest metrics step hworkers hresolve =>
    apply hreplace hworkers rfl
    cases ((MountedSet.acquire step.file).run crew.mounted).1 <;>
      simp only [Worker.afterLookUp, Worker.remaining, List.length_cons] <;> omega
  | @write before after cycle rest metrics index number emission hworkers =>
    apply hreplace hworkers rfl
    simp only [Worker.remaining, List.length_cons]
    omega
  | @leave before after todo metrics number hworkers =>
    apply hreplace hworkers rfl
    simp only [Worker.remaining]
    omega

/-- Whatever the workers have done so far, their work comes to an end. -/
theorem exists_over (h : Fits workload seed crew) :
    ∃ later, Reaches workload seed crew later ∧ later.IsOver workload seed := by
  -- every step leaves fewer to take, whichever worker takes it
  induction hremaining : crew.remaining using Nat.strongRecOn generalizing crew with
  | ind count ih =>
    by_cases hover : crew.IsOver workload seed
    · exact ⟨crew, .refl, hover⟩
    · obtain ⟨next, hstep⟩ := exists_step h hover
      have hless := remaining_step hstep
      rw [hremaining] at hless
      obtain ⟨later, hreaches, hend⟩ := ih next.remaining hless (h.step hstep) rfl
      exact ⟨later, .head hstep hreaches, hend⟩

/-- The workers are at cycles of a range, and those of them that end the work of a worker are still
to be carried out. -/
structure Pending (workload : Workload) (range : CycleRange) (crew : Crew) : Prop where
  todo : ∀ worker ∈ crew.workers, ∀ cycle ∈ worker.todo, cycle ∈ range.cycles
  kept : ∀ cycle ∈ range.cycles, workload.Overflows range.seed cycle →
    cycle ∈ crew.workers.flatMap Worker.todo

/-- What is to do is still to do when one worker was replaced by one who has it to do if the other
had. -/
theorem mem_todo_replace {before after : List Worker} {worker worker' : Worker} {cycle : Nat}
    (hkept : cycle ∈ worker.todo → cycle ∈ worker'.todo)
    (h : cycle ∈ (before ++ worker :: after).flatMap Worker.todo) :
    cycle ∈ (before ++ worker' :: after).flatMap Worker.todo := by
  simp only [List.flatMap_append, List.flatMap_cons, List.mem_append] at h ⊢
  exact h.imp_right fun h => h.imp_left hkept

namespace Pending

variable {range : CycleRange}

/-- A worker may be replaced by one that has the same to do, or has carried out a cycle that does not
end its work. -/
theorem replace (h : Pending workload range crew) {before after : List Worker}
    {worker worker' : Worker} (hworkers : crew.workers = before ++ worker :: after)
    (hlater : later.workers = before ++ worker' :: after)
    (htodo : ∀ cycle ∈ worker'.todo, cycle ∈ worker.todo)
    (hkept : ∀ cycle ∈ worker.todo, workload.Overflows range.seed cycle → cycle ∈ worker'.todo) :
    Pending workload range later := by
  have hbefore := h.todo
  rw [hworkers] at hbefore
  refine ⟨?_, ?_⟩
  · rw [hlater]
    exact forall_replace hbefore fun cycle hcycle =>
      hbefore worker (by simp) cycle (htodo cycle hcycle)
  · intro cycle hcycle hoverflows
    have hmem := h.kept cycle hcycle hoverflows
    rw [hworkers] at hmem
    rw [hlater]
    exact mem_todo_replace (fun hown => hkept cycle hown hoverflows) hmem

/-- Every step of a worker leaves the cycles to be carried out that end somebody's work. -/
theorem step (h : Pending workload range crew) (hfits : Fits workload range.seed crew)
    (hstep : Step workload range.seed crew later) : Pending workload range later := by
  -- the cycle that goes is none that ends the work of the worker
  have hcons : ∀ {cycle : Nat} {rest : List Nat}, ¬ workload.Overflows range.seed cycle →
      ∀ other ∈ cycle :: rest, workload.Overflows range.seed other → other ∈ rest := by
    intro cycle rest hgoes other hother hoverflows
    rcases List.mem_cons.1 hother with rfl | hrest
    · exact absurd hoverflows hgoes
    · exact hrest
  cases hstep with
  | @skip before after cycle rest metrics error hworkers hresolve hmild =>
    exact h.replace hworkers rfl (fun _ => List.mem_cons_of_mem _)
      (hcons (Workload.not_overflows_of_error hresolve hmild))
  | @lookUp before after cycle rest metrics step hworkers hresolve =>
    apply h.replace hworkers rfl
    · intro other hother
      cases hrun : ((MountedSet.acquire step.file).run crew.mounted).1 with
      | error error =>
        rw [hrun] at hother
        exact List.mem_cons_of_mem _ hother
      | ok number =>
        rw [hrun] at hother
        exact hother
    · intro other hother hoverflows
      cases ((MountedSet.acquire step.file).run crew.mounted).1 with
      | error error =>
        exact hcons (Workload.not_overflows_of_resolve hresolve) other hother hoverflows
      | ok number => exact hother
  | @write before after cycle rest metrics index number emission hworkers =>
    obtain ⟨step, hresolve, -⟩ := hfits.of_holding hworkers
    exact h.replace hworkers rfl (fun _ => List.mem_cons_of_mem _)
      (hcons (Workload.not_overflows_of_resolve hresolve))
  | @leave before after todo metrics number hworkers =>
    exact h.replace hworkers rfl (fun _ hother => hother) fun _ hother _ => hother

/-- When no worker takes a step any more, all cycles were carried out if none of them ends the work of
its worker, and only then. -/
theorem isDone_iff (h : Pending workload range crew) (hover : crew.IsOver workload range.seed) :
    crew.IsDone ↔ ∀ cycle ∈ range.cycles, ¬ workload.Overflows range.seed cycle := by
  constructor
  · intro hdone cycle hcycle hoverflows
    obtain ⟨worker, hworker, htodo⟩ := List.mem_flatMap.1 (h.kept cycle hcycle hoverflows)
    rw [(hdone worker hworker).1] at htodo
    cases htodo
  · intro hnone worker hworker
    obtain ⟨hidle, hhead⟩ := hover worker hworker
    refine ⟨?_, hidle⟩
    cases htodo : worker.todo with
    | nil => rfl
    | cons cycle rest =>
      have hcycle := h.todo worker hworker cycle (by simp [htodo])
      exact absurd (hhead cycle (by simp [htodo])) (hnone cycle hcycle)

end Pending

/-- In whatever order the workers take their steps, each is at its cycle in hand. -/
theorem Fits.reaches (h : Fits workload seed crew) (hreaches : Reaches workload seed crew later) :
    Fits workload seed later := by
  induction hreaches with
  | refl => exact h
  | tail _ hstep ih => exact ih.step hstep

/-- In whatever order the workers take their steps, the cycles are still to be carried out that end
somebody's work. -/
theorem Pending.reaches {range : CycleRange} (h : Pending workload range crew)
    (hfits : Fits workload range.seed crew) (hreaches : Reaches workload range.seed crew later) :
    Pending workload range later := by
  induction hreaches with
  | refl => exact h
  | tail hbefore hstep ih => exact ih.step (hfits.reaches hbefore) hstep

/-- Before anything happens the workers have the cycles of the range to carry out. -/
theorem todo_start (range : CycleRange) (workers : Nat) (mounted : MountedSet) :
    (start range workers mounted).workers.flatMap Worker.todo =
      (List.range workers).flatMap (range.cyclesOf workers) := by
  simp [start, List.flatMap_map]

/-- Before anything happens all cycles are still to be carried out. -/
theorem pending_start {range : CycleRange} {workers : Nat} (hworkers : 0 < workers)
    (mounted : MountedSet) : Pending workload range (start range workers mounted) := by
  have hcycles : ∀ cycle, cycle ∈ (start range workers mounted).workers.flatMap Worker.todo ↔
      cycle ∈ range.cycles := by
    intro cycle
    rw [todo_start, (range.cyclesOf_perm hworkers).mem_iff]
  exact ⟨fun worker hworker cycle hcycle =>
      (hcycles cycle).1 (List.mem_flatMap.2 ⟨worker, hworker, hcycle⟩),
    fun cycle hcycle _ => (hcycles cycle).2 hcycle⟩

/-- When the work of a run is over, all its cycles were carried out if none of them ends the work of its
worker, and only then. -/
theorem isDone_iff_of_start (range : CycleRange) {workers : Nat} (hworkers : 0 < workers)
    {mounted : MountedSet} (hreaches : Reaches workload range.seed (start range workers mounted) crew)
    (hover : crew.IsOver workload range.seed) :
    crew.IsDone ↔ ∀ cycle ∈ range.cycles, ¬ workload.Overflows range.seed cycle :=
  ((pending_start hworkers mounted).reaches (fits_start range workers mounted) hreaches).isDone_iff
    hover

/-- A crew that is done tells what came of all cycles. -/
theorem work_of_isDone (h : crew.IsDone) : crew.work = .ok crew.metrics :=
  if_pos fun worker hworker => (h worker hworker).1

/-- A crew that is done takes no step any more. -/
theorem IsDone.isOver (h : crew.IsDone) : crew.IsOver workload seed := by
  intro worker hworker
  obtain ⟨htodo, hidle⟩ := h worker hworker
  refine ⟨hidle, ?_⟩
  rw [htodo]
  nofun

/-- A crew that takes no step any more and is not done tells nothing of its cycles. -/
theorem work_of_not_isDone (hover : crew.IsOver workload seed) (h : ¬ crew.IsDone) :
    crew.work = .error .overflow :=
  if_neg fun hall => h fun worker hworker => ⟨hall worker hworker, (hover worker hworker).1⟩

/-- A crew whose work is over tells something only if it is done. -/
theorem work_eq_ok_iff {metrics : Metrics} (hover : crew.IsOver workload seed) :
    crew.work = .ok metrics ↔ crew.IsDone ∧ crew.metrics = metrics := by
  unfold work
  split
  · next hall =>
    have hdone : crew.IsDone := fun worker hworker => ⟨hall worker hworker, (hover worker hworker).1⟩
    simp [hdone]
  · next hsome =>
    have hnot : ¬ crew.IsDone := fun hdone => hsome fun worker hworker => (hdone worker hworker).1
    simp [hnot]

end Crew

end XmlWorkload
