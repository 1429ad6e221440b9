import Mathlib.Data.List.Flatten
import Mathlib.Data.List.Induction
import XmlWorkload.Proofs.Run.Shares

/-!
# The failures that are told

Each worker keeps the messages of its first failures, and when the workers are done what they have
kept is put together, worker after worker, with no more messages than one worker keeps.  Nothing
that should be told is lost by keeping less along the way: counting some cycles and then others is
counting all of them (`Metrics.ofOutcomes_append`).  Main statement: what a run tells is what one
would tell who knew the outcomes of all cycles, those of the first worker in front
(`Crew.told_of_outcomes`).
-/

set_option autoImplicit false

namespace XmlWorkload

/-- What came of a cycle that a worker carried out. -/
structure CycleOutcome where
  /-- The number of the worker. -/
  worker : Nat
  cycle : Nat
  result : Except CycleError Unit

namespace CycleOutcome

/-- The message of a cycle that failed. -/
def message? (outcome : CycleOutcome) : Option String :=
  match outcome.result with
  | .ok () => none
  | .error error => some (MountedSet.failureMessage outcome.cycle error)

/-- The outcomes of one worker. -/
def ofWorker (worker : Nat) (log : List CycleOutcome) : List CycleOutcome :=
  log.filter fun outcome => outcome.worker = worker

/-- The outcomes of so many workers, worker after worker. -/
def ofWorkers (workers : Nat) (log : List CycleOutcome) : List CycleOutcome :=
  (List.range workers).flatMap fun worker => ofWorker worker log

/-- The outcomes of a worker in two logs are those in the first and those in the second. -/
theorem ofWorker_append (worker : Nat) (log outcomes : List CycleOutcome) :
    ofWorker worker (log ++ outcomes) = ofWorker worker log ++ ofWorker worker outcomes :=
  List.filter_append _ _

/-- All outcomes of one worker are its own. -/
theorem ofWorker_eq_self {worker : Nat} {outcomes : List CycleOutcome}
    (h : ∀ outcome ∈ outcomes, outcome.worker = worker) : ofWorker worker outcomes = outcomes := by
  apply List.filter_eq_self.2
  intro outcome houtcome
  exact decide_eq_true (h outcome houtcome)

/-- Of the outcomes of another worker none is its own. -/
theorem ofWorker_eq_nil {worker other : Nat} {outcomes : List CycleOutcome}
    (h : ∀ outcome ∈ outcomes, outcome.worker = other) (hne : worker ≠ other) :
    ofWorker worker outcomes = [] := by
  apply List.filter_eq_nil_iff.2
  intro outcome houtcome
  rw [h outcome houtcome, decide_eq_true_iff]
  exact hne.symm

end CycleOutcome

namespace Metrics

/-- The counts are words of 64 bits. -/
structure InWords (metrics : Metrics) : Prop where
  attempted_lt : metrics.attempted < 2 ^ 64
  emitted_lt : metrics.emitted < 2 ^ 64
  failures_lt : metrics.failures < 2 ^ 64

/-- What came of some cycles and of those with these outcomes. -/
def addOutcomes (metrics : Metrics) (outcomes : List CycleOutcome) : Metrics :=
  outcomes.foldl (fun metrics outcome => metrics.addOutcome outcome.cycle outcome.result) metrics

/-- What came of cycles with these outcomes. -/
def ofOutcomes (outcomes : List CycleOutcome) : Metrics := Metrics.none.addOutcomes outcomes

/-- Adding outcomes to those counted is counting all of them. -/
theorem addOutcomes_ofOutcomes (first second : List CycleOutcome) :
    (ofOutcomes first).addOutcomes second = ofOutcomes (first ++ second) :=
  List.foldl_append.symm

/-- Keeping a message as long as there is room is keeping the first ones. -/
theorem take_concat (limit : Nat) (messages : List String) (message : String) :
    (if (messages.take limit).length < limit then messages.take limit ++ [message]
      else messages.take limit) = (messages ++ [message]).take limit := by
  rw [List.length_take]
  split
  · rw [List.take_of_length_le (by omega), List.take_of_length_le]
    rw [List.length_append, List.length_singleton]
    omega
  · rw [List.take_append_of_le_length (by omega)]

/-- Keeping the first messages of some and then, as long as there is room, the first ones of others
is keeping the first ones of all. -/
theorem take_append_take (limit : Nat) (first second : List String) :
    first.take limit ++ (second.take limit).take (limit - (first.take limit).length) =
      (first ++ second).take limit := by
  rw [List.take_append, List.take_take, List.length_take]
  congr 2
  omega

/-- All cycles are counted, and the first messages are kept. -/
theorem ofOutcomes_eq (outcomes : List CycleOutcome) :
    ofOutcomes outcomes =
      ⟨outcomes.length, outcomes.countP fun outcome => outcome.result.isOk,
        outcomes.countP fun outcome => !outcome.result.isOk,
        (outcomes.filterMap CycleOutcome.message?).take messageLimit⟩ := by
  induction outcomes using List.reverseRecOn with
  | nil => rfl
  | append_singleton outcomes outcome ih =>
    obtain ⟨worker, cycle, result⟩ := outcome
    rw [← addOutcomes_ofOutcomes, ih, addOutcomes, List.foldl_cons, List.foldl_nil]
    rcases result with error | ⟨⟩
    · simp only [addOutcome, addFailure, take_concat, List.length_append, List.countP_append,
        List.filterMap_append]
      rfl
    · have hnone : [⟨worker, cycle, .ok ()⟩].filterMap CycleOutcome.message? = [] := rfl
      simp only [addOutcome, addSuccess, List.length_append, List.countP_append,
        List.filterMap_append, hnone, List.append_nil]
      rfl

/-- Putting together what came of some cycles and of others is counting all of them. -/
theorem ofOutcomes_append (first second : List CycleOutcome) :
    ofOutcomes (first ++ second) = (ofOutcomes first).merge (ofOutcomes second) := by
  simp only [ofOutcomes_eq, merge, List.length_append, List.countP_append, List.filterMap_append,
    take_append_take]

/-- There is one message for each failure. -/
theorem failures_ofOutcomes (outcomes : List CycleOutcome) :
    (ofOutcomes outcomes).failures = (outcomes.filterMap CycleOutcome.message?).length := by
  rw [ofOutcomes_eq, List.length_filterMap_eq_countP]
  apply List.countP_congr
  rintro ⟨worker, cycle, error | ⟨⟩⟩ - <;> rfl

/-- Every cycle that is counted wrote its element or failed. -/
theorem attempted_ofOutcomes (outcomes : List CycleOutcome) :
    (ofOutcomes outcomes).attempted =
      (ofOutcomes outcomes).emitted + (ofOutcomes outcomes).failures := by
  have hsplit := outcomes.length_eq_countP_add_countP fun outcome => outcome.result.isOk
  simp only [Bool.not_eq_true, Bool.decide_eq_false] at hsplit
  rw [ofOutcomes_eq]
  exact hsplit

/-- Fewer outcomes than there are words are counted within words. -/
theorem inWords_ofOutcomes {outcomes : List CycleOutcome} (h : outcomes.length < 2 ^ 64) :
    (ofOutcomes outcomes).InWords := by
  have hbalance := attempted_ofOutcomes outcomes
  have hattempted : (ofOutcomes outcomes).attempted = outcomes.length := by rw [ofOutcomes_eq]
  exact ⟨by omega, by omega, by omega⟩

/-- Merging what was counted worker by worker is counting all outcomes in that order. -/
theorem foldl_merge_ofOutcomes (all : List (List CycleOutcome)) (first : List CycleOutcome) :
    (all.map ofOutcomes).foldl .merge (ofOutcomes first) = ofOutcomes (first ++ all.flatten) := by
  induction all generalizing first with
  | nil => rw [List.flatten_nil, List.append_nil]; rfl
  | cons outcomes rest ih =>
    rw [List.map_cons, List.foldl_cons, ← ofOutcomes_append, ih, List.flatten_cons,
      List.append_assoc]

end Metrics

/-- The cycle in hand comes to an end if its document cannot be looked up. -/
def CycleOutcome.ofLookUp (worker cycle : Nat) : Except Error Nat → List CycleOutcome
  | .ok _ => []
  | .error error => [⟨worker, cycle, .error (.document error)⟩]

namespace Crew

/-- One step with the outcomes of the cycles that come to an end by it: one of a worker, or whatever
somebody else does to the set and to the disk. -/
inductive Yields (workload : Workload) (seed : Nat) :
    Crew → List CycleOutcome → Crew → Prop where
  | skip {crew : Crew} {before after : List Worker} {cycle : Nat} {rest : List Nat}
      {metrics : Metrics} {error : CycleError}
      (h : crew.workers = before ++ ⟨cycle :: rest, .idle, metrics⟩ :: after)
      (hresolve : workload.resolve seed cycle = .error error) (hmild : error.isFatal = false) :
      Yields workload seed crew [⟨before.length, cycle, .error error⟩]
        (crew.skip before after cycle rest metrics error)
  | lookUp {crew : Crew} {before after : List Worker} {cycle : Nat} {rest : List Nat}
      {metrics : Metrics} {step : CycleStep}
      (h : crew.workers = before ++ ⟨cycle :: rest, .idle, metrics⟩ :: after)
      (hresolve : workload.resolve seed cycle = .ok step) :
      Yields workload seed crew
        (CycleOutcome.ofLookUp before.length cycle
          ((MountedSet.acquire step.file).run crew.mounted).1)
        (crew.lookUp before after cycle rest metrics step)
  | write {crew : Crew} {before after : List Worker} {cycle : Nat} {rest : List Nat}
      {metrics : Metrics} {index number : Nat} {emission : Emission}
      (h : crew.workers =
        before ++ ⟨cycle :: rest, .holding index number emission, metrics⟩ :: after) :
      Yields workload seed crew
        [⟨before.length, cycle,
          ((MountedSet.emitTo number emission.path emission.template).run
            crew.mounted).1.mapError .document⟩]
        (crew.write before after cycle rest metrics index number emission)
  | leave {crew : Crew} {before after : List Worker} {todo : List Nat} {metrics : Metrics}
      {number : Nat} (h : crew.workers = before ++ ⟨todo, .leaving number, metrics⟩ :: after) :
      Yields workload seed crew [] (crew.leave before after todo metrics number)
  | outside {crew : Crew} (mounted : MountedSet) :
      Yields workload seed crew [] { crew with mounted := mounted }

/-- Steps one after the other with the outcomes of all cycles that come to an end by them. -/
inductive Runs (workload : Workload) (seed : Nat) (crew : Crew) :
    List CycleOutcome → Crew → Prop where
  | refl : Runs workload seed crew [] crew
  | tail {log outcomes : List CycleOutcome} {middle later : Crew}
      (h : Runs workload seed crew log middle)
      (hstep : Yields workload seed middle outcomes later) :
      Runs workload seed crew (log ++ outcomes) later

variable {workload : Workload} {seed : Nat} {range : CycleRange} {workers : Nat}
  {log outcomes : List CycleOutcome} {crew later : Crew}

/-- Every step yields outcomes. -/
theorem Step.yields (h : Step workload seed crew later) :
    ∃ outcomes, Yields workload seed crew outcomes later := by
  cases h with
  | skip h hresolve hmild => exact ⟨_, .skip h hresolve hmild⟩
  | lookUp h hresolve => exact ⟨_, .lookUp h hresolve⟩
  | write h => exact ⟨_, .write h⟩
  | leave h => exact ⟨_, .leave h⟩

/-- What the workers do in any order has a log of outcomes. -/
theorem Runs.of_reaches (h : Reaches workload seed crew later) :
    ∃ log, Runs workload seed crew log later := by
  induction h with
  | refl => exact ⟨[], .refl⟩
  | tail _ hstep ih =>
    obtain ⟨log, hruns⟩ := ih
    obtain ⟨outcomes, hyields⟩ := hstep.yields
    exact ⟨log ++ outcomes, hruns.tail hyields⟩

/-- Every worker of a crew has counted its outcomes, which are those of the first cycles of its
share, and has the other ones still to do. -/
structure Told (range : CycleRange) (workers : Nat) (log : List CycleOutcome) (crew : Crew) :
    Prop where
  length_eq : crew.workers.length = workers
  known : ∀ outcome ∈ log, outcome.worker < workers
  metrics_eq : ∀ (number : Nat) (worker : Worker), crew.workers[number]? = some worker →
    worker.metrics = .ofOutcomes (CycleOutcome.ofWorker number log)
  cycles_eq : ∀ (number : Nat) (worker : Worker), crew.workers[number]? = some worker →
    (CycleOutcome.ofWorker number log).map CycleOutcome.cycle ++ worker.todo =
      range.cyclesOf workers number

/-- A worker may be replaced by one that has counted outcomes of its next cycles. -/
theorem Told.replace (h : Told range workers log crew) {before after : List Worker}
    {worker worker' : Worker} (hworkers : crew.workers = before ++ worker :: after)
    (hlater : later.workers = before ++ worker' :: after)
    (hown : ∀ outcome ∈ outcomes, outcome.worker = before.length)
    (hmetrics : worker'.metrics = worker.metrics.addOutcomes outcomes)
    (htodo : worker.todo = outcomes.map CycleOutcome.cycle ++ worker'.todo) :
    Told range workers (log ++ outcomes) later := by
  have hworker : crew.workers[before.length]? = some worker := getElem?_own hworkers
  -- outcomes are only added for the worker that is replaced
  have hcases : ∀ (number : Nat) (other : Worker), later.workers[number]? = some other →
      (number = before.length ∧ other = worker' ∧
        CycleOutcome.ofWorker number (log ++ outcomes) =
          CycleOutcome.ofWorker number log ++ outcomes) ∨
      (crew.workers[number]? = some other ∧
        CycleOutcome.ofWorker number (log ++ outcomes) = CycleOutcome.ofWorker number log) := by
    intro number other hother
    rw [hlater] at hother
    rw [hworkers, CycleOutcome.ofWorker_append]
    rcases getElem?_replace worker hother with ⟨rfl, rfl⟩ | ⟨hnumber, hsame⟩
    · exact .inl ⟨rfl, rfl, congrArg _ (CycleOutcome.ofWorker_eq_self hown)⟩
    · rw [CycleOutcome.ofWorker_eq_nil hown hnumber, List.append_nil]
      exact .inr ⟨hsame, rfl⟩
  refine ⟨(length_replace hworkers hlater).trans h.length_eq, ?_, ?_, ?_⟩
  · intro outcome houtcome
    rcases List.mem_append.1 houtcome with hold | hnew
    · exact h.known outcome hold
    · rw [hown outcome hnew, ← h.length_eq]
      exact (List.getElem?_eq_some_iff.1 hworker).1
  · intro number other hother
    rcases hcases number other hother with ⟨rfl, rfl, hofWorker⟩ | ⟨hsame, hofWorker⟩
    · rw [hofWorker, hmetrics, h.metrics_eq _ worker hworker, Metrics.addOutcomes_ofOutcomes]
    · rw [hofWorker]
      exact h.metrics_eq number other hsame
  · intro number other hother
    rcases hcases number other hother with ⟨rfl, rfl, hofWorker⟩ | ⟨hsame, hofWorker⟩
    · rw [hofWorker, List.map_append, List.append_assoc, ← htodo]
      exact h.cycles_eq _ worker hworker
    · rw [hofWorker]
      exact h.cycles_eq number other hsame

/-- Every step leaves the outcomes counted. -/
theorem Told.step (h : Told range workers log crew)
    (hstep : Yields workload seed crew outcomes later) :
    Told range workers (log ++ outcomes) later := by
  cases hstep with
  | skip hworkers hresolve hmild =>
    exact h.replace hworkers rfl (by simp) rfl rfl
  | @lookUp before after cycle rest metrics step hworkers hresolve =>
    let outcome := (MountedSet.acquire step.file).run crew.mounted
    have hlater : (crew.lookUp before after cycle rest metrics step).workers =
        before ++ .afterLookUp cycle rest metrics step outcome.1 :: after := rfl
    cases hresult : outcome.1 with
    | error error =>
      rw [hresult] at hlater
      exact h.replace hworkers hlater (by simp [CycleOutcome.ofLookUp]) rfl rfl
    | ok number =>
      rw [hresult] at hlater
      exact h.replace hworkers hlater (by simp [CycleOutcome.ofLookUp]) rfl rfl
  | write hworkers =>
    exact h.replace hworkers rfl (by simp) rfl rfl
  | leave hworkers =>
    exact h.replace hworkers rfl (by simp) rfl rfl
  | outside mounted =>
    rw [List.append_nil]
    exact ⟨h.length_eq, h.known, h.metrics_eq, h.cycles_eq⟩

/-- Whatever happens, in whatever order, the outcomes are counted. -/
theorem Told.runs {begin : List CycleOutcome} (h : Told range workers begin crew)
    (hruns : Runs workload seed crew log later) : Told range workers (begin ++ log) later := by
  induction hruns with
  | refl => rwa [List.append_nil]
  | tail _ hstep ih =>
    rw [← List.append_assoc]
    exact ih.step hstep

/-- Before anything happens nothing is told. -/
theorem told_start (range : CycleRange) (workers : Nat) (mounted : MountedSet) :
    Told range workers [] (start range workers mounted) := by
  have hworker : ∀ (number : Nat) (worker : Worker),
      (start range workers mounted).workers[number]? = some worker →
        worker = ⟨range.cyclesOf workers number, .idle, .none⟩ := by
    intro number worker hworker
    rw [start, List.getElem?_map] at hworker
    obtain ⟨own, hown, rfl⟩ := Option.map_eq_some_iff.1 hworker
    obtain ⟨hlt, rfl⟩ := List.getElem?_eq_some_iff.1 hown
    rw [List.getElem_range]
  refine ⟨?_, by simp, ?_, ?_⟩
  · rw [start, List.length_map, List.length_range]
  · intro number worker hnumber
    rw [hworker number worker hnumber]
    rfl
  · intro number worker hnumber
    rw [hworker number worker hnumber]
    rfl

/-- What has come of the cycles of the first workers is what comes of their outcomes, worker after
worker. -/
theorem Told.metrics_take (h : Told range workers log crew) {number : Nat}
    (hnumber : number ≤ workers) :
    ((crew.workers.take number).map Worker.metrics).foldl Metrics.merge Metrics.none =
      .ofOutcomes (CycleOutcome.ofWorkers number log) := by
  have hmetrics : (crew.workers.take number).map Worker.metrics =
      ((List.range number).map fun worker => CycleOutcome.ofWorker worker log).map
        Metrics.ofOutcomes := by
    have hlength := h.length_eq
    apply List.ext_getElem
    · simp only [List.length_map, List.length_take, List.length_range]
      omega
    · intro worker hworker _
      simp only [List.getElem_map, List.getElem_take, List.getElem_range]
      apply h.metrics_eq
      exact List.getElem?_eq_getElem _
  rw [hmetrics]
  exact Metrics.foldl_merge_ofOutcomes _ []

/-- The outcomes of different workers are those of different cycles of the range. -/
theorem Told.length_flatMap_le (h : Told range workers log crew) (hworkers : 0 < workers)
    {numbers : List Nat} (hnumbers : numbers.Sublist (List.range workers)) :
    (numbers.flatMap fun worker => CycleOutcome.ofWorker worker log).length ≤
      range.cycles.length := by
  have hown : ∀ worker ∈ List.range workers,
      ((CycleOutcome.ofWorker worker log).map CycleOutcome.cycle).Sublist
        (range.cyclesOf workers worker) := by
    intro worker hworker
    rw [List.mem_range, ← h.length_eq] at hworker
    rw [← h.cycles_eq worker _ (List.getElem?_eq_getElem hworker)]
    exact List.sublist_append_left _ _
  have hfirst := hnumbers.flatMap fun worker =>
    (CycleOutcome.ofWorker worker log).map CycleOutcome.cycle
  have hall := (hfirst.trans (List.Sublist.flatMap_right _ hown)).length_le
  rw [← List.map_flatMap, List.length_map, (range.cyclesOf_perm hworkers).length_eq] at hall
  exact hall

/-- No count of a worker is too great for a word, nor is one of those of the first workers. -/
theorem Told.inWords (h : Told range workers log crew) (hworkers : 0 < workers) :
    (∀ worker ∈ crew.workers, worker.metrics.InWords) ∧
      ∀ number ≤ workers,
        (((crew.workers.take number).map Worker.metrics).foldl Metrics.merge
          Metrics.none).InWords := by
  have hcycles : range.cycles.length < 2 ^ 64 := by
    have hstop := range.stop_le_lastWord
    unfold CycleRange.lastWord Decimal.wordBound at hstop
    rw [range.length_cycles]
    omega
  refine ⟨?_, ?_⟩
  · intro worker hworker
    obtain ⟨number, hnumber⟩ := List.mem_iff_getElem?.1 hworker
    have hlt := (List.getElem?_eq_some_iff.1 hnumber).1
    rw [h.length_eq, ← List.mem_range, ← List.singleton_sublist] at hlt
    have hlength := h.length_flatMap_le hworkers hlt
    rw [List.flatMap_singleton] at hlength
    rw [h.metrics_eq number worker hnumber]
    exact Metrics.inWords_ofOutcomes (hlength.trans_lt hcycles)
  · intro number hnumber
    rw [h.metrics_take hnumber]
    apply Metrics.inWords_ofOutcomes
    exact (h.length_flatMap_le hworkers (List.range_sublist.2 hnumber)).trans_lt hcycles

/-- What has come of all cycles is what comes of the outcomes of all workers. -/
theorem Told.metrics (h : Told range workers log crew) :
    crew.metrics = .ofOutcomes (CycleOutcome.ofWorkers workers log) := by
  have htake := h.metrics_take (Nat.le_refl workers)
  rw [← h.length_eq, List.take_length, h.length_eq] at htake
  exact htake

/-- When the crew is done every worker has had the outcomes of all cycles of its share. -/
theorem Told.cycles_of_isDone (h : Told range workers log crew) (hdone : crew.IsDone)
    {worker : Nat} (hworker : worker < workers) :
    (CycleOutcome.ofWorker worker log).map CycleOutcome.cycle = range.cyclesOf workers worker := by
  rw [← h.length_eq] at hworker
  have hcycles := h.cycles_eq worker _ (List.getElem?_eq_getElem hworker)
  rw [(hdone _ (List.getElem_mem hworker)).1, List.append_nil] at hcycles
  exact hcycles

/-- When the crew is done it has counted all cycles of the range. -/
theorem Told.attempted_of_isDone (h : Told range workers log crew) (hworkers : 0 < workers)
    (hdone : crew.IsDone) : crew.metrics.attempted = range.cycles.length := by
  have hshares : (CycleOutcome.ofWorkers workers log).map CycleOutcome.cycle =
      (List.range workers).flatMap (range.cyclesOf workers) := by
    unfold CycleOutcome.ofWorkers
    rw [List.map_flatMap]
    apply List.flatMap_congr
    intro worker hworker
    exact h.cycles_of_isDone hdone (List.mem_range.1 hworker)
  rw [h.metrics, Metrics.ofOutcomes_eq, ← (range.cyclesOf_perm hworkers).length_eq, ← hshares,
    List.length_map]

/-- Let a run have any first cycle, any number of cycles and at least one worker, all of them words
of 64 bits, and let the outcomes of its cycles be what they may: the workers take their steps in any
order, and others do with the set and the disk whatever they like.  No count is ever too great for a
word, neither one of a worker nor one of what the first workers have done together.  When all
workers are done every cycle of the run is counted, as one that wrote its element or as one that
failed; each worker has had the outcomes of its cycles, ascending; and the messages that are told
are the first ten of those of all failures, those of the first worker in front.  What is told when a
set is populated is what such a run tells, and something is told unless a cycle ends the work of its
worker. -/
theorem told_of_outcomes (workload : Workload) (seed start count workers : UInt64)
    (hworkers : 0 < workers) (mounted : MountedSet) :
    let range : CycleRange := ⟨seed.toNat, start.toNat, count.toNat⟩
    let stop := min (start.toNat + count.toNat) (2 ^ 64 - 1)
    (∀ log crew, Runs workload seed.toNat (.start range workers.toNat mounted) log crew →
      (∀ worker ∈ crew.workers, worker.metrics.InWords) ∧
      (∀ number ≤ workers.toNat,
        (((crew.workers.take number).map Worker.metrics).foldl Metrics.merge
          Metrics.none).InWords) ∧
      (crew.IsDone →
        let messages :=
          (CycleOutcome.ofWorkers workers.toNat log).filterMap CycleOutcome.message?
        crew.metrics.attempted = crew.metrics.emitted + crew.metrics.failures ∧
        crew.metrics.attempted = stop - start.toNat ∧
        crew.metrics.failures = messages.length ∧
        crew.metrics.messages = messages.take 10 ∧
        (∀ outcome ∈ log, outcome.worker < workers.toNat) ∧
        ∀ worker < workers.toNat,
          let cycles := (CycleOutcome.ofWorker worker log).map CycleOutcome.cycle
          cycles.Pairwise (· < ·) ∧
            ∀ cycle, cycle ∈ cycles ↔ start.toNat ≤ cycle ∧ cycle < stop ∧
              (cycle - start.toNat) % workers.toNat = worker)) ∧
    (∀ metrics left,
      MountedSet.populate workload range workers.toNat mounted = (.ok metrics, left) →
        ∃ log crew, Runs workload seed.toNat (.start range workers.toNat mounted) log crew ∧
          crew.IsDone ∧ crew.metrics = metrics ∧ crew.mounted = left) ∧
    ((∃ metrics, (MountedSet.populate workload range workers.toNat mounted).1 = .ok metrics) ↔
      ∀ cycle, start.toNat ≤ cycle → cycle < stop →
        ¬ workload.Overflows seed.toNat cycle) := by
  intro range stop
  have hsome : 0 < workers.toNat := UInt64.lt_iff_toNat_lt.1 hworkers
  have hall : (∀ cycle ∈ range.cycles, ¬ workload.Overflows range.seed cycle) ↔
      ∀ cycle, start.toNat ≤ cycle → cycle < stop → ¬ workload.Overflows seed.toNat cycle :=
    forall_cycles_iff range _
  refine ⟨?_, ?_, (exists_populate_ok_iff hsome mounted).trans hall⟩
  · intro log crew hruns
    have htold : Told range workers.toNat log crew := (told_start range _ mounted).runs hruns
    obtain ⟨hown, hmerged⟩ := htold.inWords hsome
    refine ⟨hown, hmerged, ?_⟩
    intro hdone messages
    refine ⟨?_, ?_, ?_, ?_, htold.known, ?_⟩
    · rw [htold.metrics]
      exact Metrics.attempted_ofOutcomes _
    · rw [htold.attempted_of_isDone hsome hdone, range.length_cycles]
      rfl
    · rw [htold.metrics]
      exact Metrics.failures_ofOutcomes _
    · rw [htold.metrics, Metrics.ofOutcomes_eq]
      rfl
    · intro worker hworker cycles
      have hcycles : cycles = range.cyclesOf workers.toNat worker :=
        htold.cycles_of_isDone hdone hworker
      rw [hcycles]
      exact ⟨range.pairwise_cyclesOf _ _, range.mem_cyclesOf_iff hworker⟩
  · intro metrics left hpopulate
    obtain ⟨crew, hreaches, hdone, hmetrics, hmounted⟩ := exists_crew_of_populate hpopulate
    obtain ⟨log, hruns⟩ := Runs.of_reaches hreaches
    exact ⟨log, crew, hruns, hdone, hmetrics, hmounted⟩

/-- A set that takes no more elements. -/
def closedSet : MountedSet := ⟨⟨"out", "root", .shared, [], true, #[]⟩, .empty⟩

/-- Two workers fail twelve times; six failures of the first one are told, and four of the other. -/
theorem told_of_outcomes_closed :
    (0 : UInt64) < 2 ∧ ∃ metrics log crew,
      (MountedSet.populate lateWorkload ⟨42, 0, 12⟩ 2 closedSet).1 = .ok metrics ∧
        metrics.failures = 12 ∧
        Runs lateWorkload 42 (.start ⟨42, 0, 12⟩ 2 closedSet) log crew ∧
        ((CycleOutcome.ofWorkers 2 log).filterMap CycleOutcome.message?).length = 12 ∧
        ((CycleOutcome.ofWorkers 2 log).filterMap CycleOutcome.message?).take 10 =
          [0, 2, 4, 6, 8, 10, 1, 3, 5, 7].map fun cycle =>
            "cycle " ++ toString cycle ++ ": Document set is closed" := by
  have hworkers : (0 : UInt64) < 2 := by decide
  have hwork : (MountedSet.populate lateWorkload ⟨42, 0, 12⟩ 2 closedSet).1.toOption.map
      (fun metrics => (metrics.failures, metrics.messages)) =
        some (12, [0, 2, 4, 6, 8, 10, 1, 3, 5, 7].map fun cycle =>
          "cycle " ++ toString cycle ++ ": Document set is closed") := by
    decide +kernel
  obtain ⟨htold, hcrew, hends⟩ := told_of_outcomes lateWorkload 42 0 12 2 hworkers closedSet
  obtain ⟨metrics, hmetrics⟩ := hends.2 fun cycle _ _ => not_overflows_late 42 cycle
  obtain ⟨log, crew, hruns, hdone, hsame, -⟩ := hcrew metrics _ (Prod.ext hmetrics rfl)
  obtain ⟨-, -, hend⟩ := htold log crew hruns
  obtain ⟨-, -, hlength, hmessages, -⟩ := hend hdone
  change (MountedSet.populate lateWorkload ⟨42, 0, 12⟩ 2 closedSet).1 = _ at hmetrics
  rw [hmetrics] at hwork
  obtain ⟨hfailures, htexts⟩ := Prod.mk.inj (Option.some_inj.1 hwork)
  rw [hsame] at hlength hmessages
  exact ⟨hworkers, metrics, log, crew, hmetrics, hfailures, hruns,
    hlength.symm.trans hfailures, hmessages.symm.trans htexts⟩

end Crew

end XmlWorkload
