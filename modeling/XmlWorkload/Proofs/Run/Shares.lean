import Mathlib.Data.List.Range
import Mathlib.Order.WellFounded
import XmlWorkload.Proofs.Run.Counted

/-!
# The shares of the workers

A worker goes through the cycles of its share one by one, in ascending order, and comes to an end,
whatever the others do in between.  Cycles are words of 64 bits: the first one of a worker, and each
one behind another, is a sum of words, and no such sum is too great for a word unless the worker has
nothing left to do.  Main statement: the workers share the cycles of a run, and all of them are
carried out (`Crew.shares_of_workers`).
-/

set_option autoImplicit false

namespace XmlWorkload

namespace CycleRange

variable {range : CycleRange} {workers worker : Nat}

/-- Words add up like numbers if there is a word for the sum. -/
theorem toNat_add_of_sum? {first second : UInt64} {sum : Nat}
    (h : sum? first.toNat second.toNat = some sum) : (first + second).toNat = sum := by
  obtain ⟨rfl, hle⟩ := sum?_eq_some_iff.1 h
  rw [UInt64.toNat_add, Nat.mod_eq_of_lt]
  unfold lastWord Decimal.wordBound at hle
  omega

/-- A worker has a cycle of its share once and any other cycle not at all. -/
theorem count_cyclesOf (hworker : worker < workers) (cycle : Nat) :
    (range.cyclesOf workers worker).count cycle =
      if range.start ≤ cycle ∧ cycle < range.stop ∧ (cycle - range.start) % workers = worker
      then 1 else 0 := by
  have hnodup : (range.cyclesOf workers worker).Nodup :=
    (range.pairwise_cyclesOf workers worker).imp Nat.ne_of_lt
  rw [hnodup.count, if_congr (range.mem_cyclesOf_iff hworker cycle) rfl rfl]

/-- The first cycle of a worker is the sum of the first one of the run and the number of the
worker. -/
theorem sum?_of_head?_cyclesOf (hworkers : 0 < workers) {cycle : Nat}
    (h : (range.cyclesOf workers worker).head? = some cycle) :
    sum? range.start worker = some cycle := by
  have hstop := range.stop_le_lastWord
  rw [cyclesOf_eq_every, every_eq hstop] at h
  obtain ⟨round, hround, rfl⟩ := List.mem_map.1 (List.mem_of_head? h)
  have hsome := (lt_rounds_iff hworkers _ _ _).1 (List.mem_range.1 hround)
  -- the first round is that of the worker's number alone
  rw [List.head?_map, List.head?_range, if_neg (by rintro hnone; simp [hnone] at hround)] at h
  have hfirst : range.start + worker + 0 * workers = range.start + worker + round * workers :=
    Option.some_inj.1 h
  rw [sum?_eq_some_iff]
  omega

/-- Each cycle of a worker is the sum of the one before and the number of workers. -/
theorem isChain_cyclesOf (range : CycleRange) (hworkers : 0 < workers) (worker : Nat) :
    (range.cyclesOf workers worker).IsChain fun cycle next => sum? cycle workers = some next := by
  have hstop := range.stop_le_lastWord
  rw [cyclesOf_eq_every, every_eq hstop, List.isChain_map, List.isChain_iff_getElem]
  intro round hround
  rw [List.length_range] at hround
  have hbelow := (lt_rounds_iff hworkers _ _ _).1 hround
  have hnext : (round + 1) * workers = round * workers + workers := Nat.succ_mul round workers
  rw [List.getElem_range, List.getElem_range, sum?_eq_some_iff]
  omega

end CycleRange

/-- A worker has counted what comes first in its share, and has the rest still to do. -/
structure Worker.Within (share : List Nat) (worker : Worker) : Prop where
  attempted_le : worker.metrics.attempted ≤ share.length
  todo_eq : worker.todo = share.drop worker.metrics.attempted

/-- One more outcome is one more attempt. -/
theorem Metrics.attempted_addOutcome (metrics : Metrics) (cycle : Nat)
    (result : Except CycleError Unit) :
    (metrics.addOutcome cycle result).attempted = metrics.attempted + 1 := by
  cases result <;> rfl

/-- A worker that counts the cycle in hand goes on within its share. -/
theorem Worker.Within.addOutcome {share rest : List Nat} {cycle : Nat} {stage : Stage}
    {metrics : Metrics} (h : Within share ⟨cycle :: rest, stage, metrics⟩) (stage' : Stage)
    (result : Except CycleError Unit) :
    Within share ⟨rest, stage', metrics.addOutcome cycle result⟩ := by
  have htodo : cycle :: rest = share.drop metrics.attempted := h.todo_eq
  have hlength := congrArg List.length htodo
  rw [List.length_cons, List.length_drop] at hlength
  refine ⟨?_, ?_⟩
  · rw [Metrics.attempted_addOutcome]
    omega
  · rw [Metrics.attempted_addOutcome, ← List.tail_drop, ← htodo]
    rfl

namespace Crew

/-- Every worker of a crew goes through its share of the cycles of a range. -/
structure Assigned (range : CycleRange) (workers : Nat) (crew : Crew) : Prop where
  length_eq : crew.workers.length = workers
  within : ∀ (number : Nat) (worker : Worker), crew.workers[number]? = some worker →
    worker.Within (range.cyclesOf workers number)

variable {workload : Workload} {seed : Nat} {range : CycleRange} {workers : Nat}
  {crew later : Crew}

/-- The worker behind a row of others is found at their number. -/
theorem getElem?_own {before after : List Worker} {worker : Worker}
    (h : crew.workers = before ++ worker :: after) :
    crew.workers[before.length]? = some worker := by
  rw [h, List.getElem?_append_right (Nat.le_refl _), Nat.sub_self, List.getElem?_cons_zero]

/-- There are as many workers when one of them was replaced. -/
theorem length_replace {before after : List Worker} {worker worker' : Worker}
    (h : crew.workers = before ++ worker :: after)
    (hlater : later.workers = before ++ worker' :: after) :
    later.workers.length = crew.workers.length := by
  rw [h, hlater, List.length_append, List.length_append, List.length_cons, List.length_cons]

/-- Where one worker is replaced by another, each place has the new one or the one it had. -/
theorem getElem?_replace {before after : List Worker} (worker : Worker) {worker' other : Worker}
    {number : Nat} (h : (before ++ worker' :: after)[number]? = some other) :
    number = before.length ∧ other = worker' ∨
      number ≠ before.length ∧ (before ++ worker :: after)[number]? = some other := by
  have hset : before ++ worker' :: after =
      (before ++ worker :: after).set before.length worker' := by
    rw [List.set_append_right _ _ (Nat.le_refl _), Nat.sub_self, List.set_cons_zero]
  rw [hset, List.getElem?_set] at h
  split at h
  · next hnumber =>
    split at h
    · exact .inl ⟨hnumber.symm, (Option.some_inj.1 h).symm⟩
    · cases h
  · next hnumber => exact .inr ⟨Ne.symm hnumber, h⟩

/-- The shares stay assigned when a worker is replaced that keeps within whatever share it was
within. -/
theorem Assigned.replace (h : Assigned range workers crew) {before after : List Worker}
    {worker worker' : Worker} (hworkers : crew.workers = before ++ worker :: after)
    (hlater : later.workers = before ++ worker' :: after)
    (hwithin : ∀ share, worker.Within share → worker'.Within share) :
    Assigned range workers later := by
  refine ⟨(length_replace hworkers hlater).trans h.length_eq, ?_⟩
  intro number other hother
  rw [hlater] at hother
  rcases getElem?_replace worker hother with ⟨rfl, rfl⟩ | ⟨-, hsame⟩
  · exact hwithin _ (h.within _ worker (getElem?_own hworkers))
  · apply h.within
    rw [hworkers]
    exact hsame

/-- Every step of a worker leaves the shares assigned. -/
theorem Assigned.step (h : Assigned range workers crew) (hstep : Step workload seed crew later) :
    Assigned range workers later := by
  cases hstep with
  | @skip before after cycle rest metrics error hworkers hresolve hmild =>
    exact h.replace hworkers rfl fun share hwithin => hwithin.addOutcome .idle _
  | @lookUp before after cycle rest metrics step hworkers hresolve =>
    apply h.replace hworkers rfl
    intro share hwithin
    cases ((MountedSet.acquire step.file).run crew.mounted).1 with
    | error error => exact hwithin.addOutcome .idle _
    | ok number => exact ⟨hwithin.attempted_le, hwithin.todo_eq⟩
  | @write before after cycle rest metrics index number emission hworkers =>
    exact h.replace hworkers rfl fun share hwithin => hwithin.addOutcome (.leaving number) _
  | @leave before after todo metrics number hworkers =>
    apply h.replace hworkers rfl
    intro share hwithin
    exact ⟨hwithin.attempted_le, hwithin.todo_eq⟩

/-- In whatever order the workers take their steps, the shares stay assigned. -/
theorem Assigned.reaches (h : Assigned range workers crew)
    (hreaches : Reaches workload seed crew later) : Assigned range workers later := by
  induction hreaches with
  | refl => exact h
  | tail _ hstep ih => exact ih.step hstep

/-- Before anything happens every worker has its share to do. -/
theorem assigned_start (range : CycleRange) (workers : Nat) (mounted : MountedSet) :
    Assigned range workers (start range workers mounted) := by
  refine ⟨?_, ?_⟩
  · rw [start, List.length_map, List.length_range]
  · intro number worker hworker
    rw [start, List.getElem?_map] at hworker
    obtain ⟨own, hown, rfl⟩ := Option.map_eq_some_iff.1 hworker
    obtain ⟨hlt, rfl⟩ := List.getElem?_eq_some_iff.1 hown
    rw [List.getElem_range]
    exact ⟨Nat.zero_le _, rfl⟩

/-- No row of steps goes on for ever. -/
theorem exists_not_step (workload : Workload) (seed : Nat) (run : Nat → Crew) :
    ∃ time, ¬ Step workload seed (run time) (run (time + 1)) := by
  obtain ⟨time, hnot⟩ := WellFounded.not_rel_apply_succ (r := (· < ·))
    fun time => (run time).remaining
  exact ⟨time, fun hstep => hnot (remaining_step hstep)⟩

/-- What holds of all cycles of a range holds of all numbers in it. -/
theorem forall_cycles_iff (range : CycleRange) (property : Nat → Prop) :
    (∀ cycle ∈ range.cycles, property cycle) ↔
      ∀ cycle, range.start ≤ cycle → cycle < range.stop → property cycle := by
  simp only [range.mem_cycles_iff, and_imp]

/-- Populating a set tells what came of the cycles if none of them ends the work of its worker, and
only then. -/
theorem exists_populate_ok_iff (hworkers : 0 < workers) (mounted : MountedSet) :
    (∃ metrics, (MountedSet.populate workload range workers mounted).1 = .ok metrics) ↔
      ∀ cycle ∈ range.cycles, ¬ workload.Overflows range.seed cycle := by
  obtain ⟨crew, hreaches, hover, hpopulate⟩ := reaches_populate workload range workers mounted
  rw [hpopulate, ← isDone_iff_of_start range hworkers hreaches hover]
  simp only [work_eq_ok_iff hover, exists_and_left, exists_eq', and_true]

/-- What is told when a set is populated is what came of a crew that is done. -/
theorem exists_crew_of_populate {metrics : Metrics} {mounted left : MountedSet}
    (h : MountedSet.populate workload range workers mounted = (.ok metrics, left)) :
    ∃ crew, Reaches workload range.seed (start range workers mounted) crew ∧ crew.IsDone ∧
      crew.metrics = metrics ∧ crew.mounted = left := by
  obtain ⟨crew, hreaches, hover, hpopulate⟩ := reaches_populate workload range workers mounted
  obtain ⟨hwork, rfl⟩ := Prod.mk.inj (hpopulate.symm.trans h)
  obtain ⟨hdone, hmetrics⟩ := (work_eq_ok_iff hover).1 hwork
  exact ⟨crew, hreaches, hdone, hmetrics, rfl⟩

/-- All cycles are counted when a set is populated and something is told. -/
theorem attempted_of_populate (hworkers : 0 < workers) {metrics : Metrics}
    {mounted left : MountedSet}
    (h : MountedSet.populate workload range workers mounted = (.ok metrics, left)) :
    metrics.attempted = range.cycles.length := by
  obtain ⟨crew, hreaches, hdone, rfl, -⟩ := exists_crew_of_populate h
  have hcounted : Counted range crew := (counted_start hworkers mounted).reaches hreaches
  exact (hcounted.totals hdone).1

/-- Let a run have any first cycle, any number of cycles and at least one worker, all of them words
of 64 bits.  Each cycle from the first one up to where the run or the words end is carried out once,
by the worker whose number its distance from the first one leaves, and no other cycle is.  Every
worker has its cycles ascending: the first is the sum of two words and so is each next one, and
these sums are those of the numbers.  In whatever order the workers take their steps, what a worker
has counted comes first in its share and the rest is still to be done, the counts of all workers
stay below the number of cycles of the run, and some worker can take a step until each has done its
share or has met a cycle that ends its work; but not for ever.  Where no cycle of the run does that,
all shares are done in the end.  Populating a set tells of the cycles exactly then, and all of them
are counted. -/
theorem shares_of_workers (workload : Workload) (seed start count workers : UInt64)
    (hworkers : 0 < workers) (mounted : MountedSet) :
    let range : CycleRange := ⟨seed.toNat, start.toNat, count.toNat⟩
    let stop := min (start.toNat + count.toNat) (2 ^ 64 - 1)
    let share := range.cyclesOf workers.toNat
    (∀ worker < workers.toNat,
      (∀ cycle, (share worker).count cycle =
        if start.toNat ≤ cycle ∧ cycle < stop ∧ (cycle - start.toNat) % workers.toNat = worker
        then 1 else 0) ∧
      (share worker).Pairwise (· < ·) ∧
      (∀ cycle, (share worker).head? = some cycle →
        cycle = start.toNat + worker ∧ (start + .ofNat worker).toNat = cycle) ∧
      (share worker).IsChain fun cycle next =>
        next = cycle + workers.toNat ∧ (.ofNat cycle + workers).toNat = next) ∧
    (∀ crew, Reaches workload seed.toNat (.start range workers.toNat mounted) crew →
      crew.workers.length = workers.toNat ∧
      (∀ number worker, crew.workers[number]? = some worker →
        worker.metrics.attempted ≤ (share number).length ∧
          worker.todo = (share number).drop worker.metrics.attempted) ∧
      crew.metrics.attempted + (crew.workers.map fun worker => worker.todo.length).sum =
        stop - start.toNat ∧
      crew.metrics.attempted = crew.metrics.emitted + crew.metrics.failures ∧
      (crew.IsOver workload seed.toNat ∨ ∃ later, Step workload seed.toNat crew later) ∧
      (crew.IsOver workload seed.toNat → (crew.IsDone ↔ ∀ cycle, start.toNat ≤ cycle →
        cycle < stop → ¬ workload.Overflows seed.toNat cycle))) ∧
    (∀ run : Nat → Crew, ∃ time, ¬ Step workload seed.toNat (run time) (run (time + 1))) ∧
    let work := (MountedSet.populate workload range workers.toNat mounted).1
    ((∃ metrics, work = .ok metrics) ↔ ∀ cycle, start.toNat ≤ cycle → cycle < stop →
      ¬ workload.Overflows seed.toNat cycle) ∧
    ∀ metrics, work = .ok metrics → metrics.attempted = stop - start.toNat := by
  intro range stop share
  have hsome : 0 < workers.toNat := UInt64.lt_iff_toNat_lt.1 hworkers
  have hall : (∀ cycle ∈ range.cycles, ¬ workload.Overflows range.seed cycle) ↔
      ∀ cycle, start.toNat ≤ cycle → cycle < stop → ¬ workload.Overflows seed.toNat cycle :=
    forall_cycles_iff range _
  refine ⟨fun worker hworker => ⟨CycleRange.count_cyclesOf hworker, range.pairwise_cyclesOf _ _,
    ?_, ?_⟩, ?_, exists_not_step workload seed.toNat, ?_, ?_⟩
  · intro cycle hhead
    have hsum := CycleRange.sum?_of_head?_cyclesOf hsome hhead
    have hword : (UInt64.ofNat worker).toNat = worker :=
      UInt64.toNat_ofNat_of_lt' (hworker.trans workers.toNat_lt)
    refine ⟨(CycleRange.sum?_eq_some_iff.1 hsum).1, CycleRange.toNat_add_of_sum? ?_⟩
    rw [hword]
    exact hsum
  · apply (range.isChain_cyclesOf hsome worker).imp
    intro cycle next hsum
    obtain ⟨hnext, hle⟩ := CycleRange.sum?_eq_some_iff.1 hsum
    have hword : (UInt64.ofNat cycle).toNat = cycle := by
      apply UInt64.toNat_ofNat_of_lt'
      unfold CycleRange.lastWord Decimal.wordBound at hle
      show cycle < 18446744073709551616
      omega
    refine ⟨hnext, CycleRange.toNat_add_of_sum? ?_⟩
    rw [hword]
    exact hsum
  · intro crew hreaches
    have hassigned := (assigned_start range workers.toNat mounted).reaches hreaches
    have hcounted : Counted range crew := (counted_start hsome mounted).reaches hreaches
    have hfits := (fits_start range workers.toNat mounted).reaches hreaches
    refine ⟨hassigned.length_eq, ?_, ?_, hcounted.attempted_eq, ?_, fun hover => ?_⟩
    · intro number worker hworker
      obtain ⟨hle, htodo⟩ := hassigned.within number worker hworker
      exact ⟨hle, htodo⟩
    · rw [hcounted.attempted_add_todo, range.length_cycles]
      rfl
    · by_cases hover : crew.IsOver workload seed.toNat
      · exact .inl hover
      · exact .inr (exists_step hfits hover)
    · rw [← hall]
      exact isDone_iff_of_start range hsome hreaches hover
  · exact (exists_populate_ok_iff hsome mounted).trans hall
  · intro metrics hmetrics
    rw [attempted_of_populate hsome (Prod.ext hmetrics rfl), range.length_cycles]
    rfl

/-- A workload with one operation. -/
def lateWorkload : Workload := .plain 1 Nat.one_pos

/-- Ten cycles of which the words allow three. -/
def lateRange : CycleRange := ⟨42, 2 ^ 64 - 4, 10⟩

/-- A set without documents. -/
def lateSet : MountedSet := ⟨⟨"out", "root", .shared, [], false, #[]⟩, .empty⟩

/-- No cycle of the late workload ends the work of a worker. -/
theorem not_overflows_late (seed cycle : Nat) : ¬ lateWorkload.Overflows seed cycle :=
  Workload.not_overflows_of_resolve (Workload.resolve_plain Nat.one_pos seed cycle)

/-- Near the end of the words five workers have three cycles. -/
theorem shares_of_workers_late :
    (0 : UInt64) < 5 ∧ (lateRange.cyclesOf 5 2).count (2 ^ 64 - 2) = 1 ∧
      (lateRange.cyclesOf 5 3).count (2 ^ 64 - 1) = 0 ∧
      ∃ metrics, (MountedSet.populate lateWorkload lateRange 5 lateSet).1 = .ok metrics ∧
        metrics.attempted = 3 := by
  have hworkers : (0 : UInt64) < 5 := by decide
  obtain ⟨hshares, -, -, hends, hattempted⟩ :=
    shares_of_workers lateWorkload 42 18446744073709551612 10 5 hworkers lateSet
  obtain ⟨metrics, hmetrics⟩ := hends.2 fun cycle _ _ => not_overflows_late 42 cycle
  exact ⟨hworkers, (hshares 2 (by decide)).1 _, (hshares 3 (by decide)).1 _, metrics, hmetrics,
    hattempted metrics hmetrics⟩

end Crew

end XmlWorkload
