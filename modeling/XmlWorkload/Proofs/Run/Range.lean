import Mathlib.Data.List.Nodup
import XmlWorkload.Run.Populate

/-!
# The cycles of a run

The workers of a run share its cycles: each starts with a cycle of its own and goes on by as many
cycles as there are workers.  Cycles are numbers of 64 bits, and where the next one would take more
the worker stops; the run ends before that anyway, so that the cycles of a worker are evenly spaced
(`CycleRange.every_eq`).  Main statement: taken together the workers have every cycle of the run
exactly once (`CycleRange.cyclesOf_perm`).
-/

set_option autoImplicit false

namespace XmlWorkload.CycleRange

/-- How many cycles there are from one on, `step` apart, before `stop`. -/
def rounds (step stop first : Nat) : Nat := (stop - first + step - 1) / step

/-- A round is one of those before the end exactly if its cycle is before the end. -/
theorem lt_rounds_iff {step : Nat} (hstep : 0 < step) (stop first round : Nat) :
    round < rounds step stop first ↔ first + round * step < stop := by
  have hsplit : (round + 1) * step = round * step + step := Nat.succ_mul round step
  rw [rounds, Nat.lt_iff_add_one_le, Nat.le_div_iff_mul_le hstep, hsplit]
  omega

/-- There are no rounds where the first cycle is past the end, or nothing is added. -/
theorem rounds_of_le {step stop first : Nat} (hpast : ¬(first < stop ∧ 0 < step)) :
    rounds step stop first = 0 := by
  obtain rfl | hstep := Nat.eq_zero_or_pos step
  · exact Nat.div_zero _
  · exact Nat.div_eq_of_lt (by omega)

/-- Before the end there is one round more than from the next cycle on. -/
theorem rounds_of_lt {step stop first : Nat} (hbelow : first < stop ∧ 0 < step) :
    rounds step stop first = rounds step stop (first + step) + 1 := by
  obtain ⟨hlt, hstep⟩ := hbelow
  have hsplit : stop - first + step - 1 = stop - first - 1 + step := by omega
  rw [rounds, hsplit, Nat.add_div_right _ hstep, rounds]
  by_cases hfar : first + step ≤ stop
  · have hsame : stop - (first + step) + step - 1 = stop - first - 1 := by omega
    rw [hsame]
  · -- there is one cycle only, and none behind it
    rw [Nat.div_eq_of_lt (by omega), Nat.div_eq_of_lt (by omega)]

/-- The cycles of the rounds are the first one and those from the next one on. -/
theorem map_range_rounds {step stop first : Nat} (hbelow : first < stop ∧ 0 < step) :
    (List.range (rounds step stop first)).map (fun round => first + round * step) =
      first :: (List.range (rounds step stop (first + step))).map
        fun round => first + step + round * step := by
  rw [rounds_of_lt hbelow, List.range_succ_eq_map, List.map_cons, List.map_map, Nat.zero_mul,
    Nat.add_zero]
  congr 1
  apply List.map_congr_left
  intro round _
  rw [Function.comp_apply, Nat.succ_eq_add_one, Nat.succ_mul]
  omega

/-- The cycles from one on are `step` apart.  Where there is no number for the next one, there are
no cycles anyway. -/
theorem every_eq {stop : Nat} (hstop : stop ≤ lastWord) (step first : Nat) :
    every step stop first =
      (List.range (rounds step stop first)).map fun round => first + round * step := by
  induction first using every.induct step stop with
  | case1 first hbelow next hnext ih =>
    obtain ⟨rfl, -⟩ := sum?_eq_some_iff.1 hnext
    rw [every, dif_pos hbelow, map_range_rounds hbelow, ← ih]
    split
    · next found hfound =>
      rw [hnext, Option.some_inj] at hfound
      rw [hfound]
    · next hnone =>
      rw [hnext] at hnone
      cases hnone
  | case2 first hbelow hnone =>
    have hpast := sum?_eq_none_iff.1 hnone
    rw [every, dif_pos hbelow, map_range_rounds hbelow, rounds_of_le (by omega)]
    split
    · next found hfound =>
      rw [hnone] at hfound
      cases hfound
    · rfl
  | case3 first hpast =>
    rw [every, dif_neg hpast, rounds_of_le hpast]
    rfl

/-- The cycles from one on are those that lie whole steps behind it. -/
theorem mem_every_iff {step stop : Nat} (hstep : 0 < step) (hstop : stop ≤ lastWord)
    (first cycle : Nat) :
    cycle ∈ every step stop first ↔
      first ≤ cycle ∧ cycle < stop ∧ (cycle - first) % step = 0 := by
  simp only [every_eq hstop, List.mem_map, List.mem_range, lt_rounds_iff hstep]
  constructor
  · rintro ⟨round, hlt, rfl⟩
    refine ⟨Nat.le_add_right _ _, hlt, ?_⟩
    rw [Nat.add_sub_cancel_left, Nat.mul_mod_left]
  · rintro ⟨hle, hlt, hmod⟩
    have hwhole := Nat.div_mul_cancel (Nat.dvd_of_mod_eq_zero hmod)
    exact ⟨(cycle - first) / step, by omega, by omega⟩

/-- Cycles that are evenly spaced ascend. -/
theorem pairwise_every {stop : Nat} (hstop : stop ≤ lastWord) (step first : Nat) :
    (every step stop first).Pairwise (· < ·) := by
  obtain rfl | hstep := Nat.eq_zero_or_pos step
  · rw [every, dif_neg (by omega)]
    exact .nil
  · rw [every_eq hstop, List.pairwise_map]
    apply List.pairwise_lt_range.imp
    intro round later hlater
    have := Nat.mul_lt_mul_of_pos_right hlater hstep
    omega

/-- Cycles that are evenly spaced are different. -/
theorem nodup_every {stop : Nat} (hstop : stop ≤ lastWord) (step first : Nat) :
    (every step stop first).Nodup :=
  (pairwise_every hstop step first).imp Nat.ne_of_lt

/-- A range ends before the last word. -/
theorem stop_le_lastWord (range : CycleRange) : range.stop ≤ lastWord := Nat.min_le_right _ _

/-- The cycles of a range are those from its start to its end. -/
theorem mem_cycles_iff (range : CycleRange) (cycle : Nat) :
    cycle ∈ range.cycles ↔ range.start ≤ cycle ∧ cycle < range.stop := by
  rw [cycles, mem_every_iff Nat.one_pos range.stop_le_lastWord]
  simp [Nat.mod_one]

/-- The cycles of a range ascend. -/
theorem pairwise_cycles (range : CycleRange) : range.cycles.Pairwise (· < ·) :=
  pairwise_every range.stop_le_lastWord 1 range.start

/-- A range has as many cycles as there are from its start to its end. -/
theorem length_cycles (range : CycleRange) : range.cycles.length = range.stop - range.start := by
  rw [cycles, every_eq range.stop_le_lastWord, List.length_map, List.length_range, rounds,
    Nat.div_one]
  omega

/-- A worker starts as many cycles behind the first of the run as its number says.  Where there is
no number for that, there are no cycles for it anyway. -/
theorem cyclesOf_eq_every (range : CycleRange) (workers worker : Nat) :
    range.cyclesOf workers worker = every workers range.stop (range.start + worker) := by
  rw [cyclesOf, first]
  cases hsum : sum? range.start worker with
  | some sum =>
    obtain ⟨rfl, -⟩ := sum?_eq_some_iff.1 hsum
    rfl
  | none =>
    have hpast := sum?_eq_none_iff.1 hsum
    have hstop := range.stop_le_lastWord
    rw [Option.getD_none, every, dif_neg (by omega), every, dif_neg (by omega)]

/-- The cycles of a worker ascend. -/
theorem pairwise_cyclesOf (range : CycleRange) (workers worker : Nat) :
    (range.cyclesOf workers worker).Pairwise (· < ·) := by
  rw [cyclesOf_eq_every]
  exact pairwise_every range.stop_le_lastWord _ _

/-- The cycles of a worker are those of the run whose distance from the first leaves its number. -/
theorem mem_cyclesOf_iff (range : CycleRange) {workers worker : Nat} (hworker : worker < workers)
    (cycle : Nat) :
    cycle ∈ range.cyclesOf workers worker ↔
      range.start ≤ cycle ∧ cycle < range.stop ∧ (cycle - range.start) % workers = worker := by
  rw [cyclesOf_eq_every, mem_every_iff (Nat.zero_lt_of_lt hworker) range.stop_le_lastWord]
  constructor
  · rintro ⟨hle, hlt, hmod⟩
    refine ⟨by omega, hlt, ?_⟩
    have hsplit : cycle - range.start = (cycle - (range.start + worker)) + worker := by omega
    rw [hsplit, Nat.add_mod, hmod, Nat.zero_add, Nat.mod_mod, Nat.mod_eq_of_lt hworker]
  · rintro ⟨hle, hlt, hmod⟩
    have hworkerLe : worker ≤ cycle - range.start := by
      rw [← hmod]
      exact Nat.mod_le _ _
    refine ⟨by omega, hlt, ?_⟩
    have hsplit : cycle - (range.start + worker) = (cycle - range.start) - worker := by omega
    rw [hsplit, ← hmod]
    exact Nat.sub_mod_eq_zero_of_mod_eq (Nat.mod_mod _ _).symm

/-- Taken together the workers have each cycle of the run once. -/
theorem cyclesOf_perm (range : CycleRange) {workers : Nat} (hworkers : 0 < workers) :
    ((List.range workers).flatMap (range.cyclesOf workers)).Perm range.cycles := by
  apply (List.perm_ext_iff_of_nodup ?_ (nodup_every range.stop_le_lastWord _ _)).2
  · intro cycle
    have hcycles := mem_cycles_iff range cycle
    unfold cycles at hcycles
    rw [List.mem_flatMap, hcycles]
    constructor
    · rintro ⟨worker, hworker, hcycle⟩
      have hmem := (range.mem_cyclesOf_iff (List.mem_range.1 hworker) cycle).1 hcycle
      exact ⟨hmem.1, hmem.2.1⟩
    · rintro ⟨hle, hlt⟩
      have hworker : (cycle - range.start) % workers < workers := Nat.mod_lt _ hworkers
      exact ⟨_, List.mem_range.2 hworker, (range.mem_cyclesOf_iff hworker cycle).2 ⟨hle, hlt, rfl⟩⟩
  · rw [List.nodup_flatMap]
    refine ⟨fun worker _ => nodup_every range.stop_le_lastWord _ _, ?_⟩
    apply List.nodup_range.pairwise_of_forall_ne
    intro first hfirst second hsecond hne cycle hcycleFirst hcycleSecond
    have hmodFirst := ((range.mem_cyclesOf_iff (List.mem_range.1 hfirst) cycle).1 hcycleFirst).2.2
    have hmodSecond :=
      ((range.mem_cyclesOf_iff (List.mem_range.1 hsecond) cycle).1 hcycleSecond).2.2
    exact hne (hmodFirst.symm.trans hmodSecond)

end XmlWorkload.CycleRange
