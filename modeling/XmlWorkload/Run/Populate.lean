import XmlWorkload.Document.Set
import XmlWorkload.Workload.Cycle

/-!
# Populating documents

A run carries out a range of cycles.  Workers share the range: each starts with a cycle of its own
and goes on by as many cycles as there are workers.  A cycle that fails is counted and does not stop
the run; the messages of the first failures are kept.  Only a text that would become too long ends the
work of the worker who meets it.  The others go on, but then nothing is told of the cycles.
-/

set_option autoImplicit false

namespace XmlWorkload

/-- What came of the cycles of a run. -/
structure Metrics where
  attempted : Nat
  /-- The number of those that wrote their element. -/
  emitted : Nat
  failures : Nat
  messages : List String
  deriving DecidableEq, Repr

namespace Metrics

/-- What came of no cycles. -/
def none : Metrics := ⟨0, 0, 0, []⟩

/-- How many messages are kept. -/
def messageLimit : Nat := 10

/-- One more cycle that wrote its element. -/
def addSuccess (metrics : Metrics) : Metrics :=
  { metrics with attempted := metrics.attempted + 1, emitted := metrics.emitted + 1 }

/-- One more cycle that failed. -/
def addFailure (metrics : Metrics) (message : String) : Metrics :=
  { metrics with
    attempted := metrics.attempted + 1
    failures := metrics.failures + 1
    messages := if metrics.messages.length < messageLimit then metrics.messages ++ [message]
      else metrics.messages }

/-- What came of the cycles of one worker and of those of the next. -/
def merge (metrics other : Metrics) : Metrics :=
  ⟨metrics.attempted + other.attempted, metrics.emitted + other.emitted,
    metrics.failures + other.failures,
    metrics.messages ++ other.messages.take (messageLimit - metrics.messages.length)⟩

/-- A number of things in a time, per second; zero if there was no time. -/
def perSecond (count : Nat) (seconds : Float) : Float :=
  if 0.0 < seconds then count.toUInt64.toFloat / seconds else 0.0

/-- The number of nanoseconds in a second. -/
def nanosecondsPerSecond : Nat := 1000000000

/-- A duration in seconds.  Nanoseconds beyond a second count as whole seconds. -/
def seconds (whole nanoseconds : Nat) : Float :=
  (whole + nanoseconds / nanosecondsPerSecond).toUInt64.toFloat +
    (nanoseconds % nanosecondsPerSecond).toUInt64.toFloat / nanosecondsPerSecond.toUInt64.toFloat

/-- How many elements were written per second. -/
def emittedPerSecond (metrics : Metrics) (seconds : Float) : Float :=
  perSecond metrics.emitted seconds

/-- How many cycles were carried out per second. -/
def attemptedPerSecond (metrics : Metrics) (seconds : Float) : Float :=
  perSecond metrics.attempted seconds

end Metrics

/-- A range of cycles with the seed of their random texts. -/
structure CycleRange where
  seed : Nat
  start : Nat
  count : Nat
  deriving DecidableEq, Repr

namespace CycleRange

/-- The greatest number of 64 bits, which is never a cycle. -/
def lastWord : Nat := Decimal.wordBound - 1

/-- The first cycle behind the range. -/
def stop (range : CycleRange) : Nat := min (range.start + range.count) lastWord

/-- The sum of two numbers of 64 bits, unless it takes more. -/
def sum? (first second : Nat) : Option Nat :=
  if first + second ≤ lastWord then some (first + second) else none

/-- Two numbers have a sum exactly when it fits a word. -/
theorem sum?_eq_some_iff {first second sum : Nat} :
    sum? first second = some sum ↔ sum = first + second ∧ sum ≤ lastWord := by
  unfold sum?
  split <;> simp <;> omega

/-- Two numbers have no sum exactly when it does not fit a word. -/
theorem sum?_eq_none_iff {first second : Nat} :
    sum? first second = none ↔ lastWord < first + second := by
  unfold sum?
  split <;> simp <;> omega

/-- Every `step`-th cycle from a cycle on, before `stop`, as long as there is a number for it. -/
def every (step stop : Nat) (cycle : Nat) : List Nat :=
  if _h : cycle < stop ∧ 0 < step then
    match _hnext : sum? cycle step with
    | some next => cycle :: every step stop next
    | none => [cycle]
  else []
termination_by stop - cycle
decreasing_by
  have := sum?_eq_some_iff.1 _hnext
  omega

/-- The cycles of the range, ascending. -/
def cycles (range : CycleRange) : List Nat := every 1 range.stop range.start

/-- The first cycle of one of several workers.  A worker for whose first cycle there is no number
has nothing to do. -/
def first (range : CycleRange) (worker : Nat) : Nat :=
  (sum? range.start worker).getD range.stop

/-- The cycles of one of several workers, ascending. -/
def cyclesOf (range : CycleRange) (workers worker : Nat) : List Nat :=
  every workers range.stop (range.first worker)

end CycleRange

namespace MountedSet

/-- Carries out what a cycle does. -/
def apply (step : CycleStep) : Action MountedSet Unit :=
  match step.command with
  | .element => emit step.file step.path step.template

/-- Carries out a cycle. -/
def runCycle (workload : Workload) (seed cycle : Nat) (mounted : MountedSet) :
    Except CycleError Unit × MountedSet :=
  match workload.resolve seed cycle with
  | .error error => (.error error, mounted)
  | .ok step =>
    let (result, mounted) := apply step mounted
    (result.mapError .document, mounted)

/-- The message of a cycle that failed. -/
def failureMessage (cycle : Nat) (error : CycleError) : String :=
  "cycle " ++ toString cycle ++ ": " ++ error.message

/-- Carries out cycles one after the other, up to an error that ends the work. -/
def runCycles (workload : Workload) (seed : Nat) :
    List Nat → Metrics → MountedSet → Except CycleError Metrics × MountedSet
  | [], metrics, mounted => (.ok metrics, mounted)
  | cycle :: rest, metrics, mounted =>
    match runCycle workload seed cycle mounted with
    | (.ok (), mounted) => runCycles workload seed rest metrics.addSuccess mounted
    | (.error error, mounted) =>
      if error.isFatal then (.error error, mounted)
      else runCycles workload seed rest (metrics.addFailure (failureMessage cycle error)) mounted

/-- What came of the cycles of some workers and of those of the next.  Nothing is told when the work
of one of them was ended. -/
def mergeWork (work own : Except CycleError Metrics) : Except CycleError Metrics := do
  let metrics ← work
  let other ← own
  pure (metrics.merge other)

/-- Carries out the cycles of several workers, one worker after the other. -/
def runWorkers (workload : Workload) (range : CycleRange) (workers : Nat) :
    List Nat → Except CycleError Metrics → MountedSet → Except CycleError Metrics × MountedSet
  | [], work, mounted => (work, mounted)
  | worker :: rest, work, mounted =>
    let (own, mounted) :=
      runCycles workload range.seed (range.cyclesOf workers worker) .none mounted
    runWorkers workload range workers rest (mergeWork work own) mounted

/-- Carries out a range of cycles with so many workers.  The documents stay open. -/
def populate (workload : Workload) (range : CycleRange) (workers : Nat) (mounted : MountedSet) :
    Except CycleError Metrics × MountedSet :=
  runWorkers workload range workers (List.range workers) (.ok .none) mounted

end MountedSet

end XmlWorkload
