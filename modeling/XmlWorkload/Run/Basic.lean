import XmlWorkload.Document.Space
import XmlWorkload.Run.Populate
import XmlWorkload.Workload.Reader

/-!
# Runs

A run loads a workload, makes its output directory ready, carries out a range of cycles, closes the
documents and sums up what was written.  A dry run only shows what the first cycles would do.
-/

set_option autoImplicit false

namespace XmlWorkload

/-- What a run is asked for. -/
structure RunRequest where
  workload : String
  outputDirectory : String
  /-- The name of the root element, if it is not that of the workload. -/
  root : Option String
  cycles : Nat
  startCycle : Nat
  threads : Nat
  /-- The seed, if it is not that of the workload. -/
  seed : Option Nat
  dryRun : Bool
  deriving DecidableEq, Repr

/-- The number and the size of the documents in a directory. -/
structure FileTally where
  files : Nat
  bytes : Nat
  deriving DecidableEq, Repr

/-- What came of a run. -/
structure RunReport where
  seed : Nat
  root : String
  outputDirectory : String
  /-- What came of the cycles; none for a dry run. -/
  metrics : Option Metrics
  output : FileTally

/-- Why a run failed. -/
inductive RunError where
  | workload (path : String) (error : LoadError)
  | noThreads
  /-- A cycle of a dry run could not be resolved. -/
  | unresolved (error : CycleError)
  /-- An error that ends the work ended the run itself, which was a dry run. -/
  | aborted (error : CycleError)
  /-- The output directory could not be made ready. -/
  | directory (path : String) (error : Error)
  /-- The output directory could not be read. -/
  | unreadable (path : String) (fault : IoFault)
  /-- An error that ends the work ended that of a worker.  The documents were closed all the same. -/
  | stopped (error : CycleError) (closed : Except Error Unit)
  | failedCycles (count : Nat)
  | unclosed (error : Error)

/-- The wording of why a worker stopped.  The number of its task is left out; no input decides it. -/
def workerMessage (error : CycleError) : String :=
  "Worker failed: task panicked with message " ++ Text.quoted error.message

/-- The wording of why a run failed, what was to be done before what went wrong.  A run that is ended
itself has no other words than those of the error. -/
def RunError.chain : RunError → List String
  | .workload path error =>
    ["Failed to load workload from " ++ Text.quoted path, error.message]
  | .noThreads => ["--threads must be at least 1"]
  | .unresolved error => ["Failed to resolve workload cycles", error.message]
  | .aborted error => [error.message]
  | .directory path error =>
    ["Failed to prepare output directory " ++ Text.quoted path, error.message]
  | .unreadable path fault =>
    ["Failed to read output directory " ++ Text.quoted path, fault.message]
  | .stopped error (.ok ()) => ["Populate failed", workerMessage error]
  | .stopped error (.error failure) =>
    ["Populate failed; documents did not close either: " ++ failure.message, workerMessage error]
  | .failedCycles count => ["Populate failed with " ++ toString count ++ " failed cycle(s)"]
  | .unclosed error => ["Populate failed: documents did not close cleanly", error.message]

/-- What a run leaves behind besides the disk. -/
structure RunOutcome where
  log : List String
  /-- The report, or why there is none. -/
  result : Except RunError RunReport

namespace Run

/-- The seed of a run for which neither the request nor the workload has one. -/
def usualSeed : Nat := 42

/-- How many cycles a dry run shows. -/
def dryRunCycles : Nat := 5

/-- The name of the space of a run. -/
def spaceName : String := "populate"

/-- The workload at a path. -/
def loadWorkload (path : String) (disk : Disk) : Except LoadError Workload := do
  let text ← (disk.readText path).mapError (.unreadable path)
  Workload.ofText text

/-- Whether an entry of a directory is a document. -/
def isDocument (name : String) : Bool := Path.ending? name == some "xml"

/-- The number and the size of the documents in a directory. -/
def summarize (directory : String) (disk : Disk) : Except IoFault FileTally := do
  match ← disk.lookup directory with
  | (_, .file _) => throw .notDirectory
  | (location, .directory) =>
    let sizes := (disk.children location).filterMap fun
      | (name, .file number) =>
        if isDocument name then some (disk.contents.getD number .empty).size else none
      | (_, .directory) => none
    pure ⟨sizes.length, sizes.foldl Nat.add 0⟩

/-- The seed of a run. -/
def seedOf (request : RunRequest) (workload : Workload) : Nat :=
  (request.seed.orElse fun _ => workload.seed).getD usualSeed

/-- The name of the root element of the documents of a run. -/
def rootOf (request : RunRequest) (workload : Workload) : String :=
  request.root.getD workload.root

/-- The first lines that a dry run shows. -/
def dryRunHeader (request : RunRequest) (workload : Workload) : List String :=
  ["[DRY-RUN] Would populate " ++ toString request.cycles ++ " cycle(s) from cycle " ++
      toString request.startCycle ++ " into " ++ Text.quoted request.outputDirectory ++
      " with root '" ++ rootOf request workload ++ "' (seed=" ++
      toString (seedOf request workload) ++ ", threads=" ++ toString request.threads ++ ")",
    "[DRY-RUN] Workload has " ++ toString workload.operations.length ++ " op(s) over " ++
      toString workload.files ++ " default file(s)"]

/-- The line that shows what a cycle would do. -/
def dryRunLine (step : CycleStep) : String :=
  "[DRY-RUN] cycle " ++ toString step.cycle ++ " (" ++ step.name ++ "): " ++ step.command.name ++
    " " ++ Text.quotedList step.path ++ " -> " ++ DocumentSet.fileName step.file

/-- The last line that a dry run shows. -/
def dryRunFooter : String := "[DRY-RUN] Workload validated successfully"

/-- Shows what the first cycles would do. -/
def showCycles (request : RunRequest) (workload : Workload) : RunOutcome :=
  let seed := seedOf request workload
  let range : CycleRange := ⟨seed, request.startCycle, min request.cycles dryRunCycles⟩
  match workload.resolveAll seed range.cycles with
  | .error error => ⟨dryRunHeader request workload,
      .error (if error.isFatal then .aborted error else .unresolved error)⟩
  | .ok steps =>
    ⟨dryRunHeader request workload ++ steps.map dryRunLine ++ [dryRunFooter],
      .ok ⟨seed, rootOf request workload, request.outputDirectory, none, ⟨0, 0⟩⟩⟩

/-- The outcome of a run whose cycles were carried out and whose documents were closed.  There is
nothing to sum up when the work of a worker was ended. -/
def conclude (request : RunRequest) (workload : Workload) (work : Except CycleError Metrics)
    (closed : Except Error Unit) (disk : Disk) : Except RunError RunReport := do
  let metrics ← work.mapError (.stopped · closed)
  let output ← (summarize request.outputDirectory disk).mapError
    (.unreadable request.outputDirectory)
  if 0 < metrics.failures then throw (.failedCycles metrics.failures)
  closed.mapError .unclosed
  pure ⟨seedOf request workload, rootOf request workload, request.outputDirectory, some metrics,
    output⟩

/-- Carries out the cycles of a run. -/
def writeCycles (request : RunRequest) (workload : Workload) (disk : Disk) :
    Except RunError RunReport × Disk :=
  let space : MountedSpace := ⟨.new spaceName .shared, disk⟩
  let directory := request.outputDirectory
  match MountedSpace.requestDocuments directory (rootOf request workload) space with
  | (.error error, space) => (.error (.directory directory error), space.disk)
  | (.ok _, space) =>
    let range : CycleRange := ⟨seedOf request workload, request.startCycle, request.cycles⟩
    let (work, space) := space.onSet (MountedSet.populate workload range request.threads)
    let (closed, space) := MountedSpace.close space
    (conclude request workload (work.getD (.ok .none)) closed space.disk, space.disk)

/-- Carries out a run. -/
def perform (request : RunRequest) (disk : Disk) : RunOutcome × Disk :=
  match loadWorkload request.workload disk with
  | .error error => (⟨[], .error (.workload request.workload error)⟩, disk)
  | .ok workload =>
    if request.threads = 0 then (⟨[], .error .noThreads⟩, disk)
    else if request.dryRun then (showCycles request workload, disk)
    else
      let (result, disk) := writeCycles request workload disk
      (⟨[], result⟩, disk)

end Run

end XmlWorkload
