import XmlWorkload.Pattern
import XmlWorkload.Random.ChaCha
import XmlWorkload.Text.Blank
import XmlWorkload.Workload.Basic

/-!
# Cycles

What one cycle of a run does: the operation whose turn it is, with every pattern in it filled in.
The random texts of a cycle depend on nothing but the seed of the run and the cycle, and they are
drawn for the file index first, then for the path, and then for the template.  A text that would
become longer than any text can be is an error like no other: it ends the work of whoever meets it.
-/

set_option autoImplicit false

namespace XmlWorkload

/-- What one cycle does. -/
structure CycleStep where
  cycle : Nat
  name : String
  command : Command
  file : Nat
  path : List String
  template : Template

/-- Why a cycle did not do what it should. -/
inductive CycleError where
  | fileIndex (cycle : Nat) (value : String)
  /-- A number in a text was to have more digits than a text can have. -/
  | overflow
  | document (error : Error)

/-- The wording of why a cycle did not do what it should. -/
def CycleError.message : CycleError → String
  | .fileIndex cycle value =>
    "Cycle " ++ toString cycle ++ ": file pattern resolved to '" ++ value ++
      "', expected an unsigned integer"
  | .overflow => "capacity overflow"
  | .document error => error.message

/-- Whether an error ends the work of the one who meets it, and not only the cycle. -/
def CycleError.isFatal : CycleError → Bool
  | .overflow => true
  | .fileIndex _ _ | .document _ => false

namespace Operation

variable {ρ : Type} [Random.WordSource ρ]

/-- Texts with the patterns in each filled in, in order. -/
def fillAll (index : Nat) : List String → Random.Draw ρ (List String)
  | [] => pure []
  | pattern :: rest => do
    let text ← Pattern.resolve pattern index
    let texts ← fillAll index rest
    pure (text :: texts)

/-- The text that names the file of an operation with its pattern filled in, if there is one. -/
def fillFile (operation : Operation) (index : Nat) : Random.Draw ρ (Option String) :=
  match operation.file with
  | none => pure none
  | some pattern => do
    let text ← Pattern.resolve pattern index
    pure (some text)

/-- The path and the template of an operation with their patterns filled in. -/
def fill (operation : Operation) (index : Nat) : Random.Draw ρ (List String × Template) := do
  let path ← fillAll index operation.path
  let template ← operation.template.mapTextM fun text => Pattern.resolve text index
  pure (path, template)

end Operation

/-- The file index that a text writes, white space around it aside. -/
def readFileIndex? (text : String) : Option Nat :=
  Decimal.readUnsigned? Decimal.wordBound (Text.trimBlank text.toList)

namespace Workload

/-- The index of the file of a cycle.  Cycles whose operation names no file are spread over the
files of the workload. -/
def fileOf (workload : Workload) (cycle : Nat) (text : Option String) : Except CycleError Nat :=
  match text with
  | none => .ok (cycle % workload.files)
  | some text =>
    match readFileIndex? text with
    | some index => .ok index
    | none => .error (.fileIndex cycle text)

/-- What a draw has come to.  It comes to nothing where a text would become too long. -/
def orOverflow {α : Type} : Option α → Except CycleError α
  | some drawn => .ok drawn
  | none => .error .overflow

/-- A draw has come to something exactly if there is something that was drawn. -/
theorem orOverflow_eq_ok_iff {α : Type} {drawn : Option α} {result : α} :
    orOverflow drawn = .ok result ↔ drawn = some result := by
  cases drawn <;> simp [orOverflow]

/-- What a cycle of a run does.  The index of its file is read before anything else is filled in. -/
def resolve (workload : Workload) (seed cycle : Nat) : Except CycleError CycleStep := do
  let operation := workload.operationOf cycle
  let stream := Random.cycleStream seed.toUInt64 cycle.toUInt64
  let named ← orOverflow ((operation.fillFile cycle).run stream)
  let file ← workload.fileOf cycle named.1
  let filled ← orOverflow ((operation.fill cycle).run named.2)
  pure ⟨cycle, operation.name, operation.command, file, filled.1.1, filled.1.2⟩

/-- A cycle that resolves does what its operation says, with texts from the stream of the cycle. -/
theorem eq_of_resolve {workload : Workload} {seed cycle : Nat} {step : CycleStep}
    (h : workload.resolve seed cycle = .ok step) :
    let operation := workload.operationOf cycle
    ∃ named file filled, (operation.fillFile cycle).run
        (Random.cycleStream seed.toUInt64 cycle.toUInt64) = some named ∧
      workload.fileOf cycle named.1 = .ok file ∧
      (operation.fill cycle).run named.2 = some filled ∧
      step = ⟨cycle, operation.name, operation.command, file, filled.1.1, filled.1.2⟩ := by
  intro operation
  unfold resolve at h
  simp only [bind, Except.bind, pure, Except.pure] at h
  split at h
  · cases h
  · next named hnamed =>
    split at h
    · cases h
    · next file hfile =>
      split at h
      · cases h
      · next filled hfilled =>
        cases h
        exact ⟨named, file, filled, orOverflow_eq_ok_iff.1 hnamed, hfile,
          orOverflow_eq_ok_iff.1 hfilled, rfl⟩

/-- What the cycles of a row do, up to the first that cannot be resolved. -/
def resolveAll (workload : Workload) (seed : Nat) : List Nat → Except CycleError (List CycleStep)
  | [] => .ok []
  | cycle :: rest => do
    let step ← workload.resolve seed cycle
    let steps ← workload.resolveAll seed rest
    pure (step :: steps)

end Workload

end XmlWorkload
