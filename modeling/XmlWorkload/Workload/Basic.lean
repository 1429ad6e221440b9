import XmlWorkload.Decimal.Unsigned
import XmlWorkload.Template.Element
import XmlWorkload.Yaml.Value

/-!
# Workloads

A workload names operations that a run cycles through, each of which writes an element at a path.
This module has the type and the checks that a workload passes before it is accepted.
-/

set_option autoImplicit false

namespace XmlWorkload

/-- What an operation does. -/
inductive Command where
  | element
  deriving DecidableEq, Repr

/-- The name of a command. -/
def Command.name : Command → String
  | .element => "element"

/-- One operation of a workload.  Its texts are patterns. -/
structure Operation where
  name : String
  command : Command
  /-- The pattern of the file index, if it has one of its own. -/
  file : Option String
  path : List String
  template : Template

/-- A workload. -/
structure Workload where
  seed : Option Nat
  /-- The name of the root element of each document. -/
  root : String
  /-- The number of files that cycles are spread over. -/
  files : Nat
  operations : List Operation
  files_pos : 0 < files
  operations_ne_nil : operations ≠ []

/-- What is wrong with an operation. -/
inductive OperationFault where
  | emptyPath
  | fileNotText (found : Content.Shape)
  | bodyNotText (found : Content.Shape)
  | template (error : Error)

/-- The wording of what is wrong with an operation. -/
def OperationFault.message : OperationFault → String
  | .emptyPath => "path must not be empty"
  | .fileNotText found => "file must be a scalar pattern, found " ++ found.word
  | .bodyNotText found => "body must be text, found " ++ found.word
  | .template error => error.message

/-- Why a workload cannot be used. -/
inductive WorkloadFault where
  | noOperations
  | noFiles
  /-- One of its operations is at fault. -/
  | operation (name : String) (fault : OperationFault)

/-- The wording of why a workload cannot be used. -/
def WorkloadFault.message : WorkloadFault → String
  | .noOperations => "at least one op is required"
  | .noFiles => "files must be at least 1"
  | .operation name fault => "op '" ++ name ++ "': " ++ fault.message

/-- An operation as it is declared. -/
structure OperationDeclaration where
  name : Option String
  command : Option String
  file : Option Content
  path : List String
  attrs : Option Content
  children : Option ContentMap
  body : Option Content
  deriving Inhabited

/-- A workload as it is declared. -/
structure WorkloadDeclaration where
  seed : Option Nat
  root : Option String
  files : Option Nat
  operations : List OperationDeclaration
  deriving Inhabited

namespace OperationDeclaration

/-- The command that is declared.  An unknown one counts as the usual one. -/
def resolvedCommand (_declaration : OperationDeclaration) : Command := .element

/-- The notice that an unknown command is declared; none for a known one. -/
def notice? (declaration : OperationDeclaration) : Option String :=
  match declaration.command with
  | none => none
  | some name =>
    if name = Command.element.name then none
    else some ("Unknown command '" ++ name ++ "', falling back to '" ++ Command.element.name ++ "'")

/-- The text of an optional field, which has to be a text. -/
def optionalText (fault : Content.Shape → OperationFault) :
    Option Content → Except OperationFault (Option String)
  | none => .ok none
  | some (.scalar text) => .ok (some text)
  | some other => .error (fault other.shape)

/-- The operation that is declared, under the name that it goes by. -/
def check (declaration : OperationDeclaration) (name : String) :
    Except OperationFault Operation := do
  if declaration.path = [] then throw .emptyPath
  let file ← optionalText .fileNotText declaration.file
  let attrs ← match declaration.attrs with
    | some value => (Template.attributesOf value).mapError .template
    | none => pure .empty
  let body ← optionalText .bodyNotText declaration.body
  let template : Template :=
    ⟨declaration.children.getD .empty, attrs, body.getD ""⟩
  let _ ← template.resolve.mapError .template
  pure ⟨name, declaration.resolvedCommand, file, declaration.path, template⟩

end OperationDeclaration

namespace WorkloadDeclaration

/-- The operations that are declared, the first of them at a position in the list.  An operation
without a name goes by its position. -/
def checkOperations : (position : Nat) → List OperationDeclaration →
    Except WorkloadFault (List Operation)
  | _, [] => .ok []
  | position, declaration :: rest => do
    let name := declaration.name.getD ("op" ++ toString position)
    let operation ← (declaration.check name).mapError (.operation name)
    let operations ← checkOperations (position + 1) rest
    pure (operation :: operations)

/-- There are as many operations as are declared. -/
theorem length_checkOperations {position : Nat} {declarations : List OperationDeclaration}
    {operations : List Operation} (h : checkOperations position declarations = .ok operations) :
    operations.length = declarations.length := by
  induction declarations generalizing position operations with
  | nil =>
    simp only [checkOperations, Except.ok.injEq] at h
    subst h
    rfl
  | cons declaration rest ih =>
    simp only [checkOperations, bind, Except.bind] at h
    split at h
    · simp at h
    · split at h
      · simp at h
      · next hrest =>
        simp only [pure, Except.pure, Except.ok.injEq] at h
        subst h
        simp [ih hrest]

/-- The name of the root element of a workload that does not name one. -/
def usualRoot : String := "root"

/-- The workload that is declared. -/
def check (declaration : WorkloadDeclaration) : Except WorkloadFault Workload :=
  let files := declaration.files.getD 1
  if hops : declaration.operations = [] then .error .noOperations
  else if hfiles : files = 0 then .error .noFiles
  else
    match h : checkOperations 0 declaration.operations with
    | .error fault => .error fault
    | .ok operations =>
      .ok ⟨declaration.seed, declaration.root.getD usualRoot, files, operations,
        Nat.pos_of_ne_zero hfiles, by
          intro hnil
          have hlength := length_checkOperations h
          rw [hnil] at hlength
          exact hops (List.eq_nil_of_length_eq_zero hlength.symm)⟩

end WorkloadDeclaration

namespace Workload

/-- The operation of a cycle: the operations take turns. -/
def operationOf (workload : Workload) (cycle : Nat) : Operation :=
  workload.operations.get ⟨cycle % workload.operations.length,
    Nat.mod_lt _ (List.length_pos_iff.2 workload.operations_ne_nil)⟩

end Workload

end XmlWorkload
