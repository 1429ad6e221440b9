import XmlWorkload.Workload.Basic

/-!
# Reading workloads

The declaration of a workload is the one document of a text.  Every field has a form of its own, no
field may be unknown or stand twice, and a field that may be left out may also be given as an absent
value.  A text field takes a scalar as it is written.
-/

set_option autoImplicit false

namespace XmlWorkload

namespace Yaml.Node

/-- Whether an optional field is absent: an empty scalar or a word for the absent value, without
quotes.  The tag for absent values takes such a word only. -/
def isAbsent? (node : Node) : Option Bool :=
  match node with
  | .scalar tag text .plain =>
    match tag with
    | none => some (text == "" || isNullWord text)
    | some tag =>
      if tag = .core "null" then if isNullWord text then some true else none
      else some false
  | _ => some false

/-- The value of an optional field. -/
def optional? {α : Type} (read : Node → Option α) (node : Node) : Option (Option α) := do
  if ← isAbsent? node then some none else (read node).map some

/-- The text of a scalar, as it is written. -/
def text? (node : Node) : Option String :=
  match node with
  | .scalar _ text _ => some text
  | _ => none

/-- The number that a scalar without quotes writes. -/
def word? (node : Node) : Option Nat :=
  match node with
  | .scalar tag text style =>
    if style = .plain ∨ (style = .literal ∧ tag = some (Tag.core "int")) then
      (readPositive? text.toList).filter (· < Decimal.wordBound)
    else none
  | _ => none

/-- The entries of a sequence; none for an empty scalar. -/
def items? (node : Node) : Option (List Node) :=
  match node with
  | .sequence _ items => some items
  | _ => if node.isBlank then some [] else none

/-- The members of a mapping; none for an empty scalar. -/
def members? (node : Node) : Option (List (Node × Node)) :=
  match node with
  | .mapping _ members => some members
  | _ => if node.isBlank then some [] else none

/-- The content that a node gives. -/
def content? (node : Node) : Option Content := (Value.ofNode? node).map Value.toContent

/-- The content map that a node gives. -/
def contentMap? (node : Node) : Option ContentMap := do
  let members ← node.members?
  let values ← Value.ofMembers? [] members
  some (Value.contentMapOf values)

/-- The fields of a record, whose names must be known and different. -/
def fields? (known : List String) : List (Node × Node) → Option (List (String × Node))
  | [] => some []
  | (key, value) :: rest => do
    let name ← key.text?
    let fields ← fields? known rest
    if known.contains name && !fields.any fun field => field.1 == name then
      some ((name, value) :: fields)
    else none

end Yaml.Node

open Yaml (Node)

/-- The node of a field. -/
def fieldOf? (fields : List (String × Node)) (name : String) : Option Node :=
  (fields.find? fun field => field.1 == name).map Prod.snd

/-- The value of an optional field. -/
def optionalField? {α : Type} (read : Node → Option α) (fields : List (String × Node))
    (name : String) : Option (Option α) :=
  match fieldOf? fields name with
  | none => some none
  | some node => node.optional? read

namespace OperationDeclaration

/-- The names of the fields of an operation. -/
def fieldNames : List String := ["name", "command", "file", "path", "attrs", "children", "body"]

/-- The operation that a node declares. -/
def ofNode? (node : Node) : Option OperationDeclaration := do
  let members ← node.members?
  let fields ← Node.fields? fieldNames members
  let name ← optionalField? Node.text? fields "name"
  let command ← optionalField? Node.text? fields "command"
  let file ← optionalField? Node.content? fields "file"
  let path ← match fieldOf? fields "path" with
    | none => some []
    | some node => do
      let items ← node.items?
      items.mapM Node.text?
  let attrs ← optionalField? Node.content? fields "attrs"
  let children ← optionalField? Node.contentMap? fields "children"
  let body ← optionalField? Node.content? fields "body"
  some ⟨name, command, file, path, attrs, children, body⟩

end OperationDeclaration

namespace WorkloadDeclaration

/-- The names of the fields of a workload. -/
def fieldNames : List String := ["seed", "root", "files", "ops"]

/-- The workload that a node declares. -/
def ofNode? (node : Node) : Option WorkloadDeclaration := do
  let members ← node.members?
  let fields ← Node.fields? fieldNames members
  let seed ← optionalField? Node.word? fields "seed"
  let root ← optionalField? Node.text? fields "root"
  let files ← match fieldOf? fields "files" with
    | none => some none
    | some node => node.word?.map some
  let operations ← match fieldOf? fields "ops" with
    | none => some []
    | some node => do
      let items ← node.items?
      items.mapM OperationDeclaration.ofNode?
  some ⟨seed, root, files, operations⟩

/-- The workload that a text declares. -/
def ofText? (text : String) : Option WorkloadDeclaration := do
  match ← Node.ofText? text with
  | none => some ⟨none, none, none, []⟩
  | some node => ofNode? node

/-- The notices about the operations of a workload, in order. -/
def notices (declaration : WorkloadDeclaration) : List String :=
  declaration.operations.filterMap OperationDeclaration.notice?

end WorkloadDeclaration

/-- Why a workload could not be loaded. -/
inductive LoadError where
  | unreadable (path : String) (fault : IoFault)
  /-- Its text is no declaration of a workload. -/
  | malformed
  | unusable (fault : WorkloadFault)

/-- The wording of why a workload could not be loaded. -/
def LoadError.message : LoadError → String
  | .unreadable path fault => "Failed to read workload " ++ path ++ ": " ++ fault.message
  | .malformed => "Failed to parse workload YAML"
  | .unusable fault => "Invalid workload: " ++ fault.message

/-- The workload that a text declares. -/
def Workload.ofText (text : String) : Except LoadError Workload := do
  let some declaration := WorkloadDeclaration.ofText? text | throw .malformed
  declaration.check.mapError .unusable

end XmlWorkload
