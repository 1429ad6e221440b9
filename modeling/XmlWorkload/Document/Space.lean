import XmlWorkload.Document.Set

/-!
# Spaces

A named session that owns at most one set of documents.  The first request that succeeds makes it,
and every later one is given the same set, whatever it asks for.
-/

set_option autoImplicit false

namespace XmlWorkload

/-- A named session that owns at most one set of documents. -/
structure Space where
  name : String
  engine : Engine
  /-- The set of documents, once it was made. -/
  documents : Option DocumentSet

/-- A space on a disk. -/
structure MountedSpace where
  space : Space
  disk : Disk

namespace Space

/-- A space without documents. -/
def new (name : String) (engine : Engine) : Space := ⟨name, engine, none⟩

/-- The notice that a request for other documents than those of the space had no effect; none if the
request agrees with them. -/
def ignoredNotice? (space : Space) (existing : DocumentSet) (directory root : String) :
    Option String :=
  if Path.same existing.directory directory && existing.root == root then none
  else
    some ("Space '" ++ space.name ++ "' already writes to " ++ existing.directory ++
      " with root '" ++ existing.root ++ "'; ignoring " ++ directory ++ " with root '" ++ root ++
      "'")

end Space

namespace MountedSpace

/-- Makes the set of documents on the first request; later requests are given the same set, with a
notice if they ask for another one. -/
def requestDocuments (directory root : String) :
    Action MountedSpace (DocumentSet × Option String) := fun mounted =>
  match mounted.space.documents with
  | some existing =>
    (.ok (existing, mounted.space.ignoredNotice? existing directory root), mounted)
  | none =>
    match DocumentSet.create directory root mounted.space.engine mounted.disk with
    | (.error error, disk) => (.error error, { mounted with disk })
    | (.ok set, disk) => (.ok (set, none), ⟨{ mounted.space with documents := some set }, disk⟩)

/-- The outcome of an action on the set of documents; none if there is no set. -/
def onSet {α : Type} (action : MountedSet → α × MountedSet) (mounted : MountedSpace) :
    Option α × MountedSpace :=
  match mounted.space.documents with
  | none => (none, mounted)
  | some set =>
    let (result, changed) := action ⟨set, mounted.disk⟩
    (some result, ⟨{ mounted.space with documents := some changed.set }, changed.disk⟩)

/-- Closes the set of documents, if there is one, and gives the documents that could not be
closed. -/
def closeDocuments (mounted : MountedSpace) : List UnclosedDocument × MountedSpace :=
  let (failures, mounted) := mounted.onSet MountedSet.closeDocuments
  (failures.getD [], mounted)

/-- Closes the set of documents, if there is one. -/
def close : Action MountedSpace Unit := fun mounted =>
  let (failures, mounted) := mounted.closeDocuments
  (MountedSet.closeResult failures, mounted)

end MountedSpace

end XmlWorkload
