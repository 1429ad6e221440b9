import XmlWorkload.Disk.FileWriter
import XmlWorkload.Document.Basic
import XmlWorkload.Sink.XmlStream

/-!
# Sets of documents

The documents of one run, each in a file of its own that is named by an index.  A document is made
when its index is first used.  Looking a document up and writing to it are two steps, between which
others may act; whoever looked a document up can use it until it is let go, also after the set was
closed.  A document that nobody can use any more brings what it holds back to its file.
-/

set_option autoImplicit false

namespace XmlWorkload

/-- How documents are written to their files. -/
structure Engine where
  /-- How many bytes of a document are collected before its file receives them. -/
  bufferSize : Nat
  declaration : Bool
  deriving DecidableEq, Repr

/-- The engine with the usual settings. -/
def Engine.shared : Engine := ⟨64 * 1024, true⟩

/-- A document that is written to a file. -/
abbrev FileDocument := Document (XmlStream FileWriter)

/-- A document on the disk that its file lies on. -/
abbrev MountedDocument := Document (XmlStream MountedWriter)

namespace FileDocument

/-- The document on a disk. -/
def mount (document : FileDocument) (disk : Disk) : MountedDocument :=
  { document with sink := document.sink.withOutput ⟨document.sink.output, disk⟩ }

/-- The document apart from the disk. -/
def unmount (document : MountedDocument) : FileDocument :=
  { document with sink := document.sink.withOutput document.sink.output.writer }

/-- An action on a document, carried out on a disk. -/
def act {α : Type} (action : Action MountedDocument α) : Action (FileDocument × Disk) α :=
  fun (document, disk) =>
    let (result, document) := action (mount document disk)
    (result, unmount document, document.sink.output.disk)

/-- The disk after a document that nobody can use any more has brought what it holds back to its
file, as far as the disk takes it. -/
def discard (document : FileDocument) (disk : Disk) : Disk :=
  (MountedWriter.flush ⟨document.sink.output, disk⟩).2.disk

end FileDocument

/-- A document with the number of those who can use it. -/
structure SharedDocument where
  document : FileDocument
  /-- How many can use it: the set, and whoever looked it up and did not let it go. -/
  holders : Nat

/-- The documents of one run. -/
structure DocumentSet where
  /-- The path of the directory of the files. -/
  directory : String
  /-- The name of the root element of each document. -/
  root : String
  engine : Engine
  /-- The indices with the numbers of their documents, in the order of their creation. -/
  registry : List (Nat × Nat)
  isClosed : Bool
  documents : Array SharedDocument

/-- A set of documents on the disk that their files lie on. -/
structure MountedSet where
  set : DocumentSet
  disk : Disk

/-- A document that could not be closed. -/
structure UnclosedDocument where
  index : Nat
  label : String
  error : Error

/-- The notice that a document could not be closed. -/
def UnclosedDocument.notice (failure : UnclosedDocument) : String :=
  "Failed to close " ++ failure.label ++ ": " ++ failure.error.message

namespace DocumentSet

/-- The name of the file with an index. -/
def fileName (index : Nat) : String := "xml" ++ toString index ++ ".xml"

/-- The path of the file with an index. -/
def filePath (set : DocumentSet) (index : Nat) : String := Path.join set.directory (fileName index)

/-- The indices in use, ascending. -/
def indices (set : DocumentSet) : List Nat := (set.registry.map Prod.fst).mergeSort

/-- Makes a directory ready: a missing one is made, with those above it, and an existing one is
emptied. -/
def prepare (directory : String) : Action Disk Unit := fun disk =>
  match disk.lookup directory with
  | .error _ =>
    let (result, disk) := disk.createDirectories directory
    (result.mapError fun fault => .outputDirectory directory (.notCreated fault), disk)
  | .ok (_, .file _) => (.error (.outputDirectory directory .taken), disk)
  | .ok (location, .directory) => (.ok (), disk.removeBelow location false)

/-- An empty set of documents in a directory, which is made ready first. -/
def create (directory root : String) (engine : Engine) : Action Disk DocumentSet := do
  Action.ofExcept (Name.validate root)
  prepare directory
  pure ⟨directory, root, engine, [], false, #[]⟩

end DocumentSet

namespace MountedSet

/-- The number of the document with an index. -/
def find? (mounted : MountedSet) (index : Nat) : Option Nat :=
  (mounted.set.registry.find? fun entry => entry.1 == index).map Prod.snd

/-- One more can use the document with a number. -/
def hold (number : Nat) (mounted : MountedSet) : MountedSet :=
  { mounted with set := { mounted.set with
      documents := mounted.set.documents.modify number fun shared =>
        { shared with holders := shared.holders + 1 } } }

/-- One less can use the document with a number. -/
def release (number : Nat) (mounted : MountedSet) : MountedSet :=
  match mounted.set.documents[number]? with
  | none => mounted
  | some shared =>
    let disk := if shared.holders = 1 then shared.document.discard mounted.disk else mounted.disk
    ⟨{ mounted.set with
        documents := mounted.set.documents.modify number fun shared =>
          { shared with holders := shared.holders - 1 } }, disk⟩

/-- Makes the file and the document with an index, which only the set can use at first, and gives
the number of the document. -/
def addDocument (index : Nat) : Action MountedSet Nat := fun mounted =>
  let set := mounted.set
  let path := set.filePath index
  match mounted.disk.createFile path with
  | (.error .alreadyExists, disk) => (.error (.fileExists path), { mounted with disk })
  | (.error fault, disk) => (.error (.io fault), { mounted with disk })
  | (.ok file, disk) =>
    let writer : MountedWriter := ⟨⟨file, 0, .empty, set.engine.bufferSize⟩, disk⟩
    match XmlStream.create writer set.root set.engine.declaration with
    | (.error error, writer) => (.error error, { mounted with disk := writer.flush.2.disk })
    | (.ok stream, _) =>
      let document := Document.new path stream
      let number := set.documents.size
      (.ok number,
        ⟨{ set with
            registry := set.registry ++ [(index, number)]
            documents := set.documents.push ⟨FileDocument.unmount document, 1⟩ },
          stream.output.disk⟩)

/-- Looks up the document with an index, which is made on first use, and gives its number.  It can
be used until it is released. -/
def acquire (index : Nat) : Action MountedSet Nat := do
  let mounted ← Action.getState
  if mounted.set.isClosed then Action.fail .documentSetClosed
  else
    let number ← match mounted.find? index with
      | some number => pure number
      | none => addDocument index
    Action.change (hold number)
    pure number

/-- An action on the document with a number. -/
def onDocument (number : Nat) (action : Action MountedDocument Unit) : Action MountedSet Unit :=
  fun mounted =>
    match mounted.set.documents[number]? with
    | none => (.ok (), mounted)
    | some shared =>
      let (result, document, disk) := FileDocument.act action (shared.document, mounted.disk)
      (result,
        ⟨{ mounted.set with
            documents := mounted.set.documents.modify number fun shared =>
              { shared with document } },
          disk⟩)

/-- Writes a template at a path of the document with a number. -/
def emitTo (number : Nat) (path : List String) (template : Template) :
    Action MountedSet Unit :=
  onDocument number (Document.emit path template)

/-- Closes the document with a number. -/
def closeOne (number : Nat) : Action MountedSet Unit := onDocument number Document.close

/-- Writes a template at a path of the document with an index. -/
def emit (index : Nat) (path : List String) (template : Template) :
    Action MountedSet Unit := do
  let number ← acquire index
  let result ← (emitTo number path template).attempt
  Action.change (release number)
  Action.ofExcept result

/-- Closes the set and takes its documents out of it, with their indices ascending. -/
def drain (mounted : MountedSet) : List (Nat × Nat) × MountedSet :=
  (mounted.set.registry.mergeSort fun a b => decide (a.1 ≤ b.1),
    { mounted with set := { mounted.set with registry := [], isClosed := true } })

/-- Closes the document with an index and lets it go. -/
def closeDrained (entry : Nat × Nat) (mounted : MountedSet) :
    Option UnclosedDocument × MountedSet :=
  let label := (mounted.set.documents[entry.2]?.map fun shared => shared.document.label).getD ""
  match closeOne entry.2 mounted with
  | (.ok (), mounted) => (none, mounted.release entry.2)
  | (.error error, mounted) => (some ⟨entry.1, label, error⟩, mounted.release entry.2)

/-- Closes documents one after the other, whatever becomes of each. -/
def closeAll : List (Nat × Nat) → MountedSet → List UnclosedDocument × MountedSet
  | [], mounted => ([], mounted)
  | entry :: rest, mounted =>
    let (failure, mounted) := closeDrained entry mounted
    let (failures, mounted) := closeAll rest mounted
    (failure.toList ++ failures, mounted)

/-- Closes the set and every document in it, and gives those that could not be closed. -/
def closeDocuments (mounted : MountedSet) : List UnclosedDocument × MountedSet :=
  let (entries, mounted) := mounted.drain
  closeAll entries mounted

/-- The outcome of closing a set. -/
def closeResult (failures : List UnclosedDocument) : Except Error Unit :=
  if failures.isEmpty then .ok ()
  else .error (.unclosedDocuments (failures.map fun failure => (failure.index, failure.error)))

/-- Closes the set and every document in it. -/
def close : Action MountedSet Unit := fun mounted =>
  let (failures, mounted) := mounted.closeDocuments
  (closeResult failures, mounted)

/-- The disk after every document that somebody can still use was let go. -/
def abandon (mounted : MountedSet) : Disk :=
  mounted.set.documents.foldl
    (fun disk shared => if shared.holders = 0 then disk else shared.document.discard disk)
    mounted.disk

end MountedSet

end XmlWorkload
