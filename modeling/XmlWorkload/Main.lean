import XmlWorkload.CommandLine

/-!
# The program

The outer layer: it shows the library the part of the disk that a run looks at, and brings to the
disk what the run left there.
-/

set_option autoImplicit false

namespace XmlWorkload.Program

/-- The disk with what really stands at the end of a path, and the bytes of it if it is a file and
they are asked for. -/
def observe (disk : Disk) (path : String) (withBytes : Bool) : IO Disk := do
  match disk.locate path with
  | .error _ => pure disk
  | .ok location =>
    if (disk.entry? location).isSome then pure disk
    else
      let place := (← IO.currentDir) / path
      if ← place.isDir then pure (disk.addEntry location .directory)
      else if ← place.pathExists then
        let bytes ← if withBytes then IO.FS.readBinFile place else pure .empty
        let number := disk.contents.size
        pure { disk.addEntry location (.file number) with contents := disk.contents.push bytes }
      else pure disk

/-- The disk with what really stands at the end of a path and above it. -/
def observeAll (disk : Disk) (path : String) (withBytes : Bool) : IO Disk :=
  (Disk.ancestors path).foldlM (fun disk above => observe disk above withBytes) disk

/-- The disk with what really stands in the directory at a path. -/
def observeChildren (disk : Disk) (path : String) : IO Disk := do
  let place := (← IO.currentDir) / path
  if ← place.isDir then
    let children ← place.readDir
    children.foldlM
      (fun disk child => observe disk (Path.join path child.fileName) false) disk
  else pure disk

/-- The part of the disk that a run looks at. -/
def observeFor (request : RunRequest) : IO Disk := do
  let directory := toString (← IO.currentDir)
  let disk ← observeAll .empty directory false
  let disk := { disk with workingDirectory := Path.names directory }
  let disk ← observeAll disk request.workload true
  let disk ← observeAll disk request.outputDirectory false
  observeChildren disk request.outputDirectory

/-- Empties the real directory at a path, or makes it. -/
def prepare (path : String) : IO Unit := do
  let place := (← IO.currentDir) / path
  if ← place.isDir then
    for entry in ← place.readDir do
      if ← entry.path.isDir then IO.FS.removeDirAll entry.path
      else IO.FS.removeFile entry.path
  else IO.FS.createDirAll place

/-- Brings the documents of a run to the real directory at a path. -/
def store (disk : Disk) (path : String) : IO Unit := do
  match disk.lookup path with
  | .ok (location, .directory) =>
    prepare path
    for (name, entry) in disk.children location do
      match entry with
      | .file number =>
        IO.FS.writeBinFile (Path.join path name) (disk.contents.getD number .empty)
      | .directory => pure ()
  | _ => pure ()

/-- Carries out what the words of a command line ask for, and gives the exit code. -/
def execute (words : List String) : IO UInt32 := do
  let before ← match CommandLine.interpret words with
    | .run request => observeFor request
    | _ => pure .empty
  let (outcome, after) := CommandLine.perform words before
  match CommandLine.interpret words with
  | .run request =>
    if after.entries != before.entries then store after request.outputDirectory
  | _ => pure ()
  for line in outcome.output do IO.println line
  for line in outcome.errors do IO.eprintln line
  pure outcome.exitCode.toUInt32

end XmlWorkload.Program

/-- Runs the program. -/
def main (words : List String) : IO UInt32 := do
  try XmlWorkload.Program.execute words
  catch error =>
    IO.eprintln ("Error: " ++ toString error)
    pure 1
