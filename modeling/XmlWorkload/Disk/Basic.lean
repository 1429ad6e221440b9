import XmlWorkload.Disk.Path
import XmlWorkload.Error

/-!
# The disk

Directories and files as a table of places.  A file has its contents apart from its place, so that
it can still be written to when its place is gone.  The disk may have room for so many bytes only.
-/

set_option autoImplicit false

namespace XmlWorkload

/-- What stands at a place of the disk. -/
inductive Entry where
  | directory
  | file (number : Nat)
  deriving DecidableEq, Repr

/-- The names that lead to a place from the root of the disk. -/
abbrev Location := List String

/-- The directories and files. -/
structure Disk where
  /-- Where paths that are not absolute start. -/
  workingDirectory : Location
  /-- What stands where.  The root is a directory without being listed. -/
  entries : List (Location × Entry)
  /-- The contents of the files, by number. -/
  contents : Array ByteArray
  /-- How many more bytes can be written, if there is a limit. -/
  room : Option Nat
  deriving Inhabited

namespace Disk

/-- The disk with nothing on it. -/
def empty : Disk := ⟨[], [], #[], none⟩

/-- What stands at a place. -/
def entry? (disk : Disk) (location : Location) : Option Entry :=
  if location = [] then some .directory
  else (disk.entries.find? fun entry => entry.1 == location).map Prod.snd

/-- The number of bytes that a name can take at most. -/
def nameLimit : Nat := 255

/-- The number of bytes that a path can take at most. -/
def pathLimit : Nat := 4095

/-- Refuses a path that no disk can have: one that is too long, or with a zero character in it. -/
def checkPath (path : String) : Except IoFault Unit :=
  if path.toList.contains '\x00' then .error .zeroInPath
  else if pathLimit < path.utf8ByteSize then .error .nameTooLong
  else .ok ()

/-- The place that names lead to.  Everything before the last name has to be a directory. -/
def walk (disk : Disk) : Location → List String → Except IoFault Location
  | location, [] => .ok location
  | location, name :: rest =>
    match disk.entry? location with
    | some .directory =>
      if nameLimit < name.utf8ByteSize then .error .nameTooLong
      else if name = "." then disk.walk location rest
      else if name = ".." then disk.walk location.dropLast rest
      else disk.walk (location ++ [name]) rest
    | some (.file _) => .error .notDirectory
    | none => .error .notFound

/-- The place that a path names. -/
def locate (disk : Disk) (path : String) : Except IoFault Location := do
  checkPath path
  disk.walk (if Path.isAbsolute path then [] else disk.workingDirectory) (Path.names path)

/-- The place that a path names with what stands there. -/
def lookup (disk : Disk) (path : String) : Except IoFault (Location × Entry) := do
  if path = "" then throw .notFound
  let location ← disk.locate path
  match disk.entry? location with
  | none => throw .notFound
  | some .directory => pure (location, .directory)
  | some (.file number) =>
    if Path.namesDirectory path then throw .notDirectory else pure (location, .file number)

/-- The disk with something at a place where nothing was. -/
def addEntry (disk : Disk) (location : Location) (entry : Entry) : Disk :=
  { disk with entries := disk.entries ++ [(location, entry)] }

/-- The disk without everything below a place, and without the place itself if that is asked for. -/
def removeBelow (disk : Disk) (location : Location) (inclusive : Bool) : Disk :=
  { disk with
    entries := disk.entries.filter fun entry =>
      !(location.isPrefixOf entry.1 && (inclusive || entry.1 != location)) }

/-- The names in a directory with what stands there. -/
def children (disk : Disk) (location : Location) : List (String × Entry) :=
  disk.entries.filterMap fun (place, entry) =>
    match place.getLast? with
    | some name => if place.dropLast == location then some (name, entry) else none
    | none => none

/-- Everything below a place by its path from there, the paths ascending: a directory has a slash at
its end, and a file its contents. -/
def listing (disk : Disk) (location : Location) : List (String × Option ByteArray) :=
  let below := disk.entries.filterMap fun (place, entry) =>
    if location.isPrefixOf place && place != location then
      let path := String.intercalate "/" (place.drop location.length)
      match entry with
      | .directory => some (path ++ "/", none)
      | .file number => some (path, some (disk.contents.getD number .empty))
    else none
  below.mergeSort fun a b => decide (a.1 ≤ b.1)

/-- Makes a directory. -/
def createDirectory (disk : Disk) (path : String) : Except IoFault Disk := do
  let location ← disk.locate path
  match disk.entry? location with
  | some (.file _) => throw (if Path.endsInDot path then .notDirectory else .alreadyExists)
  | some .directory => throw .alreadyExists
  | none =>
    if Path.endsInDot path then throw .notFound else pure (disk.addEntry location .directory)

/-- Whether a path names a directory. -/
def isDirectory (disk : Disk) (path : String) : Bool :=
  match disk.lookup path with
  | .ok (_, .directory) => true
  | _ => false

/-- Makes a directory unless it is there already. -/
def ensureDirectory (disk : Disk) (path : String) : Except IoFault Unit × Disk :=
  match disk.createDirectory path with
  | .ok disk => (.ok (), disk)
  | .error fault => if disk.isDirectory path then (.ok (), disk) else (.error fault, disk)

/-- Makes directories, each unless it is there already, up to the first that cannot be made. -/
def ensureDirectories : List String → Disk → Except IoFault Unit × Disk
  | [], disk => (.ok (), disk)
  | path :: rest, disk =>
    match disk.ensureDirectory path with
    | (.ok (), disk) => ensureDirectories rest disk
    | (.error fault, disk) => (.error fault, disk)

/-- The paths of the directories above a path, from the top, and the path itself. -/
def ancestors (path : String) : List String :=
  let names := Path.names path
  let root := if Path.isAbsolute path then "/" else ""
  let above := (List.range (names.length - 1)).map fun count =>
    root ++ String.intercalate "/" (names.take (count + 1))
  above ++ [path]

/-- Makes a directory and the directories above it, each unless it is there already.  None is made
for a path that no disk can have, and there is none to be made for the empty path. -/
def createDirectories (disk : Disk) (path : String) : Except IoFault Unit × Disk :=
  match checkPath path with
  | .ok () => if path = "" then (.ok (), disk) else ensureDirectories (ancestors path) disk
  | .error fault => (.error fault, disk)

/-- Makes a new file without contents, and gives its number. -/
def createFile (disk : Disk) (path : String) : Except IoFault Nat × Disk :=
  match disk.locate path with
  | .error fault => (.error fault, disk)
  | .ok location =>
    match disk.entry? location with
    | some _ => (.error .alreadyExists, disk)
    | none =>
      if Path.namesDirectory path then (.error .isDirectory, disk)
      else
        let number := disk.contents.size
        (.ok number,
          { disk.addEntry location (.file number) with contents := disk.contents.push .empty })

/-- Contents after bytes have been written at an offset.  A gap in front of the offset is filled
with zeros. -/
def overwrite (contents : ByteArray) (offset : Nat) (bytes : ByteArray) : ByteArray :=
  if offset = contents.size then contents ++ bytes
  else
    let gap : ByteArray := ⟨Array.replicate (offset - contents.size) 0⟩
    contents.extract 0 offset ++ gap ++ bytes ++
      contents.extract (offset + bytes.size) contents.size

/-- Writes bytes to a file at an offset, as far as there is room for them, and gives the number of
bytes written. -/
def writeAt (disk : Disk) (number offset : Nat) (bytes : ByteArray) : Nat × Disk :=
  let taken := match disk.room with
    | none => bytes
    | some room => bytes.extract 0 (min room bytes.size)
  (taken.size, { disk with
    contents := disk.contents.modify number fun contents => overwrite contents offset taken
    room := disk.room.map fun room => room - taken.size })

/-- Replaces the contents of a file, which is made if it is not there. -/
def writeFile (disk : Disk) (path : String) (bytes : ByteArray) : Except IoFault Disk := do
  let location ← disk.locate path
  match disk.entry? location with
  | some .directory => throw .isDirectory
  | some (.file number) =>
    pure { disk with contents := disk.contents.modify number fun _ => bytes }
  | none =>
    match disk.createFile path with
    | (.ok number, disk) =>
      pure { disk with contents := disk.contents.modify number fun _ => bytes }
    | (.error fault, _) => throw fault

/-- The contents of the file at a path. -/
def readFile (disk : Disk) (path : String) : Except IoFault ByteArray := do
  match ← disk.lookup path with
  | (_, .directory) => throw .isDirectory
  | (_, .file number) => pure (disk.contents.getD number .empty)

/-- The text of the file at a path. -/
def readText (disk : Disk) (path : String) : Except IoFault String := do
  let bytes ← disk.readFile path
  match String.fromUTF8? bytes with
  | some text => pure text
  | none => throw .notText

/-- Removes a directory and everything below it. -/
def removeDirectory (disk : Disk) (path : String) : Except IoFault Disk := do
  match ← disk.lookup path with
  | (location, .directory) => pure (disk.removeBelow location true)
  | (_, .file _) => throw .notDirectory

end Disk

end XmlWorkload
