/-!
# Paths

A path is a text in which slashes part the names.  Empty names and single dots count for nothing
behind the front of the path, and two paths are the same when the names that count are.
-/

set_option autoImplicit false

namespace XmlWorkload.Path

/-- The pieces of a text between its slashes. -/
def pieces (path : String) : List String := (path.toList.splitOn '/').map String.ofList

/-- Whether a path starts at the root of the disk. -/
def isAbsolute (path : String) : Bool := path.toList.head? == some '/'

/-- Whether a path can only name a directory, because a slash or a single dot ends it. -/
def namesDirectory (path : String) : Bool :=
  match (pieces path).getLast? with
  | some last => last == "." || (last == "" && path != "")
  | none => false

/-- Whether a single dot ends a path behind a slash. -/
def endsInDot (path : String) : Bool :=
  (pieces path).getLast? == some "." && path != "."

/-- The names of a path that count.  A single dot counts at the front of a path. -/
def names (path : String) : List String :=
  match pieces path with
  | [] => []
  | first :: rest =>
    let behind := rest.filter fun piece => piece != "" && piece != "."
    if first = "" then behind else first :: behind

/-- Whether two paths are the same. -/
def same (a b : String) : Bool := isAbsolute a == isAbsolute b && names a == names b

/-- The path of an entry of a directory. -/
def join (directory name : String) : String :=
  if directory = "" then name
  else if directory.toList.getLast? = some '/' then directory ++ name
  else directory ++ "/" ++ name

/-- The last name of a path behind its last dot, unless the dot is the first character; a name
without such a dot has no ending. -/
def ending? (name : String) : Option String :=
  if name = ".." then none
  else
    let reversed := name.toList.reverse
    let tail := reversed.takeWhile fun c => c != '.'
    match reversed.drop (tail.length + 1) with
    | [] => none
    | _ => some (String.ofList tail.reverse)

end XmlWorkload.Path
