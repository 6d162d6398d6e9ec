/-!
# Paths

Paths as texts, with `/` between their parts.

* `join`: a path below a directory.
* `parts`: the parts of a path; empty parts and dots are left out.
* `extension?`: the part of a file name after its last dot.
-/

namespace RecordSwap.Path

def isAbsolute (path : String) : Bool := path.toList.head? = some '/'

/-- The path `path` below `dir`. An absolute path stays as it is. -/
def join (dir path : String) : String :=
  if isAbsolute path || dir = "" then path
  else if dir.toList.getLast? = some '/' then dir ++ path
  else dir ++ "/" ++ path

/-- Parts of a path between slashes, without empty parts and dots. -/
def parts (path : String) : List String :=
  ((path.toList.splitOn '/').map String.ofList).filter fun part => part ≠ "" ∧ part ≠ "."

def fileName? (path : String) : Option String := (parts path).getLast?.filter (· ≠ "..")

/-- Extension of a file name: what follows its last dot, if anything stands before that dot. -/
def extension? (path : String) : Option String :=
  (fileName? path).bind fun name =>
    match name.toList.reverse.span (· ≠ '.') with
    | (extension, _ :: _ :: _) => some (String.ofList extension.reverse)
    | _ => none

end RecordSwap.Path
