import RecordSwap.FileSystem
import RecordSwap.FileSystem.Path

/-!
# File trees

A file system that is a value: directories and files below a root, and a working directory at which
relative paths start.

* `FileTree`: the directories and files.
* `FileTree.walk`: the directory that a path leads to.
* `FileTree.system`: the operations, as state transitions.
-/

namespace RecordSwap

/-- A place in a tree: the names from the root down. -/
abbrev Place := List String

/-- Directories and files. The root is always there. -/
structure FileTree where
  directories : List Place := []
  files : List (Place × ByteArray) := []
  /-- The directory at which relative paths start. -/
  working : Place := []

namespace FileTree

def nameLimit : Nat := 255

def isDirectory (t : FileTree) (place : Place) : Bool :=
  place.isEmpty || t.directories.contains place

def file? (t : FileTree) (place : Place) : Option ByteArray := t.files.lookup place

def putFile (t : FileTree) (place : Place) (bytes : ByteArray) : FileTree :=
  { t with files := t.files.filter (·.1 ≠ place) ++ [(place, bytes)] }

def step (t : FileTree) (place : Place) (name : String) : Except FileError Place :=
  if name = ".." then pure place.dropLast
  else if name.utf8ByteSize > nameLimit then throw .nameTooLong
  else
    let next := place ++ [name]
    if t.isDirectory next then pure next
    else if (t.file? next).isSome then throw .notADirectory
    else throw .notFound

def walk (t : FileTree) (place : Place) (names : List String) : Except FileError Place :=
  names.foldlM t.step place

def origin (t : FileTree) (path : String) : Place := if Path.isAbsolute path then [] else t.working

/-- The place that a path names, whether something is there or not. The directories on the way have
to exist. -/
def locate (t : FileTree) (path : String) : Except FileError Place := do
  if path.toList.contains '\x00' then throw .invalidPath
  if path = "" then throw .notFound
  let names := Path.parts path
  let start := t.origin path
  match names.getLast? with
  | none => pure start
  | some last => do
    let dir ← t.walk start names.dropLast
    if last = ".." then pure dir.dropLast
    else if last.utf8ByteSize > nameLimit then throw .nameTooLong
    else pure (dir ++ [last])

/-- Whether a path can only name a directory, because it ends in a slash or a dot. -/
def namesDirectory (path : String) : Bool :=
  let last := (path.toList.splitOn '/').getLast?
  last = some [] || last = some ['.']

def read (t : FileTree) (path : String) : Except FileError ByteArray := do
  let place ← t.locate path
  if t.isDirectory place then throw .isADirectory
  match t.file? place with
  | none => throw .notFound
  | some bytes => if namesDirectory path then throw .notADirectory else pure bytes

/-- Replaces or creates the file that a path names. -/
def write (t : FileTree) (path : String) (bytes : ByteArray) : Except FileError FileTree := do
  let place ← t.locate path
  if t.isDirectory place then throw .isADirectory
  if namesDirectory path then
    throw (if (t.file? place).isSome then .notADirectory else .isADirectory)
  pure (t.putFile place bytes)

/-- Creates the directories of a list of names as far as they are missing. What is created before a
failure stays. -/
def makeDirectories (t : FileTree) (place : Place) : List String → FileTree × Except FileError Unit
  | [] => (t, .ok ())
  | name :: names =>
    match t.step place name with
    | .ok next => t.makeDirectories next names
    | .error .notFound =>
      let next := place ++ [name]
      ({ t with directories := t.directories ++ [next] } : FileTree).makeDirectories next names
    | .error e => (t, .error e)

def system : FileSystem (StateM FileTree) where
  createDirs path := do
    let t ← get
    if path.toList.contains '\x00' then return .error .invalidPath
    let (t, result) := t.makeDirectories (t.origin path) (Path.parts path)
    set t
    pure result
  writeText path text := do
    match (← get).write path text.toUTF8 with
    | .ok t => set t; pure (.ok ())
    | .error e => pure (.error e)
  readText path := do
    match (← get).read path with
    | .error e => pure (.error e)
    | .ok bytes =>
      match String.fromUTF8? bytes with
      | some text => pure (.ok text)
      | none => pure (.error .notText)

/-- Names of the files below the working directory, relative to it, with their contents. -/
def listing (t : FileTree) : List (String × ByteArray) :=
  t.files.filterMap fun (place, bytes) =>
    if t.working.isPrefixOf place then some ("/".intercalate (place.drop t.working.length), bytes)
    else none

end FileTree

end RecordSwap
