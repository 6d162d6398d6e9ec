/-!
# File systems

What the program asks of a file system.

* `FileError`: why a file operation fails.
* `FileSystem`: the operations, in any monad.
-/

namespace RecordSwap

/-- Why a file operation fails. -/
inductive FileError where
  | notFound
  | notADirectory
  | isADirectory
  | nameTooLong
  /-- A NUL character in a path. -/
  | invalidPath
  /-- A file that is read as text holds something else. -/
  | notText
  /-- Another reason, in the words of the system. -/
  | other (text : String)
  deriving DecidableEq, Repr

def FileError.message : FileError → String
  | notFound => "No such file or directory (os error 2)"
  | notADirectory => "Not a directory (os error 20)"
  | isADirectory => "Is a directory (os error 21)"
  | nameTooLong => "File name too long (os error 36)"
  | invalidPath => "file name contained an unexpected NUL byte"
  | notText => "stream did not contain valid UTF-8"
  | other text => text

/-- The file operations that the program uses. -/
structure FileSystem (m : Type → Type) where
  /-- Creates a directory and those above it, as far as they are missing. -/
  createDirs : (path : String) → m (Except FileError Unit)
  /-- Creates or replaces a file. -/
  writeText : (path text : String) → m (Except FileError Unit)
  /-- Reads a whole file. -/
  readText : (path : String) → m (Except FileError String)

end RecordSwap
