import RecordSwap.Document.Json
import RecordSwap.Document.Yaml
import RecordSwap.FileSystem
import RecordSwap.FileSystem.Path
import RecordSwap.ProjectFile.Decode

/-!
# Loading project files

* `ProjectFile.parse`: the contents of a text in one of the two formats; a file that breaks a rule
  is refused.
* `ProjectFile.load`: reads a file, in the format that its name tells.
-/

namespace RecordSwap

/-- Why a project file cannot be loaded. -/
inductive LoadError where
  | file (e : FileError)
  /-- The text is not well formed or has another shape. -/
  | malformed (format : FileFormat)
  | invalid (v : Violation)
  deriving DecidableEq, Repr

namespace LoadError

def message : LoadError → String
  | file e => "I/O error: " ++ e.message
  | malformed .json => "JSON parse error: not a project file"
  | malformed .yaml => "YAML parse error: not a project file"
  | invalid v => v.message

/-- Text of an error with its cause, where it has one. -/
def chain (e : LoadError) : String :=
  match e with
  | file cause => e.message ++ ": " ++ cause.message
  | _ => e.message

end LoadError

namespace FileFormat

def read? : FileFormat → String → Option Document.Node
  | json, text => Document.Json.read? text
  | yaml, text => Document.Yaml.read? text

/-- Format of a file: JSON if its extension says so, in letters of either case, otherwise YAML. -/
def ofPath (path : String) : FileFormat :=
  if (Path.extension? path).map String.toLower = some "json" then json else yaml

end FileFormat

namespace ProjectFile

def parse (format : FileFormat) (text : String) : Except LoadError ProjectFile := do
  match (format.read? text).bind (ofNode? format) with
  | none => throw (.malformed format)
  | some f => do
    f.validate.mapError .invalid
    pure f

def load [Monad m] (fs : FileSystem m) (path : String) : m (Except LoadError ProjectFile) := do
  match ← fs.readText path with
  | .ok text => pure (parse (FileFormat.ofPath path) text)
  | .error e => pure (.error (.file e))

end ProjectFile

end RecordSwap
