import RecordSwap.Command
import Std.Time.Format

/-!
# The program

The file system and the clock of the machine, and `main`.
-/

namespace RecordSwap

/-- What an error of the machine means for a file operation. -/
def fileError : IO.Error → FileError
  | .noFileOrDirectory .. => .notFound
  | .inappropriateType _ 20 _ => .notADirectory
  | .inappropriateType _ 21 _ => .isADirectory
  | e => .other (toString e)

/-- Carries out a file operation. -/
def attempt (act : IO α) : IO (Except FileError α) := do
  match ← act.toBaseIO with
  | .ok a => pure (.ok a)
  | .error e => pure (.error (fileError e))

/-- The file system of the machine. -/
def machine : FileSystem IO where
  createDirs path := attempt (IO.FS.createDirAll path)
  writeText path text := attempt (IO.FS.writeFile path text)
  readText path := do
    match ← attempt (IO.FS.readBinFile path) with
    | .error e => pure (.error e)
    | .ok bytes =>
      match String.fromUTF8? bytes with
      | some text => pure (.ok text)
      | none => pure (.error .notText)

end RecordSwap

open RecordSwap

/-- Carries the command line out. -/
def main (args : List String) : IO UInt32 := do
  let time ← Std.Time.PlainDateTime.now
  let env : Command.Environment := {
    user := ← IO.getEnv "USER"
    now := time.format "EEE MMM dd HH:mm:ss uuuu" }
  let outcome ← Command.run machine env args
  IO.print outcome.output
  match outcome.error with
  | some text => IO.eprintln ("[ERROR] " ++ text)
  | none => pure ()
  pure (UInt32.ofNat outcome.code)
