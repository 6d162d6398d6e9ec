import RecordSwap.Banner
import RecordSwap.C.Header
import RecordSwap.C.Source
import RecordSwap.FileSystem
import RecordSwap.FileSystem.Path

/-!
# Generating the two files

From a project to the texts of the types header and the swap source, and into a directory. Both the
renderer of banner templates and the file system are parameters.

* `Options`: base name and banner of one run.
* `Generator.ofProject`: lays out and plans all records of a project.
* `Generator.render`: the texts of both files, `Artifacts`.
* `Generator.writeTo`: renders first, then writes each file whether or not the other one can be
  written; the outcome is a `Report`.
-/

namespace RecordSwap

/-! ## Errors -/

/-- Why nothing is generated. -/
inductive GenerationError where
  /-- The project has no record. -/
  | inputAbsent
  /-- The banner template cannot be read or rendered. -/
  | template
  | fault (fault : Fault)
  deriving DecidableEq, Repr

def GenerationError.message? : GenerationError → Option String
  | inputAbsent => some "No structure data supplied"
  | template => some "Banner template error: the template cannot be rendered"
  | fault _ => none

/-! ## Options -/

/-- What a run may choose. -/
structure Options where
  /-- Replaces the base name that comes from the project. -/
  baseName : Option String := none
  /-- Replaces the standard banner. -/
  bannerTemplate : Option String := none
  /-- Values of the banner; without them, project and date are filled in. -/
  provenance : Option Provenance := none
  /-- The current date and time. -/
  now : String := ""
  deriving DecidableEq, Repr

/-! ## Generators -/

/-- A project with the layouts and plans of its records. -/
structure Generator where
  project : Project
  options : Options
  layouts : List Layout
  plans : Plans
  deriving DecidableEq, Repr

/-- Texts of both files. -/
structure Artifacts where
  baseName : String
  /-- Text of the types header. -/
  headerText : String
  /-- Text of the swap source. -/
  sourceText : String
  deriving DecidableEq, Repr

namespace Artifacts

def headerFile (a : Artifacts) : String := a.baseName ++ ".h"

def sourceFile (a : Artifacts) : String := a.baseName ++ ".c"

/-- Names and texts of both files, in the order in which they are written. -/
def files (a : Artifacts) : List (String × String) :=
  [(a.headerFile, a.headerText), (a.sourceFile, a.sourceText)]

end Artifacts

/-- Outcome of writing both files. -/
structure Report where
  baseName : String
  /-- Number of records. -/
  records : Nat
  bitSwapFunctions : Nat
  /-- Paths of the files that were written. -/
  written : List String
  /-- Paths of the files that could not be written. -/
  failures : List (String × FileError)
  diagnostics : List Diagnostic
  deriving DecidableEq, Repr

namespace Report

def isSuccess (r : Report) : Bool := r.failures.isEmpty

def failureMessage (path : String) (e : FileError) : String :=
  s!"Error opening output file '{path}': " ++ e.message

def rule : String := String.ofList (List.replicate 60 '=')

def text (r : Report) : String :=
  let diagnostics :=
    if r.diagnostics.isEmpty then []
    else ["", s!"  Diagnostics ({r.diagnostics.length}):"] ++
      r.diagnostics.map fun d => "    - " ++ d.message
  C.linesText (
    ["", rule, "  Type Swap Generation Report", rule, "",
      s!"  [OK] Structures:      {r.records}", s!"  [OK] Bit swaps:       {r.bitSwapFunctions}"] ++
    r.written.map (fun path => s!"  [OK] Wrote:           {path}") ++
    r.failures.map (fun (path, e) => "  [FAIL] " ++ failureMessage path e) ++
    diagnostics ++ ["", rule])

end Report

namespace Generator

def ofProject (p : Project) (options : Options) : Except GenerationError Generator := do
  if p.records.isEmpty then throw .inputAbsent
  let layouts ← p.layouts.mapError .fault
  let plans ← (Plans.ofLayouts p layouts).mapError .fault
  pure { project := p, options, layouts, plans }

def baseName (g : Generator) : String := g.options.baseName.getD g.project.baseName

def diagnostics (g : Generator) : List Diagnostic := g.project.diagnostics ++ g.plans.diagnostics

/-- Values of the banner. Tables and groups that are not given are those of the project. -/
def provenance (g : Generator) : Provenance :=
  let given := g.options.provenance.getD { created := g.options.now, project := g.project.name }
  given.withDefaults (g.project.records.map Record.name) g.project.groups

def bitSwapFunctions (g : Generator) : Nat := (g.plans.bitSwaps.filterMap id).length

/-- The texts of both files, behind one banner. -/
def render [TemplateEngine] (g : Generator) : Except GenerationError Artifacts := do
  let banner ← match g.provenance.bannerBy? g.options.bannerTemplate with
    | some banner => pure banner
    | none => throw .template
  let header ← (headerText g.project g.layouts banner g.baseName).mapError .fault
  let source ← (sourceText g.project g.plans banner g.baseName).mapError .fault
  pure { baseName := g.baseName, headerText := header, sourceText := source }

def report (g : Generator) (outcomes : List (String × Except FileError Unit)) : Report where
  baseName := g.baseName
  records := g.layouts.length
  bitSwapFunctions := g.bitSwapFunctions
  written := outcomes.filterMap fun (path, outcome) =>
    match outcome with
    | .ok () => some path
    | .error _ => none
  failures := outcomes.filterMap fun (path, outcome) =>
    match outcome with
    | .ok () => none
    | .error e => some (path, e)
  diagnostics := g.diagnostics

variable [TemplateEngine] {m : Type → Type} [Monad m]

/-- Writes both files into a directory, which is created if need be. Nothing is touched if the texts
cannot be made; a file that cannot be written does not keep the other one from being written. -/
def writeTo (fs : FileSystem m) (g : Generator) (dir : String) :
    m (Except GenerationError Report) :=
  match g.render with
  | .error e => pure (.error e)
  | .ok artifacts => do
    discard (fs.createDirs dir)
    let outcomes ← artifacts.files.mapM fun (name, text) => do
      let path := Path.join dir name
      let outcome ← fs.writeText path text
      pure (path, outcome)
    pure (.ok (g.report outcomes))

end Generator

end RecordSwap
