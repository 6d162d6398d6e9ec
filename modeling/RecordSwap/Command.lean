import RecordSwap.Command.Arguments
import RecordSwap.Document.Print
import RecordSwap.Generator
import RecordSwap.Image
import RecordSwap.ProjectFile.Load
import RecordSwap.Template.Piece

/-!
# Commands

What the program does and prints, over any file system. This is where the renderer of banner
templates is chosen (`templates`).

* `Outcome`: exit code, standard output and the error, if any.
* `generate`, `layout`, `verify`: the subcommands.
* `run`: reads a command line and carries it out.
-/

namespace RecordSwap.Command

open Document

/-! ## Banner templates -/

def templateValue : TemplateValue → Template.Value
  | .text s => .text s
  | .list items => .list items

/-- Banner templates are rendered as far as `Template` knows their language. -/
instance templates : TemplateEngine where
  render? template context :=
    Template.renderTemplate? template (context.map fun (name, v) => (name, templateValue v))

/-! ## Outcomes -/

/-- How a run ends. -/
structure Outcome where
  code : Nat := 0
  /-- Standard output. -/
  output : String := ""
  /-- Text of the error that ended the run, if it has one. -/
  error : Option String := none
  deriving DecidableEq, Repr

namespace Outcome

def failed (output error : String) : Outcome := { code := 1, output, error := some error }

def stopped (output : String) : Outcome := { code := 101, output }

/-- A run that an error ended before anything was printed; an error without a text is a fault. -/
def ofError (context : String) : Option String → Outcome
  | some text => failed "" (context ++ text)
  | none => stopped ""

end Outcome

/-- What the program takes from its surroundings. -/
structure Environment where
  /-- Name of the user, if known. -/
  user : Option String := none
  /-- The current date and time. -/
  now : String := ""
  deriving DecidableEq, Repr

/-! ## Loading -/

/-- The generator for a project file. The template of the file is used where the options have none,
and its project name where the banner has none. -/
def generatorOf (path : String) (options : Options) (loaded : Except LoadError ProjectFile) :
    Except Outcome Generator := do
  let f ← loaded.mapError fun e => .failed "" (s!"Failed to load {path}: " ++ e.chain)
  let named (p : Provenance) : Provenance :=
    if p.project = "" then { p with project := f.project } else p
  let options := { options with
    bannerTemplate := options.bannerTemplate.or f.bannerTemplate
    provenance := options.provenance.map named }
  let p ← f.toProject.mapError fun e => .ofError "Failed to build project: " e.message?
  (Generator.ofProject p options).mapError fun e => .ofError "" e.message?

variable {m : Type → Type} [Monad m]

/-- Loads a project file and passes its generator on. -/
def withGenerator (fs : FileSystem m) (path : String) (options : Options)
    (act : Generator → m Outcome) : m Outcome := do
  match generatorOf path options (← ProjectFile.load fs path) with
  | .ok g => act g
  | .error outcome => pure outcome

/-! ## Subcommands -/

def generateOutcome : Except GenerationError Report → Outcome
  | .error e => .ofError "" e.message?
  | .ok report =>
    if report.isSuccess then { output := report.text }
    else .failed report.text s!"{report.failures.length} artifact(s) could not be written"

def generate (fs : FileSystem m) (env : Environment) (path output : String)
    (baseName user : Option String) (script : String) : m Outcome :=
  let provenance : Provenance := {
    created := env.now
    user := (user.or env.user).getD ""
    script }
  let options : Options := { baseName, provenance := some provenance, now := env.now }
  withGenerator fs path options fun g => return generateOutcome (← g.writeTo fs output)

def layoutLines (l : Layout) : List String :=
  [s!"{l.name} ({l.totalSize} bytes)"] ++
  l.fields.map (fun f =>
    let bits := match f.bitLength with
      | some n => s!" bits {f.shift}+{n}"
      | none => ""
    "  [" ++ Text.padLeft 5 (toString f.offset) ++ "] " ++ Text.padRight 24 f.name ++ " " ++
      Text.padLeft 6 (toString f.size) ++ " bytes" ++ bits) ++
  l.groups.zipIdx.map (fun (u, i) =>
    s!"  group {i}: {u.dataType} @{u.offset} ({u.filledBits}/{u.capacity} bits)") ++
  [""]

def textNode (s : String) : Node := .scalar (.text s) (some s)

def naturalNode (n : Nat) : Node := .scalar (.natural n) none

def optionalNode : Option Nat → Node
  | some n => naturalNode n
  | none => .scalar .null none

def recordNode (entries : List (String × Node)) : Node :=
  .mapping (entries.map fun (k, v) => (textNode k, v))

def fieldNode (f : FieldLayout) : Node :=
  recordNode [
    ("name", textNode f.name),
    ("data_type", textNode f.dataType),
    ("extents", .sequence (f.extents.map naturalNode)),
    ("bit_length", optionalNode f.bitLength),
    ("offset", naturalNode f.offset),
    ("element_size", naturalNode f.elementSize),
    ("size", naturalNode f.size),
    ("group", optionalNode f.group),
    ("shift", naturalNode f.shift),
    ("description", textNode f.description),
    ("rates", .sequence (f.rates.map fun (stream, rate) =>
      .sequence [textNode stream, textNode rate]))]

def unitNode (u : UnitLayout) : Node :=
  recordNode [
    ("data_type", textNode u.dataType),
    ("filled_bits", naturalNode u.filledBits),
    ("capacity", naturalNode u.capacity),
    ("byte_size", naturalNode u.byteSize),
    ("offset", naturalNode u.offset)]

def layoutNode (l : Layout) : Node :=
  recordNode [
    ("name", textNode l.name),
    ("description", textNode l.description),
    ("header", .scalar (.flag l.header) none),
    ("width", naturalNode l.width),
    ("total_size", naturalNode l.totalSize),
    ("fields", .sequence (l.fields.map fieldNode)),
    ("groups", .sequence (l.groups.map unitNode))]

/-- The layouts of a project, as lines or as JSON. -/
def layoutText (json : Bool) (layouts : List Layout) : String :=
  if json then (Node.sequence (layouts.map layoutNode)).pretty 0 ++ "\n"
  else C.linesText (layouts.flatMap layoutLines)

def layout (fs : FileSystem m) (env : Environment) (path : String) (json : Bool) : m Outcome :=
  withGenerator fs path { now := env.now } fun g => pure { output := layoutText json g.layouts }

/-- Whether an image of a record comes back from a swap to foreign order and from there. -/
def comesBack (g : Generator) (index : Nat) (l : Layout) : Checked Bool := do
  let image := Image.pattern l.totalSize
  let there ← g.plans.byteSwap .localToForeign index image
  let back ← g.plans.byteSwap .foreignToLocal index there
  pure (back == image)

/-- Checks the records from an index on. The results are the lines, the number of records that do
not come back, and whether a fault ended the check. -/
def verifyFrom (g : Generator) (index : Nat) : List Layout → List String × Nat × Bool
  | [] => ([], 0, false)
  | l :: rest =>
    match comesBack g index l with
    | .error _ => ([], 0, true)
    | .ok same =>
      let (lines, failures, faulty) := verifyFrom g (index + 1) rest
      let line := (if same then "  [OK]   " else "  [FAIL] ") ++ s!"{l.name} ({l.totalSize} bytes)"
      (line :: lines, failures + (if same then 0 else 1), faulty)

def verifyOutcome (g : Generator) : Outcome :=
  let (lines, failures, faulty) := verifyFrom g 0 g.layouts
  if faulty then .stopped (C.linesText lines)
  else
    let output := C.linesText (lines ++ g.diagnostics.map fun d => "  [WARN] " ++ d.message)
    if failures = 0 then { output }
    else .failed output s!"{failures} structure(s) failed the round trip"

def verify (fs : FileSystem m) (env : Environment) (path : String) : m Outcome :=
  withGenerator fs path { now := env.now } fun g => pure (verifyOutcome g)

/-! ## Command lines -/

def versionText : String := "typeswap-gen 0.3.0\n"

def helpText : String := C.linesText [
  "Generate packed C structure headers and endian swap functions",
  "",
  "Usage: typeswap-gen [-v] generate FILE [-o DIR] [--base-name NAME] [--user USER] " ++
    "[--script NAME]",
  "       typeswap-gen [-v] layout FILE [--json]",
  "       typeswap-gen [-v] verify FILE"]

def stopOutcome : Stop → Outcome
  | .usage => { code := 2 }
  | .help => { output := helpText }
  | .version => { output := versionText }

def run (fs : FileSystem m) (env : Environment) (args : List String) : m Outcome :=
  match Request.ofArguments args with
  | .error stop => pure (stopOutcome stop)
  | .ok (.generate file output baseName user script) =>
    generate fs env file output baseName user script
  | .ok (.layout file json) => layout fs env file json
  | .ok (.verify file) => verify fs env file

end RecordSwap.Command
