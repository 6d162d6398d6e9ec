/-!
# Command line arguments

What a command line asks for.

* `Request`: the subcommands with their arguments.
* `Switch`: an option; `readArguments`: options and operands in any order. An option may stand only
  once; its value follows it, in the same argument or as the next one, which may not look like an
  option. After `--` there are operands only.
* `Request.ofArguments`: reads a whole command line.
-/

namespace RecordSwap.Command

/-- What the program is asked to do. -/
inductive Request where
  /-- Writes the two files. -/
  | generate (file output : String) (baseName user : Option String) (script : String)
  /-- Prints the layouts. -/
  | layout (file : String) (json : Bool)
  /-- Swaps an image of each record there and back. -/
  | verify (file : String)
  deriving DecidableEq, Repr

/-- Why a command line leads to no request. -/
inductive Stop where
  /-- The arguments do not fit. -/
  | usage
  | help
  | version
  deriving DecidableEq, Repr

/-- An option. -/
structure Switch where
  /-- Name after two dashes. -/
  long : String
  /-- Letter after one dash. -/
  short : Option Char := none
  takesValue : Bool := false
  mayBeEmpty : Bool := true
  /-- What the option stops the program for. -/
  stop : Option Stop := none
  deriving DecidableEq, Repr

/-- Options with their values, and operands. -/
structure Arguments where
  options : List (String × String) := []
  operands : List String := []
  deriving DecidableEq, Repr

namespace Arguments

def value? (a : Arguments) (long : String) : Option String := a.options.lookup long

def has (a : Arguments) (long : String) : Bool := (a.value? long).isSome

def add (a : Arguments) (s : Switch) (value : String) : Except Stop Arguments :=
  match s.stop with
  | some stop => throw stop
  | none =>
    if a.has s.long ∨ (s.takesValue ∧ value = "" ∧ !s.mayBeEmpty) then throw .usage
    else pure { a with options := a.options ++ [(s.long, value)] }

def addOperands (a : Arguments) (operands : List String) : Arguments :=
  { a with operands := a.operands ++ operands }

end Arguments

/-- An option that still needs its value, if there is one. -/
abbrev Pending := Option Switch

def readLetters (switches : List Switch) (a : Arguments) :
    List Char → Except Stop (Arguments × Pending)
  | [] => pure (a, none)
  | c :: rest =>
    match switches.find? (·.short = some c) with
    | none => throw .usage
    | some s =>
      if s.takesValue then
        match rest with
        | [] => pure (a, some s)
        | '=' :: value => return (← a.add s (String.ofList value), none)
        | value => return (← a.add s (String.ofList value), none)
      else do
        readLetters switches (← a.add s "") rest

def readLong (switches : List Switch) (a : Arguments) (cs : List Char) :
    Except Stop (Arguments × Pending) :=
  let (long, rest) := cs.span (· ≠ '=')
  match switches.find? (·.long = String.ofList long) with
  | none => throw .usage
  | some s =>
    match s.takesValue, rest with
    | true, _ :: value => return (← a.add s (String.ofList value), none)
    | true, [] => pure (a, some s)
    | false, [] => return (← a.add s "", none)
    | false, _ => throw .usage

/-- Reads options and operands. If `stopAtOperand` holds, reading ends at the first operand, which
is returned with the arguments after it. -/
def readArguments (switches : List Switch) (stopAtOperand : Bool) (a : Arguments)
    (pending : Pending) : List String → Except Stop (Arguments × List String)
  | [] => if pending.isSome then throw .usage else pure (a, [])
  | arg :: rest =>
    match arg.toList with
    | ['-', '-'] =>
      if pending.isSome ∨ stopAtOperand then throw .usage
      else pure (a.addOperands rest, [])
    | '-' :: '-' :: cs => do
      if pending.isSome then throw .usage
      let (a, pending) ← readLong switches a cs
      readArguments switches stopAtOperand a pending rest
    | '-' :: c :: cs => do
      if pending.isSome then throw .usage
      let (a, pending) ← readLetters switches a (c :: cs)
      readArguments switches stopAtOperand a pending rest
    | _ =>
      match pending with
      | some s => do readArguments switches stopAtOperand (← a.add s arg) none rest
      | none =>
        if stopAtOperand then pure (a, arg :: rest)
        else readArguments switches stopAtOperand (a.addOperands [arg]) none rest

/-! ## The options of the program -/

def commonSwitches : List Switch := [
  { long := "verbose", short := some 'v' },
  { long := "help", short := some 'h', stop := some .help }]

def mainSwitches : List Switch :=
  { long := "version", short := some 'V', stop := some .version } :: commonSwitches

def generateSwitches : List Switch := [
  { long := "output", short := some 'o', takesValue := true, mayBeEmpty := false },
  { long := "base-name", takesValue := true },
  { long := "user", takesValue := true },
  { long := "script", takesValue := true }] ++ commonSwitches

def layoutSwitches : List Switch := { long := "json" } :: commonSwitches

/-- Reads the arguments of a subcommand, which has one operand. -/
def readSubcommand (switches : List Switch) (args : List String) :
    Except Stop (String × Arguments) := do
  let (a, _) ← readArguments switches false {} none args
  match a.operands with
  | [file] => if file = "" then throw .usage else pure (file, a)
  | _ => throw .usage

namespace Request

def names : List String := ["generate", "layout", "verify", "help"]

def ofSubcommand (name : String) (args : List String) : Except Stop Request :=
  match name with
  | "generate" => do
    let (file, a) ← readSubcommand generateSwitches args
    pure (.generate file ((a.value? "output").getD ".") (a.value? "base-name") (a.value? "user")
      ((a.value? "script").getD "typeswap-gen"))
  | "layout" => do
    let (file, a) ← readSubcommand layoutSwitches args
    pure (.layout file (a.has "json"))
  | "verify" => do
    let (file, _) ← readSubcommand commonSwitches args
    pure (.verify file)
  | "help" =>
    if args.length ≤ 1 ∧ args.all names.contains then throw .help else throw .usage
  | _ => throw .usage

def ofArguments (args : List String) : Except Stop Request := do
  match ← readArguments mainSwitches true {} none args with
  | (_, name :: rest) => ofSubcommand name rest
  | (_, []) => throw .usage

end Request

end RecordSwap.Command
