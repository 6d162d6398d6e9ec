import RecordSwap.Text.Case

/-!
# Expressions of banner templates

The values a template can compute, and the expressions that compute them.

* `Value`: texts, whole numbers, truth values and lists of texts.
* `Scope`: the names an expression can refer to: those of the context and those of the loops around
  it.
* `Expr.value?`, `Expr.truth?`: the meaning of an expression as a value and as a condition. An
  unknown name has no value, but as a condition it is false.
-/

namespace RecordSwap.Template

/-! ## Values -/

/-- A value of a template. -/
inductive Value where
  | text (s : String)
  | number (n : Int)
  | flag (b : Bool)
  | list (items : List String)
  deriving DecidableEq, Repr

namespace Value

def render : Value → String
  | text s => s
  | number n => toString n
  | flag b => if b then "true" else "false"
  | list items => "[" ++ ", ".intercalate items ++ "]"

/-- Whether a value counts as true: a text or list that is not empty, or a number but zero. -/
def isTrue : Value → Bool
  | text s => s ≠ ""
  | number n => n ≠ 0
  | flag b => b
  | list items => !items.isEmpty

def number? : Value → Option Int
  | number n => some n
  | _ => none

def piece? : Value → Option String
  | text s => some s
  | number n => some (toString n)
  | _ => none

def item? (v : Value) (key : String) : Option Value :=
  match v with
  | list items =>
    if key.toList.all Char.isDigit ∧ (key = "0" ∨ ¬ key.startsWith "0") then
      key.toNat?.bind fun i => items[i]?.map text
    else none
  | _ => none

/-- Whether one value is contained in another; only texts and lists contain anything. -/
def contains? (container v : Value) : Option Bool :=
  match container, v with
  | list items, text s => some (items.contains s)
  | list _, _ => some false
  | text s, text t => some (s.contains t)
  | _, _ => none

end Value

/-! ## Names -/

/-- The loop around an expression. -/
structure Loop where
  /-- Name of the element. -/
  name : String
  value : Value
  /-- Elements before this one. -/
  index : Nat
  count : Nat
  deriving DecidableEq, Repr

/-- What names stand for: the loops around an expression, the innermost first, and the context. -/
structure Scope where
  context : List (String × Value)
  loops : List Loop := []
  deriving DecidableEq, Repr

/-- A name with keys: `loop.index`, `tables[0]`. -/
structure Path where
  name : String
  keys : List String
  deriving DecidableEq, Repr

def Value.follow? (v : Value) : List String → Option Value
  | [] => some v
  | key :: keys => (v.item? key).bind fun w => w.follow? keys

def Loop.counter? (l : Loop) : String → Option Value
  | "index" => some (.number (l.index + 1))
  | "index0" => some (.number l.index)
  | "first" => some (.flag (l.index = 0))
  | "last" => some (.flag (l.index + 1 = l.count))
  | _ => none

def Loop.find? (l : Loop) (p : Path) : Option Value :=
  match p.name, p.keys with
  | "loop", [key] => l.counter? key
  | name, keys => if name = l.name then l.value.follow? keys else none

def Scope.find? (s : Scope) (p : Path) : Option Value :=
  (s.loops.findSome? (·.find? p)).or ((s.context.lookup p.name).bind (·.follow? p.keys))

/-! ## Filters -/

/-- Texts between which `separator` stands. The characters `\n` and `\t`, written with a backslash,
stand for a line end and a tab in it. -/
def join (separator : String) (items : List String) : String :=
  ((separator.replace "\\n" "\n").replace "\\t" "\t").intercalate items

/-- The value of a filter; none for an unknown filter and for a value that it does not take. -/
def applyFilter? (name : String) (arguments : List (String × Value)) (v : Value) : Option Value :=
  match name, v with
  | "upper", .text s => some (.text (Text.upper s))
  | "lower", .text s => some (.text (Text.lower s))
  | "length", .text s => some (.number s.length)
  | "length", .list items => some (.number items.length)
  | "join", .list items =>
    match arguments.lookup "sep" with
    | none => some (.text (join "" items))
    | some (.text separator) => some (.text (join separator items))
    | some _ => none
  | _, _ => none

/-! ## Expressions -/

/-- Operations on numbers. -/
inductive Arithmetic where
  | add
  | sub
  | mul
  | mod
  deriving DecidableEq, Repr

/-- Whether a number fits a word of 64 bits with a sign. -/
def fitsWord (n : Int) : Bool := -0x8000000000000000 ≤ n && n < 0x8000000000000000

/-- Numbers are words of 64 bits with a sign; a larger result is none. -/
def Arithmetic.apply? (op : Arithmetic) (a b : Int) : Option Int :=
  let result := match op with
    | add => some (a + b)
    | sub => some (a - b)
    | mul => some (a * b)
    | mod => if b = 0 then none else some (a.tmod b)
  result.filter fitsWord

/-- Comparisons. -/
inductive Comparison where
  | equal
  | different
  | less
  | atMost
  | greater
  | atLeast
  deriving DecidableEq, Repr

/-- Compares two values. A number differs from everything else and is not unlike it either; only
numbers have an order. -/
def Comparison.apply? (op : Comparison) (a b : Value) : Option Bool :=
  let mixed := a.number?.isSome ≠ b.number?.isSome
  let ordered (test : Int → Int → Bool) := do
    let m ← a.number?
    let n ← b.number?
    pure (test m n)
  match op with
  | equal => some (!mixed && a = b)
  | different => some (!mixed && a ≠ b)
  | less => ordered fun m n => m < n
  | atMost => ordered fun m n => m ≤ n
  | greater => ordered fun m n => m > n
  | atLeast => ordered fun m n => m ≥ n

mutual

/-- An expression. -/
inductive Expr where
  | literal (v : Value)
  | path (p : Path)
  /-- Two texts or numbers, one after the other. -/
  | concat (a b : Expr)
  | arithmetic (op : Arithmetic) (a b : Expr)
  | compare (op : Comparison) (a b : Expr)
  | both (a b : Expr)
  | either (a b : Expr)
  | negation (a : Expr)
  /-- Whether `a` is contained in `b`. -/
  | member (a b : Expr)
  /-- Whether a name stands for something. -/
  | defined (p : Path)
  | filtered (a : Expr) (filter : String) (arguments : Arguments)

/-- The arguments of a filter. -/
inductive Arguments where
  | none
  | more (name : String) (value : Expr) (rest : Arguments)

end

/-- The name that an expression comes down to, without its filters. -/
def Expr.subject? : Expr → Option Path
  | .path p => some p
  | .filtered a _ _ => a.subject?
  | _ => none

/-- Whether an expression comes down to a name that stands for nothing. -/
def Expr.isUndefined (s : Scope) (e : Expr) : Bool :=
  e.subject?.any fun p => (s.find? p).isNone

/-- The truth of an expression, given its value. A name without a value is false, also under a
filter. -/
def Expr.truthOf (e : Expr) (value : Option Value) : Option Bool :=
  if e.subject?.isSome then some (value.any Value.isTrue) else value.map Value.isTrue

mutual

/-- Value of an expression; none where it has no meaning. -/
def Expr.value? (s : Scope) : Expr → Option Value
  | .literal v => some v
  | .path p => s.find? p
  | .concat a b => do
    let x ← (← a.value? s).piece?
    let y ← (← b.value? s).piece?
    pure (.text (x ++ y))
  | .arithmetic op a b => do
    let m ← (← a.value? s).number?
    let n ← (← b.value? s).number?
    return .number (← op.apply? m n)
  | .compare op a b => do
    let x ← a.value? s
    let y ← b.value? s
    return .flag (← op.apply? x y)
  | .both a b =>
    (a.truthOf (a.value? s)).bind fun x =>
      if x then (b.truthOf (b.value? s)).map .flag else some (.flag false)
  | .either a b =>
    (a.truthOf (a.value? s)).bind fun x =>
      if x then some (.flag true) else (b.truthOf (b.value? s)).map .flag
  | .negation a =>
    if a.isUndefined s then some (.flag true) else (a.value? s).map fun v => .flag (!v.isTrue)
  | .member a b => do
    let x ← a.value? s
    let y ← b.value? s
    return .flag (← y.contains? x)
  | .defined p => some (.flag (s.find? p).isSome)
  | .filtered a name arguments => do
    let v ← a.value? s
    let xs ← arguments.values? s
    applyFilter? name xs v

def Arguments.values? (s : Scope) : Arguments → Option (List (String × Value))
  | .none => some []
  | .more name e rest => do
    let v ← e.value? s
    let vs ← rest.values? s
    pure ((name, v) :: vs)

end

/-- Truth of an expression that stands as a condition. -/
def Expr.truth? (s : Scope) (e : Expr) : Option Bool := e.truthOf (e.value? s)

end RecordSwap.Template
