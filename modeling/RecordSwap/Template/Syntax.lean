import RecordSwap.Template.Block
import RecordSwap.Text.Reader

/-!
# Reading expressions of banner templates

* `expression`: reads an expression. From the loosest to the tightest: `or`, `and`, `not`,
  `in` and comparisons, sums, products, filters, and names and literals.
* Only what begins with a text or holds `~` can be a text operand; such an operand takes part in
  comparisons but not in sums.
-/

namespace RecordSwap.Template

open Text Text.Reader

/-! ## Tokens -/

/-- White space between the tokens of an expression. -/
def isGap (c : Char) : Bool := c = ' ' || c = '\t' || c = '\r' || c = '\n'

def token (p : Reader α) : Reader α := do
  let a ← p
  skipWhile isGap
  pure a

def sign (s : String) : Reader Unit := token (literal s)

def keyword (s : String) : Reader Unit := token do
  literal s
  discard (satisfy isGap)

def isNameChar (c : Char) : Bool := c.isAlphanum || c = '_'

def name : Reader String := do
  let first ← satisfy fun c => isNameChar c && !c.isDigit
  let rest ← takeWhile isNameChar
  pure (String.ofList (first :: rest))

/-- The digits of a whole number, without needless zeros. -/
def digits : Reader (List Char) :=
  (do char '0'; pure ['0']) <|> do
    let first ← satisfy Char.isDigit
    let rest ← takeWhile Char.isDigit
    pure (first :: rest)

def number : Reader Int := do
  let negative ← accepts "-"
  let cs ← digits
  let size := (Nat.ofDigitChars 10 cs 0 : Nat)
  let n : Int := if negative then -size else size
  if fitsWord n then pure n else failure

/-- A text in quotes of one of three kinds. Nothing in it has a special meaning. -/
def quoted : Reader String := do
  let mark ← oneOf ["\"", "'", "`"]
  let cs ← takeWhile fun c => String.singleton c ≠ mark
  literal mark
  pure (String.ofList cs)

/-- A key after a name: `.key`, `[0]` or `["key"]`. -/
def key : Reader String :=
  (do
    char '.'
    let cs ← many1 (satisfy isNameChar)
    pure (String.ofList cs)) <|>
  (do
    char '['
    let key ← (return toString (← number)) <|> quoted
    char ']'
    pure key)

def path : Reader Path := token do
  let name ← name
  let keys ← many key
  pure ⟨name, keys⟩

/-! ## Operands -/

def truthValue : Reader Expr := token do
  let word ← oneOf ["true", "false", "True", "False"]
  pure (.literal (.flag (word = "true" || word = "True")))

def definedTest : Reader Expr := do
  let p ← path
  sign "is"
  let negative ← (do sign "not"; pure true) <|> pure false
  let word ← token name
  if word = "defined" then pure (if negative then .negation (.defined p) else .defined p)
  else if word = "undefined" then pure (if negative then .defined p else .negation (.defined p))
  else failure

def simpleOperand : Reader Expr :=
  truthValue <|> definedTest <|> (return .path (← path)) <|>
    return .literal (.number (← token number))

def concatPart : Reader Expr :=
  (return .literal (.number (← token number))) <|>
    (return .literal (.text (← token quoted))) <|> (return .path (← path))

def concatenation : Reader Expr := do
  let first ← concatPart
  let others ← many1 (do sign "~"; concatPart)
  pure (others.foldl .concat first)

/-! ## Operators -/

/-- An operator on numbers with its right operand. -/
def step (operand : Reader Expr) (text : String) (op : Arithmetic) : Reader (Expr → Expr) := do
  sign text
  let b ← operand
  pure fun a => .arithmetic op a b

def sums (operand : Reader Expr) : Reader Expr :=
  let products := chain operand (step operand "*" .mul <|> step operand "%" .mod)
  chain products (step products "+" .add <|> step products "-" .sub)

def comparison : Reader Comparison := token do
  match ← oneOf ["<=", "<", ">=", ">", "==", "!="] with
  | "<=" => pure .atMost
  | "<" => pure .less
  | ">=" => pure .atLeast
  | ">" => pure .greater
  | "==" => pure .equal
  | _ => pure .different

/-- A comparison of two operands, or one operand alone. -/
def comparisons (operand : Reader Expr) : Reader Expr := do
  let a ← operand
  (do
    let op ← comparison
    let b ← operand
    pure (.compare op a b)) <|> pure a

/-- A test whether one operand is contained in another. -/
def membership (operand container : Reader Expr) : Reader Expr := do
  let a ← operand
  let negative ← (do keyword "not"; pure true) <|> pure false
  sign "in"
  let b ← container
  pure (if negative then .negation (.member a b) else .member a b)

/-- Conditions joined by `and`, and those joined by `or`. -/
def conditions (operand : Reader Expr) : Reader Expr :=
  let joint := chain operand do keyword "and"; let b ← operand; pure fun a => .both a b
  chain joint do keyword "or"; let b ← joint; pure fun a => .either a b

/-! ## Filters -/

def arguments (value : Reader Expr) : Reader Arguments := do
  let argument : Reader (String × Expr) := do
    let name ← token name
    sign "="
    let e ← value
    pure (name, e)
  sign "("
  let given ← (do
    let first ← argument
    let others ← many (do sign ","; argument)
    discard (accepts ",")
    skipWhile isGap
    pure (first :: others)) <|> pure []
  sign ")"
  pure (given.foldr (fun (name, e) rest => .more name e rest) .none)

def withFilters (value operand : Reader Expr) : Reader Expr :=
  chain operand do
    sign "|"
    let name ← token name
    let arguments ← arguments value <|> pure .none
    pure fun a => .filtered a name arguments

/-! ## Expressions -/

/-- Sums whose operands may stand in parentheses, nested at most `depth` times. -/
def sum : Nat → Reader Expr
  | 0 => sums simpleOperand
  | depth + 1 => fun size =>
    sums ((do sign "("; let e ← sum depth; sign ")"; pure e) <|> simpleOperand) size

/-- Reads an expression in which parentheses are nested at most `depth` times. -/
def expressionWithin : Nat → Reader Expr
  | 0 => failure
  | depth + 1 => fun size =>
    let value := expressionWithin depth
    let textual := withFilters value
      (concatenation <|> return .literal (.text (← token quoted)))
    let numeric := withFilters value (sum depth)
    let operand := textual <|> sums numeric
    let atom := membership (textual <|> numeric) (textual <|> return .path (← path)) <|>
      comparisons operand
    let negated := do keyword "not"; return .negation (← atom)
    conditions (negated <|> atom <|> do sign "("; let e ← value; sign ")"; pure e) size

/-- Reads an expression. Parentheses cannot be nested deeper than there are characters. -/
def expression : Reader Expr := do expressionWithin ((← bound) + 1)

end RecordSwap.Template
