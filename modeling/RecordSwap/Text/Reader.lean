/-!
# Readers

Reading a value from the front of a list of characters.

* `Reader`: a reader either refuses or yields a value and the characters after it. `p <|> q` tries
  `q` where `p` refuses.
* `many`: repeats a reader until it refuses. Every round has to use up a character, so the number of
  characters of the whole text bounds the number of rounds. Readers carry that number with them.
* `whole`: reads a text to its end.
-/

namespace RecordSwap.Text

/-- Reads a value from the front of a list of characters, or refuses. The number is that of the
characters of the whole text. -/
abbrev Reader := ReaderT Nat (StateT (List Char) Option)

namespace Reader

def bound : Reader Nat := read

def peek? : Reader (Option Char) := fun _ cs => some (cs.head?, cs)

def any : Reader Char := fun _ cs =>
  match cs with
  | [] => none
  | c :: rest => some (c, rest)

def satisfy (fits : Char → Bool) : Reader Char := fun _ cs =>
  match cs with
  | [] => none
  | c :: rest => if fits c then some (c, rest) else none

def char (c : Char) : Reader Unit := do discard (satisfy (· = c))

def literal (s : String) : Reader Unit := s.toList.forM char

/-- Takes the first of several texts that stands in front. -/
def oneOf (texts : List String) : Reader String :=
  texts.foldr (fun s rest => (do literal s; pure s) <|> rest) failure

/-- Takes the longest run of characters that fit. -/
def takeWhile (fits : Char → Bool) : Reader (List Char) := fun _ cs =>
  some (cs.takeWhile fits, cs.dropWhile fits)

def skipWhile (fits : Char → Bool) : Reader Unit := do discard (takeWhile fits)

/-- Takes a text if it stands in front, and tells whether it did. -/
def accepts (s : String) : Reader Bool := (do literal s; pure true) <|> pure false

/-- Repeats a reader at most `n` times; `done` holds the values so far, the last one first. -/
def upTo (p : Reader α) : Nat → List α → Reader (List α)
  | 0, done => pure done.reverse
  | n + 1, done => fun size cs =>
    match p size cs with
    | none => some (done.reverse, cs)
    | some (a, rest) => upTo p n (a :: done) size rest

def many (p : Reader α) : Reader (List α) := do upTo p (← bound) []

/-- Repeats a reader until it refuses; it has to succeed once. -/
def many1 (p : Reader α) : Reader (List α) := do
  let a ← p
  let rest ← many p
  pure (a :: rest)

/-- Repeats a reader until it refuses, and combines the values from the left. -/
def chain (first : Reader α) (step : Reader (α → α)) : Reader α := do
  let a ← first
  let steps ← many step
  pure (steps.foldl (fun a f => f a) a)

/-- Takes any character, except where `stop` succeeds. -/
def unlessAt (stop : Reader β) : Reader Char := fun size cs =>
  if (stop size cs).isSome then none else any size cs

def atEnd : Reader Unit := fun _ cs => if cs.isEmpty then some ((), []) else none

def whole (p : Reader α) (s : String) : Option α :=
  let cs := s.toList
  ((do let a ← p; atEnd; pure a : Reader α) cs.length cs).map Prod.fst

end Reader

end RecordSwap.Text
