import RecordSwap.Template.Syntax
import RecordSwap.Text.Blank

/-!
# Banner templates

Reading and rendering a whole template.

* `Piece`: text and tags in the order in which they stand. A tag may take away the white space
  before or after it (`trimmed`).
* `Block.ofPieces?`: pairs opening and closing tags.
* `renderTemplate?`: the text of a template; none if it cannot be read or rendered.
-/

namespace RecordSwap.Template

open Text Text.Reader

/-! ## Pieces -/

/-- What stands between the marks of a tag. -/
inductive Tag where
  /-- A comment, or a mark around text that is copied. -/
  | silent
  | output (e : Expr)
  | ifTag (condition : Expr)
  | elifTag (condition : Expr)
  | elseTag
  | endIf
  | forTag (name : String) (container : Expr)
  | endFor

/-- A piece of a template. -/
inductive Piece where
  | text (s : String)
  | tag (trimsBefore : Bool) (tag : Tag) (trimsAfter : Bool)

/-- Whether the white space before the first piece is taken away. -/
def trimsBefore : List Piece → Bool
  | .tag before _ _ :: _ => before
  | _ => false

/-- Takes away white space next to tags; `after` tells whether the tag before asks for it. -/
def trimmed (after : Bool) : List Piece → List Piece
  | [] => []
  | .text s :: rest =>
    let s := if after then trimStart s else s
    .text (if trimsBefore rest then trimEnd s else s) :: trimmed false rest
  | .tag before t after :: rest => .tag before t after :: trimmed after rest

/-! ## Reading pieces -/

/-- Reads what stands between an opening and a closing mark. -/
def marked (opening closing : String) (p : Reader α) : Reader (Bool × α × Bool) := do
  literal opening
  let before ← accepts "-"
  skipWhile isGap
  let a ← p
  let after ← accepts "-"
  literal closing
  pure (before, a, after)

def tagOf (opening closing : String) (p : Reader Tag) : Reader Piece := do
  let (before, t, after) ← marked opening closing p
  pure (.tag before t after)

def directive : Reader Tag :=
  (do sign "if"; return .ifTag (← expression)) <|>
  (do sign "elif"; return .elifTag (← expression)) <|>
  (do sign "else"; pure .elseTag) <|>
  (do sign "endif"; pure .endIf) <|>
  (do
    sign "for"
    let name ← token name
    sign "in"
    return .forTag name (← expression)) <|>
  (do sign "endfor"; pure .endFor)

def comment : Reader Piece := do
  literal "\x7b#"
  let before ← accepts "-"
  discard (many (unlessAt (literal "-#\x7d" <|> literal "#\x7d")))
  let after ← accepts "-"
  literal "#\x7d"
  pure (.tag before .silent after)

/-- Text that is copied without looking for tags in it. -/
def copied : Reader (List Piece) := do
  let mark (word : String) : Reader Piece :=
    tagOf "\x7b%" "%\x7d" (do sign word; pure .silent)
  let first ← mark "raw"
  let cs ← many (unlessAt (mark "endraw"))
  let last ← mark "endraw"
  pure [first, .text (String.ofList cs), last]

def plain : Reader Piece := do
  let opening := literal "\x7b\x7b" <|> literal "\x7b%" <|> literal "\x7b#"
  let cs ← many1 (unlessAt opening)
  pure (.text (String.ofList cs))

def pieces : Reader (List Piece) := do
  let one (p : Reader Piece) : Reader (List Piece) := return [← p]
  let groups ← many (
    one (tagOf "\x7b\x7b" "\x7d\x7d" (return .output (← expression))) <|> copied <|>
    one (tagOf "\x7b%" "%\x7d" directive) <|> one comment <|> one plain)
  pure groups.flatten

/-! ## Blocks -/

mutual

/-- Reads pieces up to the first closing tag that belongs to something further out. Uses at most
`fuel` steps. -/
def Block.read : Nat → List Piece → Option (Block × List Piece)
  | 0, _ => none
  | _ + 1, [] => some (.done, [])
  | fuel + 1, .text s :: rest => do
    let (after, rest) ← Block.read fuel rest
    some (.text s after, rest)
  | fuel + 1, .tag before t trimsAfter :: rest =>
    match t with
    | .silent => Block.read fuel rest
    | .output e => do
      let (after, rest) ← Block.read fuel rest
      some (.output e after, rest)
    | .ifTag e => do
      let (yes, rest) ← Block.read fuel rest
      let (no, rest) ← Block.readElse fuel rest
      let (after, rest) ← Block.read fuel rest
      some (.choose e yes no after, rest)
    | .forTag name e => do
      let (body, rest) ← Block.read fuel rest
      let (empty, rest) ← match rest with
        | .tag _ .elseTag _ :: rest => Block.read fuel rest
        | rest => some (.done, rest)
      match rest with
      | .tag _ .endFor _ :: rest =>
        let (after, rest) ← Block.read fuel rest
        some (.each name e body empty after, rest)
      | _ => none
    | _ => some (.done, .tag before t trimsAfter :: rest)

/-- Reads what follows the first branch of a choice, up to the end of the choice. -/
def Block.readElse : Nat → List Piece → Option (Block × List Piece)
  | 0, _ => none
  | fuel + 1, .tag _ (.elifTag e) _ :: rest => do
    let (yes, rest) ← Block.read fuel rest
    let (no, rest) ← Block.readElse fuel rest
    some (.choose e yes no .done, rest)
  | fuel + 1, .tag _ .elseTag _ :: rest => do
    match ← Block.read fuel rest with
    | (no, .tag _ .endIf _ :: rest) => some (no, rest)
    | _ => none
  | _ + 1, .tag _ .endIf _ :: rest => some (.done, rest)
  | _ + 1, _ => none

end

/-- The block that a list of pieces makes up. Each step uses up a piece, but for the last one of
each block. -/
def Block.ofPieces? (ps : List Piece) : Option Block :=
  match Block.read (2 * ps.length + 2) ps with
  | some (b, []) => some b
  | _ => none

/-- Text of a template; none if it cannot be read or rendered. -/
def renderTemplate? (template : String) (context : List (String × Value)) : Option String := do
  let ps ← whole pieces template
  let block ← Block.ofPieces? (trimmed false ps)
  block.render? { context }

end RecordSwap.Template
