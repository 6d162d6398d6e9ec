import RecordSwap.Document.Plain
import RecordSwap.Document.Yaml.Token

/-!
# YAML documents

Reading YAML text into a `Node`.

* `Node.ofTokens?` and its companions: the grammar of tokens, one function for each collection.
  Where a value is left out, `Node.missing` stands in.
* `Yaml.read?`: reads a text of one document, or of none.
-/

namespace RecordSwap.Document

namespace Yaml

/-- Whether no token or one of a list stands in front. -/
def startsWith (marks : List Token) : List Token → Bool
  | [] => true
  | t :: _ => marks.contains t

mutual

/-- Reads a node. Block collections are allowed if `block` holds, and a sequence of items that are
not indented if `flat` holds. -/
def node? (block flat : Bool) : Nat → List Token → Option (Node × List Token)
  | 0, _ => none
  | fuel + 1, ts =>
    match ts with
    | .plain text :: rest => some (.scalar (.ofPlain text) (some text), rest)
    | .quoted text :: rest => some (.scalar (.text text) (some text), rest)
    | .flowSequenceStart :: rest => do
      let (items, rest) ← flowItems? true fuel rest
      some (.sequence items, rest)
    | .flowMappingStart :: rest => do
      let (entries, rest) ← flowEntries? true fuel rest
      some (.mapping entries, rest)
    | .blockSequenceStart :: rest =>
      if block then do
        let (items, rest) ← blockItems? fuel rest
        some (.sequence items, rest)
      else none
    | .blockMappingStart :: rest =>
      if block then do
        let (entries, rest) ← blockEntries? fuel rest
        some (.mapping entries, rest)
      else none
    | .blockEntry :: _ =>
      if flat then do
        let (items, rest) ← flatItems? fuel ts
        some (.sequence items, rest)
      else none
    | _ => none

/-- Reads a node, unless one of `marks` stands in front. -/
def nodeUnless? (marks : List Token) (block flat : Bool) :
    Nat → List Token → Option (Node × List Token)
  | 0, _ => none
  | fuel + 1, ts =>
    if startsWith marks ts then some (.missing, ts) else node? block flat fuel ts

/-- Reads the items of a block sequence and its end. -/
def blockItems? : Nat → List Token → Option (List Node × List Token)
  | 0, _ => none
  | fuel + 1, ts =>
    match ts with
    | .blockEntry :: rest => do
      let (item, rest) ← nodeUnless? [.blockEntry, .blockEnd] true false fuel rest
      let (items, rest) ← blockItems? fuel rest
      some (item :: items, rest)
    | .blockEnd :: rest => some ([], rest)
    | _ => none

/-- Reads the items of a sequence that is not indented. -/
def flatItems? : Nat → List Token → Option (List Node × List Token)
  | 0, _ => none
  | fuel + 1, ts =>
    match ts with
    | .blockEntry :: rest => do
      let (item, rest) ← nodeUnless? [.blockEntry, .key, .value, .blockEnd] true false fuel rest
      let (items, rest) ← flatItems? fuel rest
      some (item :: items, rest)
    | _ => some ([], ts)

/-- Reads the entries of a block mapping and its end. -/
def blockEntries? : Nat → List Token → Option (List (Node × Node) × List Token)
  | 0, _ => none
  | fuel + 1, ts =>
    let marks := [.key, .value, .blockEnd]
    match ts with
    | .key :: rest => do
      let (k, rest) ← nodeUnless? marks true true fuel rest
      let (v, rest) ← match rest with
        | .value :: rest => nodeUnless? marks true true fuel rest
        | rest => some (.missing, rest)
      let (entries, rest) ← blockEntries? fuel rest
      some ((k, v) :: entries, rest)
    | .blockEnd :: rest => some ([], rest)
    | _ => none

/-- Reads the items of a flow sequence and its end. -/
def flowItems? (first : Bool) : Nat → List Token → Option (List Node × List Token)
  | 0, _ => none
  | fuel + 1, ts =>
    match ts with
    | .flowSequenceEnd :: rest => some ([], rest)
    | ts => do
      let ts ← if first then some ts else match ts with
        | .flowEntry :: rest => some rest
        | _ => none
      match ts with
      | .flowSequenceEnd :: rest => some ([], rest)
      | .key :: rest =>
        let (entry, rest) ← pair? fuel rest
        let (items, rest) ← flowItems? false fuel rest
        some (.mapping [entry] :: items, rest)
      | ts =>
        let (item, rest) ← node? false false fuel ts
        let (items, rest) ← flowItems? false fuel rest
        some (item :: items, rest)

/-- Reads a single entry that stands as an item of a flow sequence, after its mark. A mark that has
no key behind it takes the next token with it. -/
def pair? : Nat → List Token → Option ((Node × Node) × List Token)
  | 0, _ => none
  | fuel + 1, ts => do
    let (k, rest) ← nodeUnless? [.value, .flowEntry, .flowSequenceEnd] false false fuel ts
    let rest := if startsWith [.value, .flowEntry, .flowSequenceEnd] ts then rest.drop 1 else rest
    let (v, rest) ← match rest with
      | .value :: rest => nodeUnless? [.flowEntry, .flowSequenceEnd] false false fuel rest
      | rest => some (.missing, rest)
    some ((k, v), rest)

/-- Reads the entries of a flow mapping and its end. -/
def flowEntries? (first : Bool) : Nat → List Token → Option (List (Node × Node) × List Token)
  | 0, _ => none
  | fuel + 1, ts =>
    match ts with
    | .flowMappingEnd :: rest => some ([], rest)
    | ts => do
      let ts ← if first then some ts else match ts with
        | .flowEntry :: rest => some rest
        | _ => none
      match ts with
      | .flowMappingEnd :: rest => some ([], rest)
      | .key :: rest =>
        let (k, rest) ← nodeUnless? [.value, .flowEntry, .flowMappingEnd] false false fuel rest
        let (v, rest) ← match rest with
          | .value :: rest => nodeUnless? [.flowEntry, .flowMappingEnd] false false fuel rest
          | rest => some (.missing, rest)
        let (entries, rest) ← flowEntries? false fuel rest
        some ((k, v) :: entries, rest)
      | ts =>
        let (k, rest) ← node? false false fuel ts
        let (entries, rest) ← flowEntries? false fuel rest
        some ((k, .missing) :: entries, rest)

end

def document? (ts : List Token) : Option (Node × List Token) :=
  nodeUnless? [.documentStart, .documentEnd] true false (4 * ts.length + 4) ts

/-- Reads one document, with or without a mark in front; an empty text stands for a missing node. -/
def ofTokens? (ts : List Token) : Option Node := do
  let (node, rest) ← match ts with
    | [] => some (.missing, [])
    | .documentStart :: rest => document? rest
    | .documentEnd :: _ => none
    | ts => document? ts
  if rest.all (· = .documentEnd) then some node else none

def read? (text : String) : Option Node := (tokens? text).bind ofTokens?

end Yaml

end RecordSwap.Document
