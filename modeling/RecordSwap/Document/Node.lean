/-!
# Documents

The trees that project files are read into, whatever their format.

* `Scalar`: what a single value means.
* `Node`: a scalar, a sequence or a mapping. A scalar also keeps the text that stands for it where a
  text is wanted.
* `Node.isReadable`: whether a tree can be read as data of any kind.
-/

namespace RecordSwap.Document

/-- What a single value means. -/
inductive Scalar where
  | null
  | flag (b : Bool)
  /-- A natural number of 64 bits. -/
  | natural (n : Nat)
  /-- Any other number, as it is printed. -/
  | number (text : String)
  | text (s : String)
  /-- A value that cannot be represented; it does no harm where nothing reads it. -/
  | unreadable
  deriving DecidableEq, Repr

/-- A tree of data. -/
inductive Node where
  /-- A single value, and what a text field takes from it, if anything. -/
  | scalar (value : Scalar) (written : Option String)
  | sequence (items : List Node)
  | mapping (entries : List (Node × Node))
  deriving BEq, Repr

namespace Node

def missing : Node := .scalar .null (some "")

def isNull : Node → Bool
  | scalar .null _ => true
  | _ => false

/-- Whether a node was left out; it also stands for an empty sequence or mapping. -/
def isMissing : Node → Bool
  | scalar .null (some "") => true
  | _ => false

/-- The text that a text field takes from a node. -/
def text? : Node → Option String
  | scalar _ written => written
  | _ => none

def sameKey : Node → Node → Bool
  | scalar v _, scalar w _ => v = w
  | k, l => k == l

def distinctKeys : List (Node × Node) → Bool
  | [] => true
  | (k, _) :: rest => !rest.any (fun e => k.sameKey e.1) && distinctKeys rest

/-- Whether a tree can be read as data: all scalars can be represented, no mapping has a key twice,
and sequences and mappings are nested at most `depth` times. -/
def isReadable : Nat → Node → Bool
  | _, scalar value _ => value ≠ .unreadable
  | 0, _ => false
  | depth + 1, sequence items => items.all (isReadable depth)
  | depth + 1, mapping entries =>
    entries.all (fun e => isReadable depth e.1 && isReadable depth e.2) && distinctKeys entries

end Node

end RecordSwap.Document
