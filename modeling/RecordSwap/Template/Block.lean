import RecordSwap.Template.Expr

/-!
# Blocks of banner templates

The body of a template and its text.

* `Block`: text, printed expressions, choices and loops, one after the other.
* `Block.render?`: the text of a block.
-/

namespace RecordSwap.Template

/-- A part of a template, with the part that follows it. -/
inductive Block where
  | done
  | text (s : String) (rest : Block)
  /-- Prints a value. -/
  | output (e : Expr) (rest : Block)
  | choose (condition : Expr) (yes no rest : Block)
  /-- Repeats `body` for each element; `empty` stands in where there is none. -/
  | each (name : String) (container : Expr) (body empty rest : Block)

/-- What a loop runs over: the elements of a list or the characters of a text. -/
def Value.elements? : Value → Option (List String)
  | .list items => some items
  | .text s => some (s.toList.map String.singleton)
  | _ => none

def Scope.enter (s : Scope) (name : String) (count : Nat) (element : String × Nat) : Scope :=
  { s with loops := ⟨name, .text element.1, element.2, count⟩ :: s.loops }

/-- Text of a block; none if one of the expressions that are reached has no meaning. -/
def Block.render? (s : Scope) : Block → Option String
  | done => some ""
  | text t rest => do
    let after ← rest.render? s
    pure (t ++ after)
  | output e rest => do
    let v ← e.value? s
    let after ← rest.render? s
    pure (v.render ++ after)
  | choose condition yes no rest => do
    let t ← if ← condition.truth? s then yes.render? s else no.render? s
    let after ← rest.render? s
    pure (t ++ after)
  | each name container body empty rest => do
    let elements ← (← container.value? s).elements?
    let t ← if elements.isEmpty then empty.render? s
      else
        (elements.zipIdx.mapM fun e => body.render? (s.enter name elements.length e)).map
          String.join
    let after ← rest.render? s
    pure (t ++ after)

end RecordSwap.Template
