import RecordSwap.Text.CaseTable

/-!
# Case

Upper and lower case of whole texts, for all of Unicode.

* `upper`: every character by its upper-case form, which may be longer (`ß` becomes `SS`).
* `lower`: every character by its lower-case form; a capital sigma at the end of a word becomes the
  final small sigma.
-/

namespace RecordSwap.Text

def CaseRun.partner? (r : CaseRun) (c : Nat) : Option Nat :=
  if r.first ≤ c ∧ c ≤ r.last ∧ (c - r.first) % r.step = 0 then some (r.target + (c - r.first))
  else none

/-- The form of a character, by its expansion, its run, or unchanged. -/
def caseForm (expansions : List (Nat × List Nat)) (runs : List CaseRun) (c : Char) : List Char :=
  match expansions.lookup c.toNat with
  | some form => form.map Char.ofNat
  | none =>
    match runs.findSome? (·.partner? c.toNat) with
    | some partner => [Char.ofNat partner]
    | none => [c]

/-- Whether a character lies in one of the ranges. -/
def inRanges (ranges : List (Nat × Nat)) (c : Char) : Bool :=
  ranges.any fun (first, last) => first ≤ c.toNat && c.toNat ≤ last

def upper (s : String) : String :=
  String.ofList (s.toList.flatMap (caseForm upperExpansions upperRuns))

/-- Whether the nearest character that is not skipped has a case. -/
def nearCased : List Char → Bool
  | [] => false
  | c :: rest =>
    if inRanges caseIgnorableRanges c then nearCased rest else inRanges casedRanges c

/-- Lower-case form of the rest of a text; the characters before it, last one first, are
`before`. -/
def lowerAfter (before : List Char) : List Char → List Char
  | [] => []
  | c :: rest =>
    let form :=
      if c = 'Σ' then if nearCased before && !nearCased rest then ['ς'] else ['σ']
      else caseForm lowerExpansions lowerRuns c
    form ++ lowerAfter (c :: before) rest

def lower (s : String) : String := String.ofList (lowerAfter [] s.toList)

end RecordSwap.Text
