import RecordSwap.Proofs.Blocks
import RecordSwap.Proofs.Pieces

/-!
# Turning storage units

What becomes of the bytes of one storage unit when its bit-fields and the unit itself are turned.

* `turnSteps`, `applyTurns`: several turns of one span, as steps and on its bytes alone
  (`part_turnSteps`, `leftInverse_turnSteps`).
* `FieldLayout.turns`, `unitTurns`: the turns of a bit-field and of a unit.
* `applyTurns_fields_fields`: turning all bit-fields of a unit twice restores it, since they have no
  bit in common.
* `applyTurns_unit_reverse`: the turns of one direction undo those of the other.
-/

namespace RecordSwap

/-! ## Turns of one span -/

/-- The steps that turn one span. -/
def turnSteps (s : Span) (turns : List Turn) : List Step := turns.map (Step.mk s)

/-- The bytes of a span after several turns. -/
def applyTurns (turns : List Turn) (u : Bytes) : Bytes := turns.foldl (fun u t => t.apply u) u

theorem applyTurns_append (turns rest : List Turn) (u : Bytes) :
    applyTurns (turns ++ rest) u = applyTurns rest (applyTurns turns u) :=
  List.foldl_append

@[simp] theorem length_applyTurns (turns : List Turn) (u : Bytes) :
    (applyTurns turns u).length = u.length := by
  induction turns generalizing u with
  | nil => rfl
  | cons t turns ih => exact (ih _).trans (Turn.length_apply t u)

theorem inside_turnSteps (s : Span) (turns : List Turn) : Inside s (turnSteps s turns) := by
  intro step h
  obtain ⟨t, -, rfl⟩ := List.mem_map.1 h
  exact Span.Sub.refl s

theorem part_turnSteps {s : Span} (turns : List Turn) {image : Image}
    (h : s.start + s.size ≤ image.length) :
    (runSteps (turnSteps s turns) image).part s = applyTurns turns (image.part s) := by
  induction turns generalizing image with
  | nil => rfl
  | cons t turns ih =>
    have ht := Step.part_run (s := ⟨s, t⟩) h
    rw [turnSteps, List.map_cons, runSteps_cons, ← turnSteps, ih (by simpa using h), ht]
    rfl

theorem turnSteps_of_not_le {s : Span} (turns : List Turn) {image : Image}
    (h : ¬ s.start + s.size ≤ image.length) : runSteps (turnSteps s turns) image = image := by
  induction turns with
  | nil => rfl
  | cons t turns ih => rwa [turnSteps, List.map_cons, runSteps_cons, Step.run_of_not_le (.inr h)]

theorem leftInverse_turnSteps {s : Span} {turns back : List Turn}
    (h : ∀ u : Bytes, u.length = s.size → applyTurns back (applyTurns turns u) = u) :
    Function.LeftInverse (runSteps (turnSteps s back)) (runSteps (turnSteps s turns)) := by
  intro image
  by_cases hs : s.start + s.size ≤ image.length
  · apply Image.eq_of_agree (s := s)
    · apply Image.agree_of_part_eq
      rw [part_turnSteps back (by simpa using hs), part_turnSteps turns hs,
        h _ (Image.length_part hs)]
    · intro k hk
      rw [getElem?_runSteps (inside_turnSteps s back) _ hk,
        getElem?_runSteps (inside_turnSteps s turns) _ hk]
  · rw [turnSteps_of_not_le turns hs, turnSteps_of_not_le back hs]

/-! ## Turns of bit-fields -/

/-- The turns of a bit-field; a single bit need not be turned. -/
def FieldLayout.turns (f : FieldLayout) : List Turn :=
  if f.bitLength.getD 0 > 1 then [.mirror f.shift (f.bitLength.getD 0)] else []

/-- The turns of a storage unit, in order. -/
def unitTurns (direction : Direction) (fs : List FieldLayout) : List Turn :=
  match direction with
  | .localToForeign => fs.flatMap FieldLayout.turns ++ [.reflect]
  | .foreignToLocal => .reflect :: fs.flatMap FieldLayout.turns

/-- A bit-field inside a word lies inside a unit of `n` bytes. -/
def FieldLayout.InsideUnit (n : Nat) (f : FieldLayout) : Prop :=
  ∀ bits, f.bitLength = some bits → FieldInside n f.shift bits

theorem turns_twice {f : FieldLayout} {u : Bytes} (h : f.InsideUnit u.length) :
    applyTurns f.turns (applyTurns f.turns u) = u := by
  unfold FieldLayout.turns
  cases hb : f.bitLength with
  | none => rfl
  | some bits =>
    split
    · exact turnField_turnField (h bits hb)
    · rfl

theorem turns_comm {f g : FieldLayout} {u : Bytes} {bits bits' : Nat}
    (hf : f.bitLength = some bits) (hg : g.bitLength = some bits') (h : f.InsideUnit u.length)
    (h' : g.InsideUnit u.length) (hd : f.shift + bits ≤ g.shift) :
    applyTurns f.turns (applyTurns g.turns u) = applyTurns g.turns (applyTurns f.turns u) := by
  unfold FieldLayout.turns
  rw [hf, hg]
  split <;> split <;> try rfl
  exact (turnField_comm (h bits hf) (h' bits' hg) (.inl hd)).symm

/-- A bit-field can be turned before or after those that follow it. -/
theorem turns_comm_rest {f : FieldLayout} {bits a b : Nat} {fs : List FieldLayout}
    (hf : f.bitLength = some bits) (hr : BitRun a b fs) (ha : f.shift + bits ≤ a) {u : Bytes}
    (h : f.InsideUnit u.length) (hfs : ∀ g ∈ fs, g.InsideUnit u.length) :
    applyTurns f.turns (applyTurns (fs.flatMap FieldLayout.turns) u) =
      applyTurns (fs.flatMap FieldLayout.turns) (applyTurns f.turns u) := by
  induction hr generalizing u with
  | nil => rfl
  | @cons n bits' stop g rest hs hb _ ih =>
    rw [List.flatMap_cons, applyTurns_append, applyTurns_append, ih (by omega) (by simpa using h)
      (fun x hx => by simpa using hfs x (.tail _ hx)), turns_comm hf hb h (hfs g (.head _))
        (by omega)]

theorem applyTurns_fields_fields {a b : Nat} {fs : List FieldLayout} (hr : BitRun a b fs)
    {u : Bytes} (h : ∀ f ∈ fs, f.InsideUnit u.length) :
    applyTurns (fs.flatMap FieldLayout.turns) (applyTurns (fs.flatMap FieldLayout.turns) u) =
      u := by
  induction hr generalizing u with
  | nil => rfl
  | @cons n bits stop f rest hs hb hrun ih =>
    have hf := h f (.head _)
    have hrest : ∀ g ∈ rest, g.InsideUnit u.length := fun g hg => h g (.tail _ hg)
    rw [List.flatMap_cons, applyTurns_append, applyTurns_append,
      turns_comm_rest hb hrun (by omega) (by simpa using hf) (by simpa using hrest),
      turns_twice hf, ih hrest]

theorem applyTurns_reflect_cons (turns : List Turn) (u : Bytes) :
    applyTurns (.reflect :: turns) u = applyTurns turns (reflect u) := rfl

theorem applyTurns_reflect (u : Bytes) : applyTurns [.reflect] u = reflect u := rfl

/-- The turns of one direction undo those of the other. -/
theorem applyTurns_unit_reverse {a b : Nat} {fs : List FieldLayout} (hr : BitRun a b fs)
    {u : Bytes} (h : ∀ f ∈ fs, f.InsideUnit u.length) (direction : Direction) :
    applyTurns (unitTurns direction.reverse fs) (applyTurns (unitTurns direction fs) u) = u := by
  cases direction with
  | localToForeign =>
    simp only [unitTurns, Direction.reverse]
    rw [applyTurns_reflect_cons, applyTurns_append, applyTurns_reflect, reflect_reflect,
      applyTurns_fields_fields hr h]
  | foreignToLocal =>
    simp only [unitTurns, Direction.reverse]
    rw [applyTurns_append, applyTurns_reflect, applyTurns_reflect_cons,
      applyTurns_fields_fields hr (by simpa using h), reflect_reflect]

end RecordSwap
