import RecordSwap.Proofs.Planning

/-!
# Moved plans

Plans of a record all of whose addresses are moved by one distance.

* `FieldLayout.moved`, `UnitLayout.moved`, `Layout.Moves`: members and units that lie further
  behind, and layouts that differ in this.
* `SwapEntry.moved`, `BitSwapOp.moved`, `SwapPlan.moved`, `BitSwapPlan.moved`: the same for plans.
  The statements for moved members are the moved statements (`BitSwapPlan.opsOf_moved`).
* `Plans.MovesAt`: plans that are moved for one record and the same for those before it.
* `Plans.MovesAt.byteSteps`, `Plans.MovesAt.bitSteps`: the steps of this record are shifted. Those
  of the records that it calls are the same, by induction on the index.
* `Plans.MovesAt.byteSwap_append`, `Plans.MovesAt.bitSwap_append`: its conversion leaves as many
  bytes in front as they are, and does to the rest what the other conversion does.
-/

namespace RecordSwap

/-! ## Members, units and statements -/

section
variable (n : Nat)

/-- The member, `n` bytes further behind. -/
def FieldLayout.moved (f : FieldLayout) : FieldLayout := { f with offset := f.offset + n }

/-- The storage unit, `n` bytes further behind. -/
def UnitLayout.moved (u : UnitLayout) : UnitLayout := { u with offset := u.offset + n }

/-- The entry of a member that lies `n` bytes further behind. -/
def SwapEntry.moved (e : SwapEntry) : SwapEntry := { e with offset := e.offset + n }

/-- The statement on bytes that lie `n` bytes further behind. -/
def BitSwapOp.moved : BitSwapOp → BitSwapOp
  | .reflectInput offset size => .reflectInput (offset + n) size
  | .reflectOutput offset size => .reflectOutput (offset + n) size
  | .mirror field bits groupOffset groupSize shift =>
    .mirror field bits (groupOffset + n) groupSize shift
  | .copy field => .copy field
  | .nested field target extents offset elementSize =>
    .nested field target extents (offset + n) elementSize

/-- The plan with all entries moved. -/
def SwapPlan.moved (plan : SwapPlan) : SwapPlan :=
  { plan with entries := plan.entries.map (SwapEntry.moved n) }

/-- The plan with all statements moved. -/
def BitSwapPlan.moved (plan : BitSwapPlan) : BitSwapPlan :=
  { plan with ops := plan.ops.map (BitSwapOp.moved n) }

/-- A layout of the same record in which all members and units lie `n` bytes further behind. -/
structure Layout.Moves (l l' : Layout) : Prop where
  name : l'.name = l.name
  fields : l'.fields = l.fields.map (FieldLayout.moved n)
  groups : l'.groups = l.groups.map (UnitLayout.moved n)

end

theorem Layout.moves_zero (l : Layout) : l.Moves 0 l := by
  have hfield : FieldLayout.moved 0 = id := rfl
  have hunit : UnitLayout.moved 0 = id := rfl
  exact ⟨rfl, by rw [hfield, List.map_id], by rw [hunit, List.map_id]⟩

theorem SwapPlan.moved_zero (plan : SwapPlan) : plan.moved 0 = plan := by
  have hentry : SwapEntry.moved 0 = id := rfl
  rw [moved, hentry, List.map_id]

theorem BitSwapPlan.moved_zero (plan : BitSwapPlan) : plan.moved 0 = plan := by
  have hop : BitSwapOp.moved 0 = id := by
    funext op
    cases op <;> rfl
  rw [moved, hop, List.map_id]

namespace BitSwapPlan

variable {n : Nat}

theorem close_moved (n : Nat) (entered : Option UnitLayout) :
    close (entered.map (UnitLayout.moved n)) = (close entered).map (BitSwapOp.moved n) := by
  cases entered <;> rfl

theorem fieldOp_moved (n : Nat) (f : FieldLayout) (bits : Nat) (u : UnitLayout) :
    fieldOp (f.moved n) bits (u.moved n) = (fieldOp f bits u).moved n := by
  unfold fieldOp
  split <;> rfl

/-- The statements for moved members are the moved statements. -/
theorem opsOf_moved {target? target?' : FieldLayout → Option Nat} (n : Nat)
    (groups : List UnitLayout) (current : Option (Nat × UnitLayout)) {fields : List FieldLayout}
    (h : ∀ f ∈ fields, target?' (f.moved n) = target? f) :
    opsOf target?' (groups.map (UnitLayout.moved n))
        (current.map fun x => (x.1, x.2.moved n)) (fields.map (FieldLayout.moved n)) =
      (opsOf target? groups current fields).map (BitSwapOp.moved n) := by
  have hsnd (current : Option (Nat × UnitLayout)) :
      (current.map fun x => (x.1, x.2.moved n)).map Prod.snd =
        (current.map Prod.snd).map (UnitLayout.moved n) := by
    cases current <;> rfl
  have hfst (current : Option (Nat × UnitLayout)) :
      (current.map fun x => (x.1, x.2.moved n)).map Prod.fst = current.map Prod.fst := by
    cases current <;> rfl
  have hget (f : FieldLayout) : ((f.moved n).group.bind fun g =>
        ((groups.map (UnitLayout.moved n))[g]?).map (g, ·)) =
      (f.group.bind fun g => (groups[g]?).map (g, ·)).map fun x => (x.1, x.2.moved n) := by
    rw [FieldLayout.moved]
    cases f.group with
    | none => rfl
    | some g =>
      simp only [Option.bind_some, List.getElem?_map, Option.map_map]
      rfl
  induction fields generalizing current with
  | nil => rw [List.map_nil, opsOf, opsOf, hsnd, close_moved]
  | cons f rest ih =>
    have ih (current : Option (Nat × UnitLayout)) :=
      @ih current fun g hg => h g (.tail _ hg)
    have hbits : (f.moved n).bitLength = f.bitLength := rfl
    have htarget := h f (.head _)
    rw [List.map_cons, opsOf, opsOf, hget, hbits, htarget]
    cases hb : f.bitLength with
    | none =>
      cases ht : target? f with
      | none => exact ih current
      | some target => exact congrArg _ (ih current)
    | some bits =>
      cases hg : f.group.bind fun g => (groups[g]?).map (g, ·) with
      | none => exact ih current
      | some x =>
        simp only [Option.map_some, hfst, hsnd, close_moved, fieldOp_moved]
        split
        · exact congrArg _ (ih current)
        · have ih := ih (some x)
          simp only [Option.map_some] at ih
          rw [ih, List.map_append]
          rfl

end BitSwapPlan

/-! ## Steps -/

theorem SwapEntry.steps_moved (n : Nat) (inner : Nat → List Step) (e : SwapEntry) :
    (e.moved n).steps inner = (e.steps inner).map (Step.shift n) := by
  unfold steps
  rw [elements_shift, Nat.add_comm n]
  rfl

theorem BitSwapOp.steps_moved (n : Nat) (direction : Direction) (inner : Nat → List Step)
    (op : BitSwapOp) :
    (op.moved n).steps direction inner = (op.steps direction inner).map (Step.shift n) := by
  cases op with
  | nested field target extents offset elementSize =>
    simp only [steps, moved, elements_shift, Nat.add_comm]
  | copy field => rfl
  | mirror field bits offset size shift =>
    simp only [steps, BitSwapOp.moved, List.map_cons, List.map_nil, Step.shift, Span.shift,
      Nat.add_comm]
  | reflectInput offset size =>
    simp only [steps, moved]
    split
    · simp only [List.map_cons, List.map_nil, Step.shift, Span.shift, Nat.add_comm]
    · rfl
  | reflectOutput offset size =>
    simp only [steps, moved]
    split
    · simp only [List.map_cons, List.map_nil, Step.shift, Span.shift, Nat.add_comm]
    · rfl

/-- The steps of the records that one at `index` can call. -/
theorem calls_congr {index : Nat} {f g : Nat → List Step}
    (h : ∀ target < index, f target = g target) :
    (fun target => if _h : target < index then f target else []) =
      fun target => if _h : target < index then g target else [] := by
  funext target
  split
  · next ht => exact h target ht
  · rfl

/-- Shifted steps leave as many bytes in front as they are. -/
theorem runSteps_shift_append {n : Nat} {steps : List Step} {front : Bytes}
    (hf : front.length = n) (image : Image) :
    runSteps (steps.map (Step.shift n)) (front ++ image) = front ++ runSteps steps image := by
  rw [runSteps_shift, if_pos (by simp [hf]), List.take_left' hf, List.drop_left' hf]

namespace Plans

/-- Plans that are moved by `n` for the record at `i`, and the same for the records before it. -/
structure MovesAt (n i : Nat) (plans plans' : Plans) : Prop where
  swapsBefore : ∀ j < i, plans'.swaps[j]? = plans.swaps[j]?
  bitSwapBefore : ∀ j < i, plans'.bitSwap? j = plans.bitSwap? j
  swaps : plans'.swaps[i]? = (plans.swaps[i]?).map (SwapPlan.moved n)
  bitSwap : plans'.bitSwap? i = (plans.bitSwap? i).map (BitSwapPlan.moved n)

namespace MovesAt

variable {n i : Nat} {plans plans' : Plans} (h : MovesAt n i plans plans') (direction : Direction)
include h

theorem bitSteps_before {j : Nat} (hj : j < i) :
    plans'.bitSteps direction j = plans.bitSteps direction j := by
  induction j using Nat.strongRecOn with
  | ind j ih =>
    rw [bitSteps, bitSteps, h.bitSwapBefore j hj]
    cases plans.bitSwap? j with
    | none => rfl
    | some plan =>
      simp only [calls_congr fun target ht => ih target ht (Nat.lt_trans ht hj)]

theorem byteSteps_before {j : Nat} (hj : j < i) :
    plans'.byteSteps direction j = plans.byteSteps direction j := by
  induction j using Nat.strongRecOn with
  | ind j ih =>
    rw [byteSteps, byteSteps, h.swapsBefore j hj]
    cases plans.swaps[j]? with
    | none => rfl
    | some plan =>
      simp only [calls_congr fun target ht => ih target ht (Nat.lt_trans ht hj),
        h.bitSteps_before direction hj]

/-- The bit swap of the record does the same steps, `n` bytes further behind. -/
theorem bitSteps :
    plans'.bitSteps direction i = (plans.bitSteps direction i).map (Step.shift n) := by
  rw [Plans.bitSteps, Plans.bitSteps, h.bitSwap]
  cases plans.bitSwap? i with
  | none => rfl
  | some plan =>
    simp only [Option.map_some, BitSwapPlan.moved,
      calls_congr fun target ht => h.bitSteps_before direction (j := target) ht,
      List.flatMap_map, List.map_flatMap, BitSwapOp.steps_moved]

/-- The byte swap of the record does the same steps, `n` bytes further behind. -/
theorem byteSteps :
    plans'.byteSteps direction i = (plans.byteSteps direction i).map (Step.shift n) := by
  rw [Plans.byteSteps, Plans.byteSteps, h.swaps]
  cases plans.swaps[i]? with
  | none => rfl
  | some plan =>
    simp only [Option.map_some, SwapPlan.moved,
      calls_congr fun target ht => h.byteSteps_before direction (j := target) ht,
      List.flatMap_map, List.map_flatMap, List.map_append, SwapEntry.steps_moved,
      h.bitSteps direction]
    split <;> rfl

/-! ## Conversions -/

variable (hr : plans.Runnable) (hr' : plans'.Runnable) {front : Bytes} (hf : front.length = n)
  (image : Image)
include hr hr' hf

/-- The bit swap leaves the bytes in front as they are and converts the rest as before. -/
theorem bitSwap_append : ∃ converted, plans.bitSwap direction i image = .ok converted ∧
    plans'.bitSwap direction i (front ++ image) = .ok (front ++ converted) := by
  refine ⟨_, hr.bitSwap_eq direction i image, ?_⟩
  rw [hr'.bitSwap_eq, h.bitSteps direction, runSteps_shift_append hf]

/-- The byte swap leaves the bytes in front as they are and converts the rest as before. -/
theorem byteSwap_append : ∃ converted, plans.byteSwap direction i image = .ok converted ∧
    plans'.byteSwap direction i (front ++ image) = .ok (front ++ converted) := by
  refine ⟨_, hr.byteSwap_eq direction i image, ?_⟩
  rw [hr'.byteSwap_eq, h.byteSteps direction, runSteps_shift_append hf]

end MovesAt

end Plans

end RecordSwap
