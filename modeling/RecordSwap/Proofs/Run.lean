import RecordSwap.Proofs.Blocks

/-!
# Plans as steps

`Plans.byteSteps` and `Plans.bitSteps` unfold the swap functions of a record, with all calls into
embedded records, into one list of steps on absolute positions.

* `SwapEntry.Runs`, `BitSwapOp.Runs`: an entry or statement that cannot stop with a fault. Its
  target stands before its record, and its addresses fit their words.
* `Plans.Runnable`: all entries and statements of the plans are such.
* `Plans.Runnable.bitSwap_eq`, `Plans.Runnable.byteSwap_eq`: with runnable plans both functions
  give a result on every image, and it is that of the steps.
-/

namespace RecordSwap

/-! ## Arrays -/

/-- An array whose element count can be computed and whose end has an address. -/
def ArrayFits (offset stride : Nat) (extents : List Nat) : Prop :=
  product extents = .ok (arrayLength extents) ∧ offset + arrayLength extents * stride < sizeLimit

theorem checkElements_eq_ok {offset stride count size : Nat} (hs : size ≤ stride)
    (h : offset + count * stride < sizeLimit) :
    Image.checkElements offset stride count size = .ok () := by
  unfold Image.checkElements
  split
  · rfl
  · next hc =>
    have hm : count * stride = (count - 1) * stride + stride := by
      rw [← Nat.succ_mul, Nat.succ_eq_add_one, Nat.sub_add_cancel (by omega)]
    rw [mulSize_eq_ok.2 ⟨by omega, rfl⟩, Checked.ok_bind, addSize_eq_ok.2 ⟨by omega, rfl⟩,
      Checked.ok_bind, addSize_eq_ok.2 ⟨by omega, rfl⟩]
    rfl

/-! ## Steps of a plan -/

/-- The step on one word, at the front of the image. -/
def wordStep (width : Nat) : Step := ⟨⟨0, width⟩, .reverse⟩

/-- The step on one element of a member that is no record. -/
def scalarSteps (strategy : Strategy) : List Step :=
  match strategy.width? with
  | some width => [wordStep width]
  | none => []

/-- Steps of an entry; `inner` gives those of an embedded record. -/
def SwapEntry.steps (inner : Nat → List Step) (e : SwapEntry) : List Step :=
  elements e.offset e.elementSize (arrayLength e.extents) <|
    match e.strategy with
    | .nested target => inner target
    | strategy => scalarSteps strategy

/-- Steps of a statement; `inner` gives those of an embedded record. -/
def BitSwapOp.steps (direction : Direction) (inner : Nat → List Step) : BitSwapOp → List Step
  | .reflectInput offset size =>
    if direction = .foreignToLocal then [⟨⟨offset, size⟩, .reflect⟩] else []
  | .reflectOutput offset size =>
    if direction = .localToForeign then [⟨⟨offset, size⟩, .reflect⟩] else []
  | .mirror _ bits offset size shift => [⟨⟨offset, size⟩, .mirror shift bits⟩]
  | .copy _ => []
  | .nested _ target extents offset elementSize =>
    elements offset elementSize (arrayLength extents) (inner target)

namespace Plans

/-- Steps of the bit swap function of the record at `index`. -/
def bitSteps (plans : Plans) (direction : Direction) (index : Nat) : List Step :=
  match plans.bitSwap? index with
  | none => []
  | some plan => plan.ops.flatMap (BitSwapOp.steps direction fun target =>
      if _h : target < index then plans.bitSteps direction target else [])
termination_by index

/-- Steps of the byte swap function of the record at `index`. -/
def byteSteps (plans : Plans) (direction : Direction) (index : Nat) : List Step :=
  match plans.swaps[index]? with
  | none => []
  | some plan =>
    plan.entries.flatMap (SwapEntry.steps fun target =>
      if _h : target < index then plans.byteSteps direction target else []) ++
    if plan.callsBitSwap then plans.bitSteps direction index else []
termination_by index

end Plans

/-! ## Plans without faults -/

/-- An entry of the record at `index` that cannot stop with a fault. -/
def SwapEntry.Runs (index : Nat) (e : SwapEntry) : Prop :=
  match e.strategy with
  | .nested target => target < index ∧ ArrayFits e.offset e.elementSize e.extents
  | strategy => ∀ width, strategy.width? = some width →
      width = e.elementSize ∧ ArrayFits e.offset e.elementSize e.extents

/-- A statement of the record at `index` that cannot stop with a fault. -/
def BitSwapOp.Runs (index : Nat) : BitSwapOp → Prop
  | .reflectInput offset size => offset + size < sizeLimit
  | .reflectOutput offset size => offset + size < sizeLimit
  | .mirror _ bits offset size shift => offset + size < sizeLimit ∧ shift + bits < bitLimit
  | .copy _ => True
  | .nested _ target extents offset elementSize =>
    target < index ∧ ArrayFits offset elementSize extents

/-- Plans whose swap functions cannot stop with a fault. -/
structure Plans.Runnable (plans : Plans) : Prop where
  entries : ∀ {index : Nat} {plan : SwapPlan}, plans.swaps[index]? = some plan →
    ∀ e ∈ plan.entries, e.Runs index
  ops : ∀ {index : Nat} {plan : BitSwapPlan}, plans.bitSwap? index = some plan →
    ∀ op ∈ plan.ops, op.Runs index

/-! ## Carrying out a plan -/

namespace Image

/-- Visiting the elements of an array, the bytes before the current element kept aside. -/
theorem walk_eq_ok {stride : Nat} {f : Image → Checked Image} {steps : List Step}
    (hf : ∀ image, f image = .ok (runSteps steps image)) (count : Nat) (before : Bytes)
    (rest : Image) :
    walk stride f count before rest =
      .ok (before.reverse ++ runSteps (elements 0 stride count steps) rest) := by
  induction count generalizing before rest with
  | zero => simp [walk, elements]
  | succ count ih =>
    cases rest with
    | nil => simp [walk, hf]
    | cons b rest =>
      rw [walk, hf, Checked.ok_bind, elements_succ, runSteps_append, runSteps_shift]
      · by_cases hs : stride ≤ (runSteps steps (b :: rest)).length
        · rw [if_pos hs, if_pos (List.length_take_of_le hs), ih]
          simp
        · rw [if_neg hs, if_neg (by rw [List.length_take]; omega)]
          rfl
      · simp

theorem onElements_eq_ok {stride : Nat} {f : Image → Checked Image} (steps : List Step)
    (hf : ∀ image, f image = .ok (runSteps steps image)) (offset count : Nat) (image : Image) :
    image.onElements offset stride count f =
      .ok (runSteps (elements offset stride count steps) image) := by
  have he : elements offset stride count steps =
      (elements 0 stride count steps).map (Step.shift offset) := by
    rw [elements_shift, Nat.add_zero]
  rw [onElements, he, runSteps_shift]
  by_cases hl : offset ≤ image.length
  · rw [if_pos (by simp [hl]), if_pos hl, walk_eq_ok hf, List.reverse_reverse]
  · rw [if_neg (by simp; omega), if_neg hl]
    rfl

theorem onUnit_eq_ok {offset size : Nat} {f : Bytes → Checked Bytes} (turn : Turn)
    (hs : offset + size < sizeLimit) (hf : ∀ u, f u = .ok (turn.apply u)) (image : Image) :
    image.onUnit offset size f = .ok (Step.run ⟨⟨offset, size⟩, turn⟩ image) := by
  rw [onUnit, addSize_eq_ok.2 ⟨hs, rfl⟩, Checked.ok_bind]
  simp only [hf, Step.run, onSpan, Checked.ok_bind]
  split <;> rfl

theorem swapWords_eq_ok {offset width count : Nat} (h : offset + count * width < sizeLimit)
    (image : Image) :
    image.swapWords offset width count width =
      .ok (runSteps (elements offset width count [wordStep width]) image) := by
  rw [swapWords, checkElements_eq_ok (Nat.le_refl _) h, Checked.ok_bind]
  exact onElements_eq_ok [wordStep width] (fun _ => rfl) _ _ _

end Image

/-- A member that is converted word by word, or left as it is. -/
theorem SwapEntry.scalar_eq_ok {e : SwapEntry} {strategy : Strategy}
    (h : ∀ width, strategy.width? = some width →
      width = e.elementSize ∧ ArrayFits e.offset e.elementSize e.extents) (image : Image) :
    (match strategy.width? with
      | none => pure image
      | some width => do image.swapWords e.offset e.elementSize (← e.elementCount) width :
        Checked Image) =
      .ok (runSteps (elements e.offset e.elementSize (arrayLength e.extents)
        (scalarSteps strategy)) image) := by
  unfold scalarSteps
  cases hw : strategy.width? with
  | none => simp
  | some width =>
    obtain ⟨rfl, hc, hl⟩ := h width hw
    simp only [elementCount, hc, Checked.ok_bind]
    exact Image.swapWords_eq_ok hl image

theorem foldlM_eq_ok {α : Type} {l : List α} {f : Image → α → Checked Image} {g : α → List Step}
    (h : ∀ x ∈ l, ∀ image, f image x = .ok (runSteps (g x) image)) (image : Image) :
    l.foldlM f image = .ok (runSteps (l.flatMap g) image) := by
  induction l generalizing image with
  | nil => rfl
  | cons x l ih =>
    rw [List.foldlM_cons, h x (.head _), Checked.ok_bind, ih fun y hy => h y (.tail _ hy),
      List.flatMap_cons, runSteps_append]

namespace Plans.Runnable

variable {plans : Plans} (h : plans.Runnable) (direction : Direction)
include h

theorem bitSwap_eq (index : Nat) (image : Image) :
    plans.bitSwap direction index image =
      .ok (runSteps (plans.bitSteps direction index) image) := by
  induction index using Nat.strongRecOn generalizing image with
  | ind index ih =>
    rw [Plans.bitSwap, Plans.bitSteps]
    cases hp : plans.bitSwap? index with
    | none => rfl
    | some plan =>
      refine foldlM_eq_ok (fun op hop image => ?_) image
      have hr := h.ops hp op hop
      cases op with
      | reflectInput offset size =>
        cases direction with
        | localToForeign => rfl
        | foreignToLocal => exact Image.onUnit_eq_ok .reflect hr (fun _ => rfl) image
      | reflectOutput offset size =>
        cases direction with
        | localToForeign => exact Image.onUnit_eq_ok .reflect hr (fun _ => rfl) image
        | foreignToLocal => rfl
      | mirror _ bits offset size shift =>
        exact Image.onUnit_eq_ok (.mirror shift bits) hr.1
          (fun _ => mirrorField_eq_ok hr.2) image
      | copy _ => rfl
      | nested _ target extents offset elementSize =>
        obtain ⟨ht, hc, hl⟩ := hr
        simp only [hc, Checked.ok_bind, checkElements_eq_ok (Nat.zero_le _) hl, dif_pos ht,
          BitSwapOp.steps]
        exact Image.onElements_eq_ok _ (ih target ht) _ _ _

/-- The byte swap function gives the result of its steps. -/
theorem byteSwap_eq (index : Nat) (image : Image) :
    plans.byteSwap direction index image =
      .ok (runSteps (plans.byteSteps direction index) image) := by
  induction index using Nat.strongRecOn generalizing image with
  | ind index ih =>
    rw [Plans.byteSwap, Plans.byteSteps]
    cases hp : plans.swaps[index]? with
    | none => rfl
    | some plan =>
      simp only
      rw [foldlM_eq_ok (g := SwapEntry.steps fun target =>
        if _h : target < index then plans.byteSteps direction target else []), Checked.ok_bind,
        runSteps_append]
      · split
        · rw [h.bitSwap_eq]
        · rfl
      · intro e he image
        have hr := h.entries hp e he
        unfold SwapEntry.Runs at hr
        unfold SwapEntry.steps
        cases hs : e.strategy with
        | nested target =>
          simp only [hs] at hr ⊢
          obtain ⟨ht, hc, hl⟩ := hr
          simp only [SwapEntry.elementCount, hc, Checked.ok_bind,
            checkElements_eq_ok (Nat.zero_le _) hl, dif_pos ht]
          exact Image.onElements_eq_ok _ (ih target ht) _ _ _
        | _ =>
          simp only [hs] at hr ⊢
          exact SwapEntry.scalar_eq_ok hr image

end Plans.Runnable

end RecordSwap
