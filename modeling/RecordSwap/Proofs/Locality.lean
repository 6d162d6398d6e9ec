import RecordSwap.Proofs.Calls
import RecordSwap.Proofs.Leaves

/-!
# Locality

The swap functions of a record work on the record's own bytes alone, whatever offsets its rows give
and whether or not its members overlap. What follows the record in an image makes no difference to
them and stays as it is.

* `Image.Confined`, `Plans.ConfinedTo`: a conversion that is a run of steps on the first bytes of an
  image, and a record of which both conversions are.
* `Plans.Calls`: the calls that are made in order to convert a record, at their absolute positions.
  They follow the embedded records (`within_of_calls`).
* `Project.Sound.exists_of_within`: the record of a call lies within the record that is converted.
* `Draft.swaps_confined`: the statement about built projects.
-/

namespace RecordSwap

/-- A conversion that carries out the given steps, none of which leaves the first `size` bytes. -/
structure Image.Confined (size : Nat) (steps : List Step) (f : Image → Checked Image) : Prop where
  runs : ∀ image, f image = .ok (runSteps steps image)
  inside : Inside ⟨0, size⟩ steps
  length : ∀ {image converted : Image}, f image = .ok converted → converted.length = image.length
  /-- What follows these bytes makes no difference and stays as it is. -/
  append : ∀ {image : Image}, image.length = size → ∀ tail : Image, ∃ converted,
    f image = .ok converted ∧ f (image ++ tail) = .ok (converted ++ tail)

theorem Image.confined {size : Nat} {steps : List Step} {f : Image → Checked Image}
    (h : Inside ⟨0, size⟩ steps) (hf : ∀ image, f image = .ok (runSteps steps image)) :
    Confined size steps f := by
  refine ⟨hf, h, fun {image converted} hc => ?_, fun {image} hl tail => ?_⟩
  · rw [hf] at hc
    cases hc
    exact length_runSteps steps image
  · subst hl
    exact ⟨_, hf image, by rw [hf, runSteps_tail h]⟩

/-- `plans.Calls index start target`: in order to convert the record at `index`, the swap functions
of the record at `target` are called with what follows position `start` of the image. -/
inductive Plans.Calls (plans : Plans) : Nat → Nat → Nat → Prop
  | self (index : Nat) : Calls plans index 0 index
  | byteSwap {index middle start target k : Nat} {plan : SwapPlan} {entry : SwapEntry} :
      plans.swaps[index]? = some plan → entry ∈ plan.entries → entry.strategy = .nested middle →
      k < arrayLength entry.extents → Calls plans middle start target →
      Calls plans index (entry.offset + k * entry.elementSize + start) target
  | bitSwap {index middle start target k offset elementSize : Nat} {plan : BitSwapPlan}
      {field : String} {extents : List Nat} :
      plans.bitSwap? index = some plan →
      .nested field middle extents offset elementSize ∈ plan.ops →
      k < arrayLength extents → Calls plans middle start target →
      Calls plans index (offset + k * elementSize + start) target

/-- Both swap functions of the record at `index` work on the first `size` bytes of an image. -/
structure Plans.ConfinedTo (plans : Plans) (index size : Nat) : Prop where
  byteSwap : ∀ direction, Image.Confined size (plans.byteSteps direction index)
    (plans.byteSwap direction index)
  bitSwap : ∀ direction, Image.Confined size (plans.bitSteps direction index)
    (plans.bitSwap direction index)

/-! ## Calls and embedded records -/

namespace Project

variable {p : Project} {layouts : List Layout} {index start target : Nat} {l : Layout}

/-- Calls are made for embedded records only. -/
theorem within_of_calls (h : (p.planned layouts).Calls index start target) :
    p.Within layouts index start target := by
  induction h with
  | self index => exact .self index
  | @byteSwap index middle start target k plan entry hp he hs hk _ ih =>
    obtain ⟨l, f, hl, hf, hb, hm, heq⟩ := exists_member hp (SwapPlan.call_mem he hs)
    obtain ⟨-, -, hextents, hoffset, hsize⟩ := Call.mk.injEq .. ▸ heq
    rw [hextents] at hk
    rw [hoffset, hsize]
    exact .inner hl hf hb hm hk ih
  | @bitSwap index middle start target k offset elementSize plan field extents hp ho hk _ ih =>
    obtain ⟨swapPlan, hswap, hcalls⟩ := calls_of_bitSwap? hp
    obtain ⟨l, f, hl, hf, hb, hm, heq⟩ :=
      exists_member hswap (List.mem_of_mem_filter (hcalls ▸ BitSwapPlan.call_mem ho))
    cases heq
    exact .inner hl hf hb hm hk ih

namespace Sound

variable (h : p.Sound layouts)
include h

/-- A record that is reached is laid out and ends within the record. -/
theorem exists_of_within (hin : p.Within layouts index start target)
    (hl : layouts[index]? = some l) :
    ∃ inner, layouts[target]? = some inner ∧ start + inner.totalSize ≤ l.totalSize := by
  have hinner : ∃ inner, layouts[target]? = some inner := by
    induction hin generalizing l with
    | self => exact ⟨l, hl⟩
    | inner hl' hf _ hm _ _ ih =>
      obtain ⟨-, m, hmid, -⟩ := h.embeds hl' hf hm
      exact ih hmid
  obtain ⟨inner, ht⟩ := hinner
  exact ⟨inner, ht, h.within_le hin hl ht⟩

theorem confinedTo (hl : layouts[index]? = some l) :
    (p.planned layouts).ConfinedTo index l.totalSize where
  byteSwap direction :=
    Image.confined (h.inside_byteSteps direction hl) (h.runnable.byteSwap_eq direction index)
  bitSwap direction :=
    Image.confined (h.inside_bitSteps direction hl) (h.runnable.bitSwap_eq direction index)

end Sound

end Project

/-- **Locality.** Every built project whose records have distinct names and whose primitives are not
named like records has plans. The swap functions of a record carry out steps on the bytes of the
record alone, and so does each function that they call, directly or through others, on the bytes of
its own record, which lies within the record that is converted. -/
theorem Draft.swaps_confined {d : Draft} {p : Project} (h : d.build = .ok p) (hn : p.WellNamed)
    (hw : p.WordBits) :
    ∃ layouts plans, p.layouts = .ok layouts ∧ Plans.ofLayouts p layouts = .ok plans ∧
      ∀ index < p.records.length, ∃ l, layouts[index]? = some l ∧
        plans.ConfinedTo index l.totalSize ∧
        ∀ start target, plans.Calls index start target → ∃ inner,
          layouts[target]? = some inner ∧ start + inner.totalSize ≤ l.totalSize ∧
          plans.ConfinedTo target inner.totalSize := by
  obtain ⟨layouts, hlayouts, hall⟩ := exists_layouts h hn.nodup
  have hs := sound_layouts h hn hw hall
  refine ⟨layouts, p.planned layouts, hlayouts, hs.ofLayouts_eq, fun index hi => ?_⟩
  obtain ⟨l, hl, -⟩ := getElem?_of_forall₂ hall (List.getElem?_eq_getElem hi)
  refine ⟨l, hl, hs.confinedTo hl, fun start target hcall => ?_⟩
  obtain ⟨inner, hinner, hle⟩ := hs.exists_of_within (Project.within_of_calls hcall) hl
  exact ⟨inner, hinner, hle, hs.confinedTo hinner⟩

/-- A record with members that overlap, followed by other bytes. -/
theorem Draft.swaps_confined_sample :
    Sample.overlay.build = .ok Sample.overlaid ∧
      Sample.overlaid.layouts = .ok Sample.overlaidLayouts ∧ ∃ plans converted,
        Plans.ofLayouts Sample.overlaid Sample.overlaidLayouts = .ok plans ∧
        plans.byteSwap .localToForeign 1 (Image.pattern 26) = .ok converted ∧
        plans.byteSwap .localToForeign 1 (Image.pattern 26 ++ Image.pattern 5) =
          .ok (converted ++ Image.pattern 5) := by
  obtain ⟨layouts, plans, hlayouts, hplans, hconfined⟩ :=
    swaps_confined Sample.overlay_build Sample.overlaid_wellNamed Sample.overlaid_wordBits
  obtain rfl := Except.ok.inj (hlayouts.symm.trans Sample.overlaid_layouts)
  obtain ⟨l, hl, hto, -⟩ := hconfined 1 (by decide)
  have hsize : ∀ l ∈ Sample.overlaidLayouts[1]?, (Image.pattern 26).length = l.totalSize := by
    decide +kernel
  obtain ⟨converted, h1, h2⟩ := (hto.byteSwap .localToForeign).append (hsize l hl) (Image.pattern 5)
  exact ⟨Sample.overlay_build, Sample.overlaid_layouts, plans, converted, hplans, h1, h2⟩

end RecordSwap
