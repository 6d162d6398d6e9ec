import RecordSwap.Proofs.Planning

/-!
# Calls between swap functions

The swap functions of a project call those of embedded records, which stand earlier, so that every
conversion ends. Names need not be distinct.

* `Call`, `SwapPlan.calls`, `BitSwapPlan.calls`: the calls that a swap function makes.
* `FieldLayout.call?`: the call for a member. The calls of both functions of a record are those for
  its members (`Project.calls_swapPlan`, `BitSwapPlan.filterMap_call?_opsOf`).
* `Checked.Ends`: computations that give a result or stop with an overflow, and never for any other
  reason.
* `Plans.Linked`: plans whose calls are closed and lead to earlier records only.
* `Draft.plans_linked`: the statement about built projects.
-/

namespace RecordSwap

/-! ## Calls -/

/-- A call of the swap function of an embedded record, on every element of a member. -/
structure Call where
  member : String
  target : Nat
  extents : List Nat
  offset : Nat
  elementSize : Nat
  deriving DecidableEq, Repr

def SwapEntry.call? (e : SwapEntry) : Option Call :=
  match e.strategy with
  | .nested target => some ⟨e.name, target, e.extents, e.offset, e.elementSize⟩
  | _ => none

def BitSwapOp.call? : BitSwapOp → Option Call
  | .nested member target extents offset elementSize =>
    some ⟨member, target, extents, offset, elementSize⟩
  | _ => none

/-- The calls that a byte swap function makes before it calls its bit swap function. -/
def SwapPlan.calls (plan : SwapPlan) : List Call := plan.entries.filterMap SwapEntry.call?

/-- The calls that a bit swap function makes. -/
def BitSwapPlan.calls (plan : BitSwapPlan) : List Call := plan.ops.filterMap BitSwapOp.call?

theorem SwapPlan.call_mem {plan : SwapPlan} {e : SwapEntry} {target : Nat} (he : e ∈ plan.entries)
    (hs : e.strategy = .nested target) :
    ⟨e.name, target, e.extents, e.offset, e.elementSize⟩ ∈ plan.calls :=
  List.mem_filterMap.2 ⟨e, he, by rw [SwapEntry.call?, hs]⟩

theorem BitSwapPlan.call_mem {plan : BitSwapPlan} {member : String} {target : Nat}
    {extents : List Nat} {offset elementSize : Nat}
    (ho : .nested member target extents offset elementSize ∈ plan.ops) :
    ⟨member, target, extents, offset, elementSize⟩ ∈ plan.calls :=
  List.mem_filterMap.2 ⟨_, ho, rfl⟩

/-- The call for a plain member that embeds the record `target? f`. -/
def FieldLayout.call? (target? : FieldLayout → Option Nat) (f : FieldLayout) : Option Call :=
  if f.bitLength.isSome then none
  else (target? f).map fun target => ⟨f.name, target, f.extents, f.offset, f.elementSize⟩

theorem FieldLayout.call?_eq_some {target? : FieldLayout → Option Nat} {f : FieldLayout} {c : Call}
    (h : f.call? target? = some c) : f.bitLength = none ∧ target? f = some c.target ∧
      c = ⟨f.name, c.target, f.extents, f.offset, f.elementSize⟩ := by
  unfold call? at h
  split at h
  · cases h
  · next hb =>
    obtain ⟨target, ht, rfl⟩ := Option.map_eq_some_iff.1 h
    exact ⟨by simpa using hb, ht, rfl⟩

namespace BitSwapPlan

@[simp] theorem call?_fieldOp (f : FieldLayout) (bits : Nat) (u : UnitLayout) :
    (fieldOp f bits u).call? = none := by
  unfold fieldOp
  split <;> rfl

theorem filterMap_call?_close (entered : Option UnitLayout) :
    (close entered).filterMap BitSwapOp.call? = [] := by
  cases entered <;> rfl

/-- The calls among the statements for a list of members are those for the plain members. -/
theorem filterMap_call?_opsOf (target? : FieldLayout → Option Nat) (groups : List UnitLayout)
    (current : Option (Nat × UnitLayout)) (fields : List FieldLayout) :
    (opsOf target? groups current fields).filterMap BitSwapOp.call? =
      fields.filterMap (FieldLayout.call? target?) := by
  fun_induction opsOf target? groups current fields with
  | case1 current => exact filterMap_call?_close _
  | case2 current f rest bits g u _ hb _ ih => simp [hb, ih, FieldLayout.call?]
  | case3 current f rest bits g u _ hb _ ih =>
    have hreflect : (BitSwapOp.reflectInput u.offset u.byteSize).call? = none := rfl
    simp [filterMap_call?_close, hreflect, hb, ih, FieldLayout.call?]
  | case4 current f rest bits _ hb ih => simp [hb, ih, FieldLayout.call?]
  | case5 current f rest hb target ht ih =>
    have hcall : f.call? target? = some ⟨f.name, target, f.extents, f.offset, f.elementSize⟩ := by
      simp [FieldLayout.call?, hb, ht]
    rw [List.filterMap_cons_some hcall, ← ih]
    rfl
  | case6 current f rest hb ht ih =>
    have hcall : f.call? target? = none := by simp [FieldLayout.call?, hb, ht]
    rw [List.filterMap_cons_none hcall, ih]

end BitSwapPlan

namespace Project

variable {p : Project} {layouts : List Layout}

theorem entry?_call? (p : Project) (f : FieldLayout) :
    (p.entry? f).bind SwapEntry.call? = f.call? p.embedded? := by
  unfold entry? FieldLayout.call?
  cases hb : f.bitLength with
  | some bits => rw [strategy?_bitField hb]; rfl
  | none =>
    cases ht : p.embedded? f with
    | some target => rw [strategy?_nested hb ht]; rfl
    | none =>
      cases hs : p.strategy? f with
      | none => rfl
      | some strategy =>
        cases strategy with
        | nested target => exact absurd (embedded?_of_nested hs).2 (by simp [ht])
        | _ => rfl

theorem calls_swapPlan (p : Project) (index : Nat) (l : Layout) :
    (p.swapPlan index l).calls = l.fields.filterMap (FieldLayout.call? p.embedded?) := by
  rw [SwapPlan.calls, swapPlan, List.filterMap_filterMap]
  exact List.filterMap_congr fun f _ => entry?_call? p f

/-- A bit swap function calls those embedded records that have storage units. -/
theorem calls_bitSwapPlan? {index : Nat} {l : Layout} {plan : BitSwapPlan}
    (h : p.bitSwapPlan? layouts index l = some plan) :
    plan.calls = (p.swapPlan index l).calls.filter fun c =>
      (layouts[c.target]?).any Layout.hasBitFields := by
  unfold bitSwapPlan? at h
  split at h
  · cases h
    rw [calls_swapPlan, List.filter_filterMap, BitSwapPlan.calls,
      BitSwapPlan.filterMap_call?_opsOf]
    refine List.filterMap_congr fun f _ => ?_
    unfold FieldLayout.call? BitSwapPlan.target?
    split
    · rfl
    · cases p.embedded? f with
      | none => rfl
      | some target =>
        cases hu : (layouts[target]?).any Layout.hasBitFields <;> simp [Option.filter, hu]
  · cases h

theorem planned_bitSwap?_isSome {i : Nat} {l : Layout} (hl : layouts[i]? = some l) :
    ((p.planned layouts).bitSwap? i).isSome = l.hasBitFields := by
  rw [planned_bitSwap?, hl, Option.bind_some, bitSwapPlan?]
  cases l.hasBitFields <;> rfl

/-- A call is made for a plain member that embeds the record called. -/
theorem exists_member {i : Nat} {plan : SwapPlan} {c : Call}
    (hp : (p.planned layouts).swaps[i]? = some plan) (hc : c ∈ plan.calls) :
    ∃ l f, layouts[i]? = some l ∧ f ∈ l.fields ∧ f.bitLength = none ∧
      p.embedded? f = some c.target ∧
      c = ⟨f.name, c.target, f.extents, f.offset, f.elementSize⟩ := by
  rw [planned_swaps, Option.map_eq_some_iff] at hp
  obtain ⟨l, hl, rfl⟩ := hp
  rw [calls_swapPlan, List.mem_filterMap] at hc
  obtain ⟨f, hf, hc⟩ := hc
  exact ⟨l, f, hl, hf, FieldLayout.call?_eq_some hc⟩

theorem calls_of_bitSwap? {i : Nat} {plan : BitSwapPlan}
    (hp : (p.planned layouts).bitSwap? i = some plan) :
    ∃ swapPlan, (p.planned layouts).swaps[i]? = some swapPlan ∧
      plan.calls = swapPlan.calls.filter fun c =>
        (layouts[c.target]?).any Layout.hasBitFields := by
  rw [planned_bitSwap?, Option.bind_eq_some_iff] at hp
  obtain ⟨l, hl, hp⟩ := hp
  exact ⟨p.swapPlan i l, by rw [planned_swaps, hl]; rfl, calls_bitSwapPlan? hp⟩

/-- The entries of a record have the names of its members, in their order. -/
theorem Plannable.inOrder (h : p.Plannable layouts) {i : Nat} {s : Record} {plan : SwapPlan}
    (hs : p.records[i]? = some s) (hp : (p.planned layouts).swaps[i]? = some plan) :
    (plan.entries.map SwapEntry.name).Sublist (s.declared.map Row.name) := by
  obtain ⟨l, slots, -, hread, rfl⟩ := h.exists_layout hs hp
  rw [← hread.map_name]
  exact sublist_map_filterMap (fun _ _ => entry?_name) l.fields

end Project

/-! ## Conversions that end -/

/-- The computation gives a result or stops with an overflow. -/
def Checked.Ends {α : Type} (x : Checked α) : Prop := (∃ a, x = .ok a) ∨ x = .error .overflow

namespace Checked

variable {α β : Type}

theorem ends_pure (a : α) : (pure a : Checked α).Ends := .inl ⟨a, rfl⟩

theorem Ends.bind {x : Checked α} {f : α → Checked β} (hx : x.Ends)
    (hf : ∀ a, (f a).Ends) : (x >>= f).Ends := by
  obtain ⟨a, rfl⟩ | rfl := hx
  · exact hf a
  · exact .inr rfl

theorem ends_fit (limit n : Nat) : (fit limit n).Ends := by
  unfold fit
  split
  · exact ends_pure n
  · exact .inr rfl

theorem ends_foldlM {f : β → α → Checked β} {l : List α} (h : ∀ x ∈ l, ∀ b, (f b x).Ends) (b : β) :
    (l.foldlM f b).Ends := by
  induction l generalizing b with
  | nil => exact ends_pure b
  | cons x l ih =>
    rw [List.foldlM_cons]
    exact (h x (.head _) b).bind fun c => ih (fun y hy => h y (.tail _ hy)) c

theorem ends_product (extents : List Nat) : (product extents).Ends :=
  ends_foldlM (fun e _ a => ends_fit sizeLimit (a * e)) 1

end Checked

open Checked (ends_pure ends_fit ends_foldlM ends_product)

theorem ends_fieldFits (shift bits : Nat) : (fieldFits shift bits).Ends := by
  unfold fieldFits
  split
  · exact ends_pure _
  · exact (ends_fit _ _).bind fun _ => ends_pure _

theorem ends_mirrorField (unit : Bytes) (shift bits : Nat) :
    (mirrorField unit shift bits).Ends := by
  unfold mirrorField extractField insertField
  refine ((ends_fieldFits shift bits).bind fun _ => ends_pure _).bind fun value => ?_
  cases value with
  | none => exact ends_pure _
  | some value => exact (ends_fieldFits shift bits).bind fun _ => ends_pure _

namespace Image

theorem ends_checkElements (offset stride count size : Nat) :
    (checkElements offset stride count size).Ends := by
  unfold checkElements
  split
  · exact ends_pure _
  · exact (ends_fit _ _).bind fun _ => (ends_fit _ _).bind fun _ =>
      (ends_fit _ _).bind fun _ => ends_pure _

theorem ends_onUnit {f : Bytes → Checked Bytes} (hf : ∀ u, (f u).Ends) (offset size : Nat)
    (image : Image) : (image.onUnit offset size f).Ends := by
  unfold onUnit
  refine (ends_fit _ _).bind fun stop => ?_
  simp only
  split
  · exact (hf _).bind fun _ => ends_pure _
  · exact ends_pure _

variable {f : Image → Checked Image} (hf : ∀ image, (f image).Ends)
include hf

theorem ends_walk (stride count : Nat) (before : Bytes) (rest : Image) :
    (walk stride f count before rest).Ends := by
  induction count generalizing before rest with
  | zero => exact ends_pure _
  | succ count ih =>
    cases rest with
    | nil => exact (hf []).bind fun _ => ends_pure _
    | cons b rest =>
      simp only [walk]
      refine (hf _).bind fun rest => ?_
      split
      · exact ih _ _
      · exact ends_pure _

theorem ends_onElements (offset stride count : Nat) (image : Image) :
    (image.onElements offset stride count f).Ends := by
  unfold onElements
  simp only
  split
  · exact ends_walk hf _ _ _ _
  · exact ends_pure _

/-- Work on all elements of a member, once their addresses have been checked. -/
theorem ends_each (extents : List Nat) (offset stride size : Nat) (image : Image) :
    (product extents >>= fun count => checkElements offset stride count size >>= fun _ =>
      image.onElements offset stride count f).Ends :=
  (ends_product extents).bind fun _ => (ends_checkElements _ _ _ _).bind fun _ =>
    ends_onElements hf _ _ _ _

end Image

namespace Plans

variable {plans : Plans} (direction : Direction)

/-- A bit swap ends if bit swap functions call those of earlier records only. -/
theorem ends_bitSwap (h : ∀ {i : Nat} {plan : BitSwapPlan}, plans.bitSwap? i = some plan →
    ∀ c ∈ plan.calls, c.target < i) (index : Nat) (image : Image) :
    (plans.bitSwap direction index image).Ends := by
  induction index using Nat.strongRecOn generalizing image with
  | ind index ih =>
    rw [bitSwap]
    cases hp : plans.bitSwap? index with
    | none => exact ends_pure _
    | some plan =>
      refine ends_foldlM (fun op hop image => ?_) image
      cases op with
      | reflectInput offset size =>
        simp only
        split
        · exact Image.ends_onUnit (fun _ => ends_pure _) _ _ _
        · exact ends_pure _
      | reflectOutput offset size =>
        simp only
        split
        · exact Image.ends_onUnit (fun _ => ends_pure _) _ _ _
        · exact ends_pure _
      | mirror _ bits offset size shift =>
        exact Image.ends_onUnit (fun u => ends_mirrorField u shift bits) _ _ _
      | copy _ => exact ends_pure _
      | nested member target extents offset elementSize =>
        have ht : target < index := h hp _ (BitSwapPlan.call_mem hop)
        simp only [dif_pos ht]
        exact Image.ends_each (ih target ht) _ _ _ _ _

/-- A byte swap ends if both kinds of functions call those of earlier records only. -/
theorem ends_byteSwap (hbyte : ∀ {i : Nat} {plan : SwapPlan}, plans.swaps[i]? = some plan →
      ∀ c ∈ plan.calls, c.target < i)
    (hbit : ∀ {i : Nat} {plan : BitSwapPlan}, plans.bitSwap? i = some plan →
      ∀ c ∈ plan.calls, c.target < i) (index : Nat) (image : Image) :
    (plans.byteSwap direction index image).Ends := by
  induction index using Nat.strongRecOn generalizing image with
  | ind index ih =>
    rw [byteSwap]
    cases hp : plans.swaps[index]? with
    | none => exact ends_pure _
    | some plan =>
      refine (ends_foldlM (fun e he image => ?_) image).bind fun image => ?_
      · cases hs : e.strategy with
        | nested target =>
          have ht : target < index := hbyte hp _ (SwapPlan.call_mem he hs)
          simp only [dif_pos ht]
          exact Image.ends_each (ih target ht) _ _ _ _ _
        | _ =>
          simp only
          split
          · exact ends_pure _
          · exact Image.ends_each (fun _ => ends_pure _) _ _ _ _ _
      · split
        · exact ends_bitSwap direction hbit index image
        · exact ends_pure _

end Plans

/-! ## Linked plans -/

/-- Plans in which every call leads to an earlier record that has the function called, so that all
conversions end, and in which both swap functions of a record call the same embedded records, the
bit swap function those that have storage units. -/
structure Plans.Linked (records : List Record) (layouts : List Layout) (plans : Plans) : Prop where
  byteSwap_earlier : ∀ {i : Nat} {plan : SwapPlan}, plans.swaps[i]? = some plan →
    ∀ c ∈ plan.calls, c.target < i
  bitSwap_earlier : ∀ {i : Nat} {plan : BitSwapPlan}, plans.bitSwap? i = some plan →
    ∀ c ∈ plan.calls, c.target < i
  byteSwap_ends : ∀ direction index image, (plans.byteSwap direction index image).Ends
  bitSwap_ends : ∀ direction index image, (plans.bitSwap direction index image).Ends
  /-- Every record has a byte swap function. It calls a bit swap function of the record exactly when
  there is one, and there is one exactly when the record has storage units. -/
  functions : ∀ {i : Nat} {l : Layout}, layouts[i]? = some l → ∃ plan,
    plans.swaps[i]? = some plan ∧ (plan.callsBitSwap = true ↔ (plans.bitSwap? i).isSome) ∧
      ((plans.bitSwap? i).isSome ↔ l.groups ≠ [])
  bitSwap_closed : ∀ {i : Nat} {plan : BitSwapPlan}, plans.bitSwap? i = some plan →
    ∀ c ∈ plan.calls, (plans.bitSwap? c.target).isSome
  calls : ∀ {i : Nat} {plan : SwapPlan} {bitPlan : BitSwapPlan}, plans.swaps[i]? = some plan →
    plans.bitSwap? i = some bitPlan →
    bitPlan.calls = plan.calls.filter fun c => (layouts[c.target]?).any Layout.hasBitFields
  inOrder : ∀ {i : Nat} {s : Record} {plan : SwapPlan}, records[i]? = some s →
    plans.swaps[i]? = some plan →
    (plan.entries.map SwapEntry.name).Sublist (s.declared.map Row.name)

namespace Project.Plannable

variable {p : Project} {layouts : List Layout} (h : p.Plannable layouts)
include h

theorem byteSwap_earlier {i : Nat} {plan : SwapPlan}
    (hp : (p.planned layouts).swaps[i]? = some plan) : ∀ c ∈ plan.calls, c.target < i := by
  intro c hc
  obtain ⟨l, f, hl, hf, -, ht, -⟩ := exists_member hp hc
  exact h.earlier hl hf ht

theorem bitSwap_earlier {i : Nat} {plan : BitSwapPlan}
    (hp : (p.planned layouts).bitSwap? i = some plan) : ∀ c ∈ plan.calls, c.target < i := by
  intro c hc
  obtain ⟨swapPlan, hswap, hcalls⟩ := calls_of_bitSwap? hp
  exact h.byteSwap_earlier hswap c (List.mem_of_mem_filter (hcalls ▸ hc))

theorem linked : (p.planned layouts).Linked p.records layouts where
  byteSwap_earlier := h.byteSwap_earlier
  bitSwap_earlier := h.bitSwap_earlier
  byteSwap_ends direction := Plans.ends_byteSwap direction h.byteSwap_earlier h.bitSwap_earlier
  bitSwap_ends direction := Plans.ends_bitSwap direction h.bitSwap_earlier
  functions {i l} hl := by
    refine ⟨p.swapPlan i l, by rw [planned_swaps, hl]; rfl, ?_, ?_⟩
    · rw [planned_bitSwap?_isSome hl, ← h.any_isSome hl]
      rfl
    · rw [planned_bitSwap?_isSome hl, Layout.hasBitFields]
      simp
  bitSwap_closed {i plan} hp c hc := by
    obtain ⟨swapPlan, -, hcalls⟩ := calls_of_bitSwap? hp
    rw [hcalls, List.mem_filter] at hc
    obtain ⟨inner, hinner, hbits⟩ := (Option.any_eq_true _ _).1 hc.2
    rw [planned_bitSwap?_isSome hinner, hbits]
  calls {i plan bitPlan} hp hbp := by
    obtain ⟨swapPlan, hswap, hcalls⟩ := calls_of_bitSwap? hbp
    rw [hcalls, Option.some.inj (hswap.symm.trans hp)]
  inOrder := h.inOrder

end Project.Plannable

/-- **Linked plans.** The layouts of a built project have plans in which every call leads to an
earlier record that has the function called, so that all conversions end. -/
theorem Draft.plans_linked {d : Draft} {p : Project} {layouts : List Layout}
    (h : d.build = .ok p) (hl : p.layouts = .ok layouts) :
    ∃ plans, Plans.ofLayouts p layouts = .ok plans ∧ plans.Linked p.records layouts := by
  have hp := plannable h (layouts_read h hl)
  exact ⟨p.planned layouts, hp.ofLayouts_eq, hp.linked⟩

namespace Sample

/-- Two records of one name and of different sizes, a record with the name of a primitive, and a
record that embeds one of each. -/
def homonyms : Draft where
  types := TypeTable.builtin.insert ⟨"Stamp", "Stamp", 2, .record⟩
  records := [
    { name := "Cell", rows := [{ name := "flags", dataType := "uint8", bitLength := some 3 }] },
    { name := "Frame", rows := [
      { name := "cells", dataType := "Cell", extents := [2] },
      { name := "mark", dataType := "uint16", bitLength := some 4 },
      { name := "stamp", dataType := "Stamp" }] },
    { name := "Cell", rows := [{ name := "x", dataType := "uint32" }] },
    { name := "Stamp", rows := [{ name := "tick", dataType := "uint8", bitLength := some 7 }] }]

/-- The project that is built from them. -/
def homonymous : Project where
  name := ""
  system := none
  dataStreams := []
  includes := []
  groups := []
  records := [homonyms.records[0], homonyms.records[2], homonyms.records[3], homonyms.records[1]]
  placements := [
    ⟨[("flags", 0)], 1⟩, ⟨[("x", 0)], 4⟩, ⟨[("tick", 0)], 1⟩,
    ⟨[("cells", 0), ("mark", 8), ("stamp", 10)], 12⟩]
  types := (((homonyms.types.defineRecord "Cell" 1).defineRecord "Cell" 4).defineRecord
    "Stamp" 1).defineRecord "Frame" 12
  diagnostics := []

def homonymousLayouts : List Layout := homonymous.layouts.toOption.getD []

theorem homonyms_build : homonyms.build = .ok homonymous := by decide +kernel

theorem homonymous_layouts : homonymous.layouts = .ok homonymousLayouts := by decide +kernel

end Sample

/-- The first `Cell` is called on elements as large as the second. -/
theorem Draft.plans_linked_sample :
    Sample.homonyms.build = .ok Sample.homonymous ∧
      Sample.homonymous.layouts = .ok Sample.homonymousLayouts ∧ ∃ plans plan,
        Plans.ofLayouts Sample.homonymous Sample.homonymousLayouts = .ok plans ∧
        plans.bitSwap? 3 = some plan ∧
        plan.calls = [⟨"cells", 0, [2], 0, 4⟩, ⟨"stamp", 2, [], 10, 2⟩] ∧
        ∀ direction image, (plans.byteSwap direction 3 image).Ends := by
  obtain ⟨plans, hplans, hlinked⟩ :=
    plans_linked Sample.homonyms_build Sample.homonymous_layouts
  have hcalls : (Plans.ofLayouts Sample.homonymous Sample.homonymousLayouts).toOption.bind
      (fun plans => (plans.bitSwap? 3).map BitSwapPlan.calls) =
        some [⟨"cells", 0, [2], 0, 4⟩, ⟨"stamp", 2, [], 10, 2⟩] := by decide +kernel
  rw [hplans] at hcalls
  obtain ⟨plan, hplan, heq⟩ := Option.map_eq_some_iff.1 hcalls
  exact ⟨Sample.homonyms_build, Sample.homonymous_layouts, plans, plan, hplans, hplan, heq,
    fun direction image => hlinked.byteSwap_ends direction 3 image⟩

end RecordSwap
