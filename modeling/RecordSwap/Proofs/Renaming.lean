import RecordSwap.Proofs.Calls

/-!
# Plans under a renaming of records

Plans refer to embedded records by index. If the records of one project stand at other places in
another one, and their layouts are the same, the plans differ in these indices alone, and the
conversions of a record do not differ at all.

* `SwapEntry.rename`, `BitSwapOp.rename`: an entry or a statement whose record stands elsewhere.
* `Project.Renames`: what two projects have in common that differ in the places of records.
* `Project.Renames.swaps`, `Project.Renames.bitSwap?`: the plans of the one are the renamed plans of
  the other.
* `Project.Renames.byteSwap_eq`, `Project.Renames.bitSwap_eq`: the conversions are the same.
-/

namespace RecordSwap

theorem foldlM_congr {ε α β : Type} {l : List α} {f g : β → α → Except ε β}
    (h : ∀ x ∈ l, ∀ b, f b x = g b x) (b : β) : l.foldlM f b = l.foldlM g b := by
  induction l generalizing b with
  | nil => rfl
  | cons x l ih =>
    rw [List.foldlM_cons, List.foldlM_cons, h x (.head _)]
    congr 1
    funext c
    exact ih (fun y hy => h y (.tail _ hy)) c

/-! ## Renamed plans -/

section
variable (ρ : Nat → Nat)

def Strategy.rename : Strategy → Strategy
  | .nested target => .nested (ρ target)
  | strategy => strategy

def SwapEntry.rename (e : SwapEntry) : SwapEntry := { e with strategy := e.strategy.rename ρ }

def BitSwapOp.rename : BitSwapOp → BitSwapOp
  | .nested member target extents offset elementSize =>
    .nested member (ρ target) extents offset elementSize
  | op => op

def SwapPlan.rename (plan : SwapPlan) : SwapPlan :=
  { plan with index := ρ plan.index, entries := plan.entries.map (·.rename ρ) }

def BitSwapPlan.rename (plan : BitSwapPlan) : BitSwapPlan :=
  { plan with index := ρ plan.index, ops := plan.ops.map (·.rename ρ) }

theorem BitSwapPlan.map_rename_close (entered : Option UnitLayout) :
    (close entered).map (·.rename ρ) = close entered := by
  cases entered <;> rfl

theorem BitSwapPlan.rename_fieldOp (f : FieldLayout) (bits : Nat) (u : UnitLayout) :
    (fieldOp f bits u).rename ρ = fieldOp f bits u := by
  unfold fieldOp
  split <;> rfl

/-- The statements for a list of members under a renaming of the embedded records. -/
theorem BitSwapPlan.opsOf_rename (target? : FieldLayout → Option Nat) (groups : List UnitLayout)
    (current : Option (Nat × UnitLayout)) (fields : List FieldLayout) :
    opsOf (fun f => (target? f).map ρ) groups current fields =
      (opsOf target? groups current fields).map (·.rename ρ) := by
  fun_induction opsOf target? groups current fields with
  | case1 current => rw [opsOf, map_rename_close]
  | case2 current f rest bits g u hg hb hcurrent ih =>
    simp only [opsOf, hg, hb, if_pos hcurrent, ih, List.map_cons, rename_fieldOp]
  | case3 current f rest bits g u hg hb hcurrent ih =>
    simp only [opsOf, hg, hb, if_neg hcurrent, ih, List.map_append, List.map_cons, rename_fieldOp,
      map_rename_close]
    rfl
  | case4 current f rest bits hg hb ih => simp only [opsOf, hg, hb, ih]
  | case5 current f rest hb target ht ih =>
    simp only [opsOf, hb, ht, Option.map_some, ih, List.map_cons]
    rfl
  | case6 current f rest hb ht ih => simp only [opsOf, hb, ht, Option.map_none, ih]

end

/-! ## Projects -/

namespace Project

/-- The record at `i` in one project stands at `ρ i` in another one, where it has the same
layout. -/
structure Renames (ρ : Nat → Nat) (p p' : Project) (layouts layouts' : List Layout) : Prop where
  category : ∀ name, p'.types.category? name = p.types.category? name
  index : ∀ name, p'.index? name = (p.index? name).map ρ
  layout : ∀ {name : String} {i : Nat}, p.index? name = some i → layouts'[ρ i]? = layouts[i]?

namespace Renames

variable {ρ : Nat → Nat} {p p' : Project} {layouts layouts' : List Layout}
  (h : p.Renames ρ p' layouts layouts')
include h

theorem embedded? (f : FieldLayout) : p'.embedded? f = (p.embedded? f).map ρ := by
  rw [Project.embedded?, Project.embedded?, TypeTable.isRecord, TypeTable.isRecord, h.category,
    h.index]
  split
  · rfl
  · rfl

theorem strategy? (f : FieldLayout) :
    p'.strategy? f = (p.strategy? f).map (Strategy.rename ρ) := by
  have hembedded := h.embedded? f
  cases hb : f.bitLength with
  | some bits =>
    rw [strategy?_bitField hb, strategy?_bitField hb]
    rfl
  | none =>
    cases he : p.embedded? f with
    | some target =>
      rw [he] at hembedded
      rw [strategy?_nested hb he, strategy?_nested hb hembedded]
      rfl
    | none =>
      rw [he] at hembedded
      rw [strategy?_scalar hb he, strategy?_scalar hb hembedded, h.category, Option.map_bind]
      congr 1
      funext category
      -- a strategy that is selected by category and size is never a call
      cases hs : Strategy.select? category f.elementSize with
      | none => simp [hs]
      | some strategy =>
        cases strategy with
        | nested target => exact absurd hs select?_ne_nested
        | _ => simp [hs, Strategy.rename]

theorem entry? (f : FieldLayout) : p'.entry? f = (p.entry? f).map (·.rename ρ) := by
  rw [Project.entry?, Project.entry?, h.strategy?, Option.map_map, Option.map_map]
  rfl

theorem swaps {name : String} {i : Nat} (hi : p.index? name = some i) :
    (p'.planned layouts').swaps[ρ i]? =
      ((p.planned layouts).swaps[i]?).map (SwapPlan.rename ρ) := by
  have hentries : p'.entry? = fun f => (p.entry? f).map (·.rename ρ) := funext h.entry?
  rw [planned_swaps, planned_swaps, h.layout hi, Option.map_map]
  congr 1
  funext l
  simp only [swapPlan, SwapPlan.rename, Function.comp_apply, hentries, List.map_filterMap]

theorem target? (f : FieldLayout) :
    BitSwapPlan.target? p' layouts' f = (BitSwapPlan.target? p layouts f).map ρ := by
  rw [BitSwapPlan.target?, BitSwapPlan.target?, h.embedded?, Option.filter_map]
  cases he : p.embedded? f with
  | none => rfl
  | some target =>
    have hlayout := h.layout (index?_of_embedded? he)
    simp only [Option.filter, Function.comp_apply, hlayout]

theorem bitSwap? {name : String} {i : Nat} (hi : p.index? name = some i) :
    (p'.planned layouts').bitSwap? (ρ i) =
      ((p.planned layouts).bitSwap? i).map (BitSwapPlan.rename ρ) := by
  have htarget : BitSwapPlan.target? p' layouts' =
      fun f => (BitSwapPlan.target? p layouts f).map ρ := funext h.target?
  rw [planned_bitSwap?, planned_bitSwap?, h.layout hi, Option.map_bind]
  congr 1
  funext l
  simp only [bitSwapPlan?, Function.comp_apply, htarget, BitSwapPlan.opsOf_rename]
  split
  · rfl
  · rfl

/-! ## Conversions -/

section
variable (hp : p.Plannable layouts) (hp' : p'.Plannable layouts') (direction : Direction)
include hp hp'

theorem bitSwap_eq {name : String} {i : Nat} (hi : p.index? name = some i) (image : Image) :
    (p'.planned layouts').bitSwap direction (ρ i) image =
      (p.planned layouts).bitSwap direction i image := by
  induction i using Nat.strongRecOn generalizing name image with
  | ind i ih =>
    have hplan' := h.bitSwap? hi
    rw [Plans.bitSwap, Plans.bitSwap]
    cases hplan : (p.planned layouts).bitSwap? i with
    | none =>
      rw [hplan] at hplan'
      rw [hplan']
      rfl
    | some plan =>
      rw [hplan] at hplan'
      rw [hplan']
      simp only [Option.map_some, BitSwapPlan.rename]
      rw [List.foldlM_map]
      refine foldlM_congr (fun op hop image => ?_) image
      cases op with
      | nested member target extents offset elementSize =>
        have ht : target < i := hp.bitSwap_earlier hplan _ (BitSwapPlan.call_mem hop)
        have ht' : ρ target < ρ i :=
          hp'.bitSwap_earlier hplan' _ (BitSwapPlan.call_mem (List.mem_map_of_mem hop))
        obtain ⟨swapPlan, hswap, hcalls⟩ := calls_of_bitSwap? hplan
        obtain ⟨l, f, -, -, -, hf, -⟩ :=
          exists_member hswap (List.mem_of_mem_filter (hcalls ▸ BitSwapPlan.call_mem hop))
        simp only [BitSwapOp.rename, dif_pos ht, dif_pos ht', ih target ht (index?_of_embedded? hf)]
      | _ => rfl

/-- The byte swap of a record does not depend on the places of the records. -/
theorem byteSwap_eq {name : String} {i : Nat} (hi : p.index? name = some i) (image : Image) :
    (p'.planned layouts').byteSwap direction (ρ i) image =
      (p.planned layouts).byteSwap direction i image := by
  induction i using Nat.strongRecOn generalizing name image with
  | ind i ih =>
    have hplan' := h.swaps hi
    rw [Plans.byteSwap, Plans.byteSwap]
    cases hplan : (p.planned layouts).swaps[i]? with
    | none =>
      rw [hplan] at hplan'
      rw [hplan']
      rfl
    | some plan =>
      rw [hplan] at hplan'
      rw [hplan']
      simp only [Option.map_some, SwapPlan.rename, h.bitSwap_eq hp hp' direction hi]
      rw [List.foldlM_map]
      congr 1
      refine foldlM_congr (fun e he image => ?_) image
      cases hs : e.strategy with
      | nested target =>
        have hs' : (e.rename ρ).strategy = .nested (ρ target) := by
          rw [SwapEntry.rename, hs]
          rfl
        have ht : target < i := hp.byteSwap_earlier hplan _ (SwapPlan.call_mem he hs)
        have ht' : ρ target < ρ i :=
          hp'.byteSwap_earlier hplan' _ (SwapPlan.call_mem (List.mem_map_of_mem he) hs')
        obtain ⟨l, f, -, -, -, hf, -⟩ := exists_member hplan (SwapPlan.call_mem he hs)
        simp only [hs', dif_pos ht, dif_pos ht', ih target ht (index?_of_embedded? hf)]
        rfl
      | _ =>
        have hs' : (e.rename ρ).strategy = e.strategy := by
          rw [SwapEntry.rename, hs]
          rfl
        simp only [hs', hs]
        rfl

end

end Renames

end Project

end RecordSwap
