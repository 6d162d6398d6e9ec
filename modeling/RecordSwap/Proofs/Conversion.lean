import RecordSwap.Proofs.Planning
import RecordSwap.Proofs.Units

/-!
# Swap functions piece by piece

What the planned swap functions do to each piece of a record.

* `Piece.byteBlock`, `Piece.bitBlock`: the steps on one piece; `byteElement` and `bitElement` are
  those on one element of a plain member.
* `Project.Sound.byteSteps_eq`, `Project.Sound.runSteps_bitSteps`: the swap functions of a record
  run the blocks of its pieces.
* `Project.Sound.inside_byteSteps`, `Project.Sound.inside_bitSteps`: they keep to the record.
* `Project.Sound.runSteps_byteSteps`: with disjoint spans, the byte swap runs one block for each
  piece, which holds all that is done to the piece.
-/

namespace RecordSwap

/-! ## Blocks -/

namespace Project

/-- The byte swap of one element of a plain member; `inner` gives that of an embedded record. -/
def byteElement (p : Project) (inner : Nat → List Step) (f : FieldLayout) : List Step :=
  match p.embedded? f with
  | some target => inner target
  | none => (p.strategy? f).elim [] scalarSteps

/-- The bit swap of one element of a plain member; `inner` gives that of an embedded record. -/
def bitElement (p : Project) (inner : Nat → List Step) (f : FieldLayout) : List Step :=
  (p.embedded? f).elim [] inner

end Project

namespace Piece

/-- The byte swap of one piece, without that of its bit-fields. -/
def byteBlock (p : Project) (inner : Nat → List Step) : Piece → List Step
  | member f => elements f.offset f.elementSize (arrayLength f.extents) (p.byteElement inner f)
  | unit _ _ => []

/-- The bit swap of one piece. -/
def bitBlock (p : Project) (direction : Direction) (inner : Nat → List Step) : Piece → List Step
  | member f => elements f.offset f.elementSize (arrayLength f.extents) (p.bitElement inner f)
  | unit u fs => turnSteps u.span (unitTurns direction fs)

end Piece

/-! ## Entries and statements of a piece -/

section
variable {p : Project} {layouts : List Layout} {direction : Direction}
  {inner inner' : Nat → List Step} {sizeOf : String → Nat}

theorem Piece.entries_flatMap {q : Piece} (hq : q.Sound sizeOf)
    (hin : ∀ f ∈ q.fields, ∀ target, p.embedded? f = some target → inner target = inner' target) :
    (q.fields.filterMap p.entry?).flatMap (SwapEntry.steps inner) = q.byteBlock p inner' := by
  cases q with
  | member f =>
    have hb := hq.bitLength
    rw [byteBlock, Project.byteElement, fields]
    cases ht : p.embedded? f with
    | some target =>
      simp [Project.entry?, Project.strategy?_nested hb ht, SwapEntry.steps,
        hin f (.head _) target ht]
    | none =>
      cases hs : p.strategy? f with
      | none => simp [Project.entry?, hs]
      | some strategy =>
        cases strategy with
        | nested target => simp [(Project.embedded?_of_nested hs).2] at ht
        | _ => simp [Project.entry?, hs, SwapEntry.steps]
  | unit u fs =>
    rw [byteBlock, List.flatMap_eq_nil_iff]
    intro e he
    obtain ⟨f, hf, he⟩ := List.mem_filterMap.1 he
    obtain ⟨bits, hb, -⟩ := hq.run.isSome f hf
    rw [Project.entry?, Project.strategy?_bitField hb] at he
    cases he
    exact elements_nil _ _ _

theorem FieldLayout.bitOp_steps (u : UnitLayout) (f : FieldLayout) :
    (f.bitOp u).steps direction inner = turnSteps u.span f.turns := by
  unfold bitOp BitSwapPlan.fieldOp turns
  split <;> rfl

theorem Piece.unit_flatMap (u : UnitLayout) (fs : List FieldLayout) :
    (unitOps u fs ++ [closing u]).flatMap (BitSwapOp.steps direction inner) =
      turnSteps u.span (unitTurns direction fs) := by
  have hfs : (fs.map (FieldLayout.bitOp u)).flatMap (BitSwapOp.steps direction inner) =
      turnSteps u.span (fs.flatMap FieldLayout.turns) := by
    simp only [List.flatMap_map, FieldLayout.bitOp_steps, turnSteps, List.map_flatMap]
  rw [List.flatMap_append, unitOps, List.flatMap_cons, hfs]
  cases direction <;>
    simp [closing, BitSwapOp.steps, unitTurns, turnSteps, UnitLayout.span]

/-- The statements for a piece do what the block says; a record without bit-fields has no steps
whether or not it is called. -/
theorem Piece.bitOps_flatMap (q : Piece)
    (hin : ∀ f ∈ q.fields, ∀ target, p.embedded? f = some target → inner target = inner' target)
    (hnone : ∀ target, (layouts[target]?).any Layout.hasBitFields = false → inner' target = []) :
    (q.bitOps (BitSwapPlan.target? p layouts)).flatMap (BitSwapOp.steps direction inner) =
      q.bitBlock p direction inner' := by
  cases q with
  | unit u fs => exact unit_flatMap u fs
  | member f =>
    rw [bitBlock, Project.bitElement, bitOps, memberOps, BitSwapPlan.target?]
    cases ht : p.embedded? f with
    | none => simp
    | some target =>
      cases hb : (layouts[target]?).any Layout.hasBitFields with
      | true => simp [Option.filter, hb, BitSwapOp.steps, hin f (.head _) target ht]
      | false => simp [Option.filter, hb, hnone target hb]

end

/-! ## Steps of a record -/

namespace Project.Sound

variable {p : Project} {layouts : List Layout} (direction : Direction) {index : Nat} {l : Layout}
  {pieces : List Piece}

theorem bitSteps_of_not_hasBitFields
    (hl : (layouts[index]?).any Layout.hasBitFields = false) :
    (p.planned layouts).bitSteps direction index = [] := by
  have hnone : (p.planned layouts).bitSwap? index = none := by
    rw [planned_bitSwap?]
    cases h : layouts[index]? with
    | none => rfl
    | some l =>
      rw [h, Option.any_some] at hl
      simp [bitSwapPlan?, hl]
  rw [Plans.bitSteps, hnone]

variable (h : p.Sound layouts) (hl : layouts[index]? = some l)
  (hc : l.Consists p.types.sizeOf pieces)
include h hl hc

/-- The byte swap of a record runs the blocks of its pieces, and then its bit swap. -/
theorem byteSteps_eq : (p.planned layouts).byteSteps direction index =
    pieces.flatMap (Piece.byteBlock p ((p.planned layouts).byteSteps direction)) ++
      if l.hasBitFields then (p.planned layouts).bitSteps direction index else [] := by
  rw [Plans.byteSteps, planned_swaps, hl, Option.map_some]
  simp only [swapPlan, h.any_isSome hl]
  congr 1
  rw [hc.fields, List.filterMap_flatMap, List.flatMap_assoc]
  refine List.flatMap_congr fun q hq => Piece.entries_flatMap (hc.sound q hq) ?_
  intro f hf target ht
  have hf : f ∈ l.fields := hc.fields ▸ List.mem_flatMap.2 ⟨q, hq, hf⟩
  -- the recursion stops only at records that do not stand before this one
  rw [dif_pos (h.embeds hl hf ht).1]

/-- The statements of the bit swap of a record with bit-fields, and what each piece's amount to. -/
theorem bitSteps_eq (hb : l.hasBitFields = true) : ∃ steps : BitSwapOp → List Step,
    (p.planned layouts).bitSteps direction index =
      (Piece.statements (BitSwapPlan.target? p layouts) none pieces).flatMap steps ∧
    ∀ q ∈ pieces, (q.bitOps (BitSwapPlan.target? p layouts)).flatMap steps =
      q.bitBlock p direction ((p.planned layouts).bitSteps direction) := by
  refine ⟨BitSwapOp.steps direction fun target =>
    if _h : target < index then (p.planned layouts).bitSteps direction target else [],
    ?_, fun q hq => Piece.bitOps_flatMap q ?_ ?_⟩
  · rw [Plans.bitSteps, planned_ops hl hc, if_pos hb]
  · intro f hf target ht
    have hf : f ∈ l.fields := hc.fields ▸ List.mem_flatMap.2 ⟨q, hq, hf⟩
    rw [dif_pos (h.embeds hl hf ht).1]
  · exact fun target ht => bitSteps_of_not_hasBitFields direction ht

end Project.Sound

/-! ## Where the steps lie -/

section
variable {p : Project} {direction : Direction} {inner : Nat → List Step} {f : FieldLayout}
  {sizeOf : String → Nat}

theorem inside_byteElement (hf : f.bitLength = none)
    (hin : ∀ target, p.embedded? f = some target → Inside ⟨0, f.elementSize⟩ (inner target)) :
    Inside ⟨0, f.elementSize⟩ (p.byteElement inner f) := by
  unfold Project.byteElement
  cases ht : p.embedded? f with
  | some target => exact hin target ht
  | none =>
    rw [Project.strategy?_scalar hf ht]
    simp only
    cases hs : (p.types.category? f.dataType).bind (Strategy.select? · f.elementSize) with
    | none => exact Inside.nil _
    | some strategy =>
      obtain ⟨category, -, hs⟩ := Option.bind_eq_some_iff.1 hs
      simp only [Option.elim, scalarSteps]
      cases hw : strategy.width? with
      | none => exact Inside.nil _
      | some width =>
        rw [Strategy.width?_of_select? hs hw]
        exact Inside.single (Span.Sub.refl _)

theorem inside_bitElement
    (hin : ∀ target, p.embedded? f = some target → Inside ⟨0, f.elementSize⟩ (inner target)) :
    Inside ⟨0, f.elementSize⟩ (p.bitElement inner f) := by
  unfold Project.bitElement
  cases ht : p.embedded? f with
  | some target => exact hin target ht
  | none => exact Inside.nil _

theorem Piece.MemberSound.span_eq (h : MemberSound sizeOf f) :
    f.span = ⟨f.offset, arrayLength f.extents * f.elementSize⟩ := by
  rw [FieldLayout.span, h.size, Nat.mul_comm]

theorem inside_byteBlock {q : Piece} (hq : q.Sound sizeOf)
    (hin : ∀ f, q = .member f → ∀ target, p.embedded? f = some target →
      Inside ⟨0, f.elementSize⟩ (inner target)) : Inside q.span (q.byteBlock p inner) := by
  cases q with
  | member f =>
    rw [Piece.span, hq.span_eq]
    exact inside_elements (inside_byteElement hq.bitLength (hin f rfl))
  | unit u fs => exact Inside.nil _

theorem inside_bitBlock {q : Piece} (hq : q.Sound sizeOf)
    (hin : ∀ f, q = .member f → ∀ target, p.embedded? f = some target →
      Inside ⟨0, f.elementSize⟩ (inner target)) :
    Inside q.span (q.bitBlock p direction inner) := by
  cases q with
  | member f =>
    rw [Piece.span, hq.span_eq]
    exact inside_elements (inside_bitElement (hin f rfl))
  | unit u fs => exact inside_turnSteps _ _

end

namespace Project.Sound

variable {p : Project} {layouts : List Layout} (h : p.Sound layouts)
include h

/-- An embedded record stands before its container and fills an element of the member. -/
theorem embeds_member {index : Nat} {l : Layout} {pieces : List Piece}
    (hl : layouts[index]? = some l) (hc : l.Consists p.types.sizeOf pieces) {f : FieldLayout}
    (hq : .member f ∈ pieces) {target : Nat} (ht : p.embedded? f = some target) :
    target < index ∧ ∃ inner, layouts[target]? = some inner ∧ f.elementSize = inner.totalSize := by
  have hf : f ∈ l.fields := hc.fields ▸ List.mem_flatMap.2 ⟨_, hq, .head _⟩
  obtain ⟨hlt, inner, hinner, hsize⟩ := h.embeds hl hf ht
  have hs : Piece.MemberSound _ f := hc.sound _ hq
  exact ⟨hlt, inner, hinner, hs.elementSize.trans hsize⟩

/-- What holds of all records that stand before a record and fill elements of its members holds of
those that one of its pieces embeds. -/
theorem forall_embedded {index : Nat} {l : Layout} {pieces : List Piece}
    (hl : layouts[index]? = some l) (hc : l.Consists p.types.sizeOf pieces) {q : Piece}
    (hq : q ∈ pieces) {P : FieldLayout → Nat → Prop}
    (hP : ∀ f target inner, target < index → layouts[target]? = some inner →
      f.elementSize = inner.totalSize → P f target) :
    ∀ f, q = .member f → ∀ target, p.embedded? f = some target → P f target := by
  rintro f rfl target ht
  obtain ⟨hlt, inner, hinner, hsize⟩ := h.embeds_member hl hc hq ht
  exact hP f target inner hlt hinner hsize

theorem inside_bitSteps (direction : Direction) {index : Nat} {l : Layout}
    (hl : layouts[index]? = some l) :
    Inside ⟨0, l.totalSize⟩ ((p.planned layouts).bitSteps direction index) := by
  induction index using Nat.strongRecOn generalizing l with
  | ind index ih =>
    cases hb : l.hasBitFields with
    | false =>
      rw [bitSteps_of_not_hasBitFields direction (by rw [hl]; exact hb)]
      exact Inside.nil _
    | true =>
      obtain ⟨pieces, hc⟩ := h.consists l (List.mem_of_getElem? hl)
      obtain ⟨steps, heq, hblock⟩ := h.bitSteps_eq direction hl hc hb
      rw [heq]
      intro s hs
      obtain ⟨op, hop, hs⟩ := List.mem_flatMap.1 hs
      obtain ⟨q, hq, hop⟩ := Piece.mem_statements hop
      have hs := List.mem_flatMap.2 ⟨op, hop, hs⟩
      rw [hblock q hq] at hs
      refine (inside_bitBlock (hc.sound q hq) ?_).mono (hc.span_sub hq) s hs
      exact h.forall_embedded hl hc hq fun f target inner hlt hinner hsize =>
        hsize ▸ ih target hlt hinner

/-- The byte swap of a record keeps to the record. -/
theorem inside_byteSteps (direction : Direction) {index : Nat} {l : Layout}
    (hl : layouts[index]? = some l) :
    Inside ⟨0, l.totalSize⟩ ((p.planned layouts).byteSteps direction index) := by
  induction index using Nat.strongRecOn generalizing l with
  | ind index ih =>
    obtain ⟨pieces, hc⟩ := h.consists l (List.mem_of_getElem? hl)
    rw [h.byteSteps_eq direction hl hc]
    refine Inside.append (Inside.flatMap fun q hq => ?_) ?_
    · refine (inside_byteBlock (hc.sound q hq) ?_).mono (hc.span_sub hq)
      exact h.forall_embedded hl hc hq fun f target inner hlt hinner hsize =>
        hsize ▸ ih target hlt hinner
    · split
      · exact h.inside_bitSteps direction hl
      · exact Inside.nil _

end Project.Sound

/-! ## One block for each piece -/

/-- With disjoint spans it makes no difference that units are closed late. -/
theorem runSteps_statements {target? : FieldLayout → Option Nat} {steps : BitSwapOp → List Step}
    {pieces : List Piece} (hd : pieces.Pairwise fun q q' => q.span.Disjoint q'.span)
    (hin : ∀ q ∈ pieces, Inside q.span ((q.bitOps target?).flatMap steps))
    (current : Option UnitLayout)
    (hcur : ∀ u, current = some u → Inside u.span (steps (Piece.closing u)) ∧
      ∀ q ∈ pieces, u.span.Disjoint q.span) :
    runSteps ((Piece.statements target? current pieces).flatMap steps) =
      runSteps ((current.toList.map Piece.closing).flatMap steps ++
        pieces.flatMap fun q => (q.bitOps target?).flatMap steps) := by
  -- `current` is the unit whose closing is still to come
  induction pieces generalizing current with
  | nil => simp [Piece.statements]
  | cons q rest ih =>
    obtain ⟨hq, hrest⟩ := List.pairwise_cons.1 hd
    have ih := ih hrest fun q hq => hin q (.tail _ hq)
    funext image
    cases q with
    | member f =>
      -- the closing may as well come before the member
      have hcomm : Function.Commute
          (runSteps ((current.toList.map Piece.closing).flatMap steps))
          (runSteps ((Piece.memberOps target? f).flatMap steps)) := by
        cases current with
        | none => exact fun _ => rfl
        | some u =>
          obtain ⟨hu, hdis⟩ := hcur u rfl
          exact runSteps_comm (by simpa using hu) (hin _ (.head _)) (hdis _ (.head _))
      have ih := ih current fun u hu => ⟨(hcur u hu).1, fun q hq => (hcur u hu).2 q (.tail _ hq)⟩
      rw [Piece.statements, List.flatMap_append, runSteps_append, ih, List.flatMap_cons,
        runSteps_append, hcomm, runSteps_append, runSteps_append]
      rfl
    | unit u fs =>
      have hclose : Inside u.span (steps (Piece.closing u)) := fun s hs =>
        hin _ (.head _) s (List.mem_flatMap.2 ⟨_, by simp [Piece.bitOps], hs⟩)
      have ih := ih (some u) fun v hv => by
        cases hv
        exact ⟨hclose, hq⟩
      rw [Piece.statements, List.flatMap_append, runSteps_append, ih]
      simp only [Piece.bitOps, List.flatMap_append, List.flatMap_cons, List.append_assoc,
        runSteps_append, Option.toList_some, List.map_cons, List.map_nil, List.flatMap_nil,
        List.append_nil]

/-- All that the byte swap of a record does to one of its pieces; `own` says whether the record has
bit-fields of its own. -/
def Piece.block (p : Project) (layouts : List Layout) (direction : Direction) (own : Bool)
    (q : Piece) : List Step :=
  q.byteBlock p ((p.planned layouts).byteSteps direction) ++
    if own then q.bitBlock p direction ((p.planned layouts).bitSteps direction) else []

namespace Project.Sound

variable {p : Project} {layouts : List Layout} (direction : Direction) {index : Nat} {l : Layout}
  {pieces : List Piece} (h : p.Sound layouts) (hl : layouts[index]? = some l)
  (hc : l.Consists p.types.sizeOf pieces)
include h hl hc

theorem inside_bitEmbedded {q : Piece} (hq : q ∈ pieces) : ∀ f, q = .member f → ∀ target,
    p.embedded? f = some target →
      Inside ⟨0, f.elementSize⟩ ((p.planned layouts).bitSteps direction target) :=
  h.forall_embedded hl hc hq fun _ _ _ _ hinner hsize => hsize ▸ h.inside_bitSteps direction hinner

theorem inside_byteEmbedded {q : Piece} (hq : q ∈ pieces) : ∀ f, q = .member f → ∀ target,
    p.embedded? f = some target →
      Inside ⟨0, f.elementSize⟩ ((p.planned layouts).byteSteps direction target) :=
  h.forall_embedded hl hc hq fun _ _ _ _ hinner hsize => hsize ▸ h.inside_byteSteps direction hinner

theorem inside_bitElement {f : FieldLayout} (hq : .member f ∈ pieces) :
    Inside ⟨0, f.elementSize⟩ (p.bitElement ((p.planned layouts).bitSteps direction) f) :=
  RecordSwap.inside_bitElement (h.inside_bitEmbedded direction hl hc hq f rfl)

theorem inside_byteElement {f : FieldLayout} (hq : .member f ∈ pieces) :
    Inside ⟨0, f.elementSize⟩ (p.byteElement ((p.planned layouts).byteSteps direction) f) := by
  have hs : Piece.MemberSound _ f := hc.sound _ hq
  exact RecordSwap.inside_byteElement hs.bitLength (h.inside_byteEmbedded direction hl hc hq f rfl)

theorem inside_bitBlock {q : Piece} (hq : q ∈ pieces) :
    Inside q.span (q.bitBlock p direction ((p.planned layouts).bitSteps direction)) :=
  RecordSwap.inside_bitBlock (hc.sound q hq) (h.inside_bitEmbedded direction hl hc hq)

theorem inside_byteBlock {q : Piece} (hq : q ∈ pieces) :
    Inside q.span (q.byteBlock p ((p.planned layouts).byteSteps direction)) :=
  RecordSwap.inside_byteBlock (hc.sound q hq) (h.inside_byteEmbedded direction hl hc hq)

theorem inside_block (own : Bool) {q : Piece} (hq : q ∈ pieces) :
    Inside q.span (q.block p layouts direction own) := by
  refine (h.inside_byteBlock direction hl hc hq).append ?_
  split
  · exact h.inside_bitBlock direction hl hc hq
  · exact Inside.nil _

variable (hd : l.SpansDisjoint)
include hd

theorem runSteps_bitSteps (hb : l.hasBitFields = true) :
    runSteps ((p.planned layouts).bitSteps direction index) =
      runSteps (pieces.flatMap
        (Piece.bitBlock p direction ((p.planned layouts).bitSteps direction))) := by
  obtain ⟨steps, heq, hblock⟩ := h.bitSteps_eq direction hl hc hb
  rw [heq, runSteps_statements (hc.pairwise_iff.1 hd) _ none (fun u hu => by cases hu)]
  · rw [List.flatMap_congr hblock]
    rfl
  · intro q hq
    rw [hblock q hq]
    exact h.inside_bitBlock direction hl hc hq

/-- **The byte swap of a record runs one block for each of its pieces.** -/
theorem runSteps_byteSteps :
    runSteps ((p.planned layouts).byteSteps direction index) =
      runSteps (pieces.flatMap (Piece.block p layouts direction l.hasBitFields)) := by
  rw [h.byteSteps_eq direction hl hc]
  cases hb : l.hasBitFields with
  | false =>
    have hplain : Piece.block p layouts direction false =
        Piece.byteBlock p ((p.planned layouts).byteSteps direction) := by
      funext q
      simp [Piece.block]
    simp [hplain]
  | true =>
    have hboth : Piece.block p layouts direction true = fun q =>
        q.byteBlock p ((p.planned layouts).byteSteps direction) ++
          q.bitBlock p direction ((p.planned layouts).bitSteps direction) := rfl
    rw [if_pos rfl, hboth, ← runSteps_flatMap_append (hc.pairwise_iff.1 hd)
      (fun q hq => h.inside_byteBlock direction hl hc hq)
      fun q hq => h.inside_bitBlock direction hl hc hq]
    funext image
    rw [runSteps_append, h.runSteps_bitSteps direction hl hc hd hb, runSteps_append]

end Project.Sound

end RecordSwap
