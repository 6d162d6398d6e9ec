import RecordSwap.Proofs.Calls
import RecordSwap.Proofs.Sharing

/-!
# Brackets

The statements of a bit swap function, calls of other functions left out, stand in brackets: for
each storage unit in turn, the unit is reflected in the input, its bit-fields are turned, and it is
reflected in the output.

* `Layout.brackets`: these statements, read off the units and members of a layout.
* `Piece.filter_statements`: a unit is closed late, but only calls stand in between.
* `Piece.Numbered.units_eq`: the bit-fields of a unit are the members that carry its number.
* `BitSwapPlan.Bracketed`: a plan that consists of brackets and calls, with every bit-field in one
  bracket.
* `Draft.bitSwaps_bracketed`: the statement about built projects.
-/

namespace RecordSwap

namespace Layout

/-- The statement that turns a bit-field in its unit. A single bit is copied. -/
def turnOp (u : UnitLayout) (f : FieldLayout) : BitSwapOp :=
  if 1 < f.bits then .mirror f.name f.bits u.offset u.byteSize f.shift else .copy f.name

/-- The statements for a unit with the given bit-fields. -/
def bracket (u : UnitLayout) (fs : List FieldLayout) : List BitSwapOp :=
  .reflectInput u.offset u.byteSize :: fs.map (turnOp u) ++ [.reflectOutput u.offset u.byteSize]

/-- The statements for all units, in order, each with the bit-fields that share it. -/
def brackets (l : Layout) : List BitSwapOp :=
  l.groups.zipIdx.flatMap fun (u, g) => bracket u (l.sharing g)

end Layout

/-- The statements of a plan other than the calls of embedded records. -/
def BitSwapPlan.ownOps (plan : BitSwapPlan) : List BitSwapOp := plan.ops.filter (·.call?.isNone)

/-- A plan that treats the storage units of a layout one after the other, each with its own
bit-fields. -/
structure BitSwapPlan.Bracketed (s : Record) (l : Layout) (plan : BitSwapPlan) : Prop where
  shows : List.Forall₂ FieldLayout.Shows l.fields s.declared
  ownOps : plan.ownOps = l.brackets
  /-- The units have all bit-fields among them, in declaration order. -/
  sharing : (List.range l.groups.length).flatMap l.sharing =
    l.fields.filter (·.bitLength.isSome)
  ne_nil : ∀ g < l.groups.length, l.sharing g ≠ []

/-! ## Pieces -/

namespace Piece

/-- A storage unit with its bit-fields. -/
def shared? : Piece → Option (UnitLayout × List FieldLayout)
  | member _ => none
  | unit u fs => some (u, fs)

theorem bracket_eq (u : UnitLayout) (fs : List FieldLayout) :
    Layout.bracket u fs = unitOps u fs ++ [closing u] := rfl

theorem filter_memberOps (target? : FieldLayout → Option Nat) (f : FieldLayout) :
    (memberOps target? f).filter (·.call?.isNone) = [] := by
  unfold memberOps
  split
  · rfl
  · rfl

theorem filter_unitOps (u : UnitLayout) (fs : List FieldLayout) :
    (unitOps u fs).filter (·.call?.isNone) = unitOps u fs := by
  rw [List.filter_eq_self]
  intro op hop
  rcases List.mem_cons.1 hop with rfl | hop
  · rfl
  · obtain ⟨f, -, rfl⟩ := List.mem_map.1 hop
    simp [FieldLayout.bitOp]

theorem filter_closing (current : Option UnitLayout) :
    (current.toList.map closing).filter (·.call?.isNone) = current.toList.map closing := by
  cases current <;> rfl

/-- Between the bit-fields of a unit and the statement that closes it stand only calls. -/
theorem filter_statements (target? : FieldLayout → Option Nat) (current : Option UnitLayout)
    (pieces : List Piece) :
    (statements target? current pieces).filter (·.call?.isNone) =
      current.toList.map closing ++
        (pieces.filterMap shared?).flatMap fun (u, fs) => Layout.bracket u fs := by
  induction pieces generalizing current with
  | nil => simp [statements, filter_closing]
  | cons q rest ih =>
    cases q with
    | member f => simp [statements, filter_memberOps, ih, List.filterMap_cons, shared?]
    | unit u fs =>
      simp [statements, filter_closing, filter_unitOps, ih, shared?,
        bracket_eq]

variable {n : Nat} {pieces : List Piece}

/-- The bit-fields of the units, which are numbered from `n` on, are those that carry their
numbers. -/
theorem Numbered.units_eq (h : Numbered n pieces) :
    pieces.filterMap shared? = ((pieces.filterMap unit?).zipIdx n).map fun (u, g) =>
      (u, (pieces.flatMap fields).filter (·.group = some g)) := by
  induction h with
  | nil => rfl
  | @member n f rest hnone _ ih =>
    simp [List.filterMap_cons, shared?, unit?, fields, hnone, ih]
  | @unit n u fs rest hfs hrest ih =>
    have hfirst : (fs ++ rest.flatMap fields).filter (·.group = some n) = fs := by
      rw [List.filter_append, List.filter_eq_self.2 (by simpa using hfs), List.append_right_eq_self,
        List.filter_eq_nil_iff]
      intro f hf hg
      obtain ⟨hle, -⟩ := hrest.unit_of_group hf (of_decide_eq_true hg)
      omega
    simp only [List.filterMap_cons, shared?, unit?, List.zipIdx_cons, List.map_cons,
      List.flatMap_cons, fields, hfirst, ih]
    congr 1
    refine List.map_congr_left fun x hv => ?_
    obtain ⟨v, g⟩ := x
    -- the later units have greater numbers than the first one
    have hg : n < g := (List.mem_zipIdx hv).1
    have hnone : fs.filter (·.group = some g) = [] := by
      rw [List.filter_eq_nil_iff]
      intro f hf hfg
      rw [hfs f hf] at hfg
      simp at hfg
      omega
    rw [List.filter_append, hnone, List.nil_append]

theorem filter_isSome {sizeOf : String → Nat} (h : ∀ q ∈ pieces, q.Sound sizeOf) :
    (pieces.flatMap fields).filter (·.bitLength.isSome) =
      (pieces.filterMap shared?).flatMap Prod.snd := by
  induction pieces with
  | nil => rfl
  | cons q rest ih =>
    have ih := ih fun q hq => h q (.tail _ hq)
    have hq := h q (.head _)
    rw [List.flatMap_cons, List.filter_append, ih]
    cases q with
    | member f => simp [List.filterMap_cons, fields, shared?, hq.bitLength]
    | unit u fs =>
      have hfs : fs.filter (·.bitLength.isSome) = fs := by
        rw [List.filter_eq_self]
        intro f hf
        obtain ⟨bits, hb, -⟩ := hq.run.isSome f hf
        simp [hb]
      simp [fields, shared?, hfs]

end Piece

/-! ## Layouts -/

namespace Layout.Consists

variable {sizeOf : String → Nat} {l : Layout} {pieces : List Piece} (h : l.Consists sizeOf pieces)
include h

theorem shared_eq :
    pieces.filterMap Piece.shared? = l.groups.zipIdx.map fun (u, g) => (u, l.sharing g) := by
  rw [h.numbered.units_eq, ← h.groups, ← h.fields]
  rfl

theorem brackets_eq (target? : FieldLayout → Option Nat) :
    (Piece.statements target? none pieces).filter (·.call?.isNone) = l.brackets := by
  rw [Piece.filter_statements, h.shared_eq, List.flatMap_map]
  rfl

theorem flatMap_sharing : (List.range l.groups.length).flatMap l.sharing =
    l.fields.filter (·.bitLength.isSome) := by
  rw [h.fields, Piece.filter_isSome h.sound, h.shared_eq, List.flatMap_map, List.range_eq_range',
    ← List.zipIdx_map_snd, List.flatMap_map]

end Layout.Consists

/-! ## Projects -/

/-- **Brackets.** Every built project whose records have distinct names has layouts and plans. The
bit swap plan of a record with storage units consists, calls apart, of one bracket for each unit in
order, and every bit-field stands in the bracket of its unit. -/
theorem Draft.bitSwaps_bracketed {d : Draft} {p : Project} (h : d.build = .ok p)
    (hd : (p.records.map Record.name).Nodup) :
    ∃ layouts plans, p.layouts = .ok layouts ∧ Plans.ofLayouts p layouts = .ok plans ∧
      ∀ (i : Nat) (s : Record) (l : Layout), p.records[i]? = some s → layouts[i]? = some l →
        l.groups ≠ [] → ∃ plan, plans.bitSwap? i = some plan ∧ plan.Bracketed s l := by
  obtain ⟨layouts, hlayouts, hall⟩ := exists_layouts h hd
  have hp := plannable h (hall.imp fun _ _ hof => hof.reads)
  refine ⟨layouts, p.planned layouts, hlayouts, hp.ofLayouts_eq, fun i s l hs hl hne => ?_⟩
  obtain ⟨l', hl', hof⟩ := getElem?_of_forall₂ hall hs
  obtain rfl := Option.some.inj (hl.symm.trans hl')
  obtain ⟨pieces, hc⟩ := hof.describes.consists
  have hunits : l.hasBitFields = true := by simpa [Layout.hasBitFields] using hne
  have hplan := Project.planned_ops hl hc
  rw [if_pos hunits] at hplan
  refine ⟨_, hplan, hof.describes.shows, hc.brackets_eq _, hc.flatMap_sharing, fun g hg => ?_⟩
  exact (hc.run (List.getElem?_eq_getElem hg)).2.ne_nil

/-- Two units of one type, and calls in front of them. -/
theorem Draft.bitSwaps_bracketed_sample :
    Sample.overlay.build = .ok Sample.overlaid ∧
      Sample.overlaid.layouts = .ok Sample.overlaidLayouts ∧ ∃ plans plan,
        Plans.ofLayouts Sample.overlaid Sample.overlaidLayouts = .ok plans ∧
        plans.bitSwap? 1 = some plan ∧
        plan.ownOps = [
          .reflectInput 22 2, .mirror "low" 9 22 2 0, .reflectOutput 22 2,
          .reflectInput 24 2, .mirror "high" 9 24 2 0, .reflectOutput 24 2] := by
  obtain ⟨layouts, plans, hlayouts, hplans, hbrackets⟩ :=
    bitSwaps_bracketed Sample.overlay_build Sample.overlaid_wellNamed.nodup
  obtain rfl := Except.ok.inj (hlayouts.symm.trans Sample.overlaid_layouts)
  obtain ⟨l, hl, hne, hops⟩ : ∃ l ∈ Sample.overlaidLayouts[1]?, l.groups ≠ [] ∧
      l.brackets = [
        .reflectInput 22 2, .mirror "low" 9 22 2 0, .reflectOutput 22 2,
        .reflectInput 24 2, .mirror "high" 9 24 2 0, .reflectOutput 24 2] := by
    decide +kernel
  obtain ⟨plan, hplan, hplanned⟩ := hbrackets 1 Sample.panel l rfl hl hne
  exact ⟨Sample.overlay_build, Sample.overlaid_layouts, plans, plan, hplans, hplan,
    hplanned.ownOps.trans hops⟩

end RecordSwap
