import RecordSwap.Proofs.Bodies
import RecordSwap.Proofs.Offsets

/-!
# The text of the swap source

The swap source of a project says what its plans do, function by function. Names need not be
distinct.

* `Layout.Counted`: the elements of each member can be counted, as they have been for its layout
  (`Project.layouts_counted`), so that no loop is without a bound.
* `sourcePrelude_eq`: the lines before the first function.
* `Project.exists_sourceText`: behind them stands a text for each function that follows the plans.
* `Plans.Follows`: functions that follow the plans and call only functions that stand before them,
  and besides the bit swap of their own record.
* `Draft.sourceText_follows`: the statement about built projects.
-/

namespace RecordSwap

open C

/-! ## Loops -/

/-- Members whose elements can be counted. -/
def Layout.Counted (l : Layout) : Prop :=
  ∀ f ∈ l.fields, product f.extents = .ok (arrayLength f.extents)

theorem Layout.Frame.field_counted {c : Frame} {row : Row} {size : Nat} {group : Option Nat}
    {shift : Nat} {f : FieldLayout} (h : c.field row size group shift = .ok f) :
    product f.extents = .ok (arrayLength f.extents) := by
  obtain ⟨offset, count, total, -, hcount, -, rfl⟩ := exists_of_field h
  rw [hcount, product_eq_ok hcount]

theorem Layout.ofRecord_counted {p : Project} {s : Record} {placement : Placement} {l : Layout}
    (h : ofRecord p s placement = .ok l) : l.Counted := by
  obtain ⟨slots, fields, groups, total, -, hfields, -, -, rfl⟩ := exists_of_ofRecord h
  intro f hf
  obtain ⟨row, -, size, group, shift, hfield⟩ := exists_of_forall₂ (Frame.fields_rows hfields) hf
  exact Frame.field_counted hfield

namespace Project

variable {p : Project} {layouts : List Layout}

theorem layouts_counted (h : p.layouts = .ok layouts) : ∀ l ∈ layouts, l.Counted := by
  intro l hl
  obtain ⟨_, -, hof⟩ := exists_of_forall₂ (forall₂_of_mapM h) hl
  exact Layout.ofRecord_counted hof

theorem swaps_counted (hc : ∀ l ∈ layouts, l.Counted) {plan : SwapPlan}
    (hp : plan ∈ (p.planned layouts).swaps) :
    ∀ e ∈ plan.entries, product e.extents = .ok (arrayLength e.extents) := by
  intro e he
  obtain ⟨i, hi⟩ := List.mem_iff_getElem?.1 hp
  rw [planned_swaps, Option.map_eq_some_iff] at hi
  obtain ⟨l, hl, rfl⟩ := hi
  obtain ⟨f, hf, he⟩ := List.mem_filterMap.1 he
  obtain ⟨strategy, -, rfl⟩ := Option.map_eq_some_iff.1 he
  exact hc l (List.mem_of_getElem? hl) f hf

theorem bitSwaps_counted (hc : ∀ l ∈ layouts, l.Counted) {i : Nat} {plan : BitSwapPlan}
    (hp : (p.planned layouts).bitSwap? i = some plan) :
    ∀ c ∈ plan.calls, product c.extents = .ok (arrayLength c.extents) := by
  intro c hm
  obtain ⟨swapPlan, hswap, hcalls⟩ := calls_of_bitSwap? hp
  obtain ⟨l, f, hl, hf, -, -, hcall⟩ := exists_member hswap (List.mem_of_mem_filter (hcalls ▸ hm))
  rw [hcall]
  exact hc l (List.mem_of_getElem? hl) f hf

end Project

/-! ## Text -/

theorem Plans.bitSwap?_eq_some {plans : Plans} {i : Nat} {plan : BitSwapPlan} :
    plans.bitSwap? i = some plan ↔ plans.bitSwaps[i]? = some (some plan) :=
  Option.join_eq_some_iff

theorem Plans.mem_bitSwaps_iff {plans : Plans} {plan : BitSwapPlan} :
    plan ∈ plans.bitSwaps.filterMap id ↔ ∃ i, plans.bitSwap? i = some plan := by
  simp [bitSwap?_eq_some, ← List.mem_iff_getElem?]

/-- Lines that the source starts with: the banner, what it includes, and the fixed definitions. -/
theorem sourcePrelude_eq (banner baseName : String) : sourcePrelude banner baseName =
    banner ++ "#include <byteswap.h>\n#include <string.h>\n" ++
      s!"#include \"{baseName}.h\"\n\n" ++ linesText helperLines := by
  rw [sourcePrelude]
  generalize linesText helperLines = helpers
  refine String.toList_inj.1 ?_
  simp [linesText, toString]

/-- Functions and their texts, for plans that are rendered one by one. -/
theorem exists_functionTexts {α : Type} {plans : List α} {render : α → Checked String}
    {P : α → SwapFunction → Prop}
    (h : ∀ plan ∈ plans, ∃ f text, render plan = .ok text ∧ f.Reads text ∧ P plan f) :
    ∃ functions texts, plans.mapM render = .ok texts ∧
      List.Forall₂ SwapFunction.Reads functions texts ∧ List.Forall₂ P plans functions := by
  induction plans with
  | nil => exact ⟨[], [], rfl, .nil, .nil⟩
  | cons plan plans ih =>
    obtain ⟨f, text, htext, hreads, hplan⟩ := h plan (.head _)
    obtain ⟨functions, texts, htexts, hall, hplans⟩ := ih fun x hx => h x (.tail _ hx)
    refine ⟨f :: functions, text :: texts, ?_, .cons hreads hall, .cons hplan hplans⟩
    rw [List.mapM_cons, htext, Checked.ok_bind, htexts, Checked.ok_bind]
    rfl

/-- The source has a text for each function that the plans are rendered as. -/
theorem Project.exists_sourceText {p : Project} {layouts : List Layout}
    (hc : ∀ l ∈ layouts, l.Counted) :
    ∃ (byteSwaps bitSwaps : List SwapFunction) (texts : List String),
      List.Forall₂ (SwapPlan.Renders p) (p.planned layouts).swaps byteSwaps ∧
      List.Forall₂ (BitSwapPlan.Renders p) ((p.planned layouts).bitSwaps.filterMap id) bitSwaps ∧
      List.Forall₂ SwapFunction.Reads (byteSwaps ++ bitSwaps) texts ∧
      ∀ banner baseName, sourceText p (p.planned layouts) banner baseName =
        .ok (sourcePrelude banner baseName ++ String.join texts) := by
  obtain ⟨byteSwaps, byteTexts, hbytes, hbyteReads, hbyteAll⟩ := exists_functionTexts
    fun plan hp => SwapPlan.exists_functionText p (swaps_counted (p := p) hc hp)
  obtain ⟨bitSwaps, bitTexts, hbits, hbitReads, hbitAll⟩ := exists_functionTexts fun plan hp => by
    obtain ⟨i, hi⟩ := Plans.mem_bitSwaps_iff.1 hp
    exact BitSwapPlan.exists_functionText p (bitSwaps_counted (p := p) hc hi)
  refine ⟨byteSwaps, bitSwaps, byteTexts ++ bitTexts, hbyteAll, hbitAll,
    List.rel_append hbyteReads hbitReads, fun banner baseName => ?_⟩
  rw [sourceText, hbytes, Checked.ok_bind, hbits, Checked.ok_bind, String.join_append,
    ← String.append_assoc]
  rfl

/-! ## Order -/

/-- Where the entries that are there stand, once the others are dropped: each one behind those that
stood before it. -/
theorem exists_of_getElem?_filterMap_id {α : Type} {l : List (Option α)} {k : Nat} {y : α}
    (h : (l.filterMap id)[k]? = some y) : ∃ i : Nat, l[i]? = some (some y) ∧
      ∀ j < i, ∀ z, l[j]? = some (some z) → ∃ m < k, (l.filterMap id)[m]? = some z := by
  induction l generalizing k with
  | nil => simp at h
  | cons x l ih =>
    cases x with
    | none =>
      obtain ⟨i, hi, hbefore⟩ := ih h
      refine ⟨i + 1, hi, fun j hj z hz => ?_⟩
      cases j with
      | zero => cases hz
      | succ j => exact hbefore j (by omega) z hz
    | some x =>
      cases k with
      | zero =>
        cases h
        exact ⟨0, rfl, fun j hj => by omega⟩
      | succ k =>
        obtain ⟨i, hi, hbefore⟩ := ih h
        refine ⟨i + 1, hi, fun j hj z hz => ?_⟩
        cases j with
        | zero => exact ⟨0, by omega, Option.some.inj hz⟩
        | succ j =>
          obtain ⟨m, hm, hz⟩ := hbefore j (by omega) z hz
          exact ⟨m + 1, by omega, hz⟩

/-- Functions that follow the plans of a project, first the byte swaps and then the bit swaps, both
in the order of the records. -/
structure Plans.Follows (p : Project) (plans : Plans) (byteSwaps bitSwaps : List SwapFunction) :
    Prop where
  byteRenders : List.Forall₂ (SwapPlan.Renders p) plans.swaps byteSwaps
  bitRenders : List.Forall₂ (BitSwapPlan.Renders p) (plans.bitSwaps.filterMap id) bitSwaps
  byteNames : byteSwaps.map SwapFunction.record = p.records.map Record.name
  bitNames : (bitSwaps.map SwapFunction.record).Sublist (p.records.map Record.name)
  /-- The counter is declared in the functions with a loop, once, and in no other. -/
  counter : ∀ f ∈ byteSwaps ++ bitSwaps, ∀ lines, Lines f.body lines →
    lines.count "   int i = 0;\n" = if f.body.any Statement.isLoop then 1 else 0
  /-- The records that members embed stand before their own record, and are called by name. -/
  embedded : ∀ {i : Nat} {plan : SwapPlan}, plans.swaps[i]? = some plan → ∀ c ∈ plan.calls,
    c.target < i ∧ (p.records[c.target]?).map Record.name = some (p.nameAt c.target)
  bitEmbedded : ∀ {i : Nat} {plan : BitSwapPlan}, plans.bitSwap? i = some plan →
    ∀ c ∈ plan.calls,
      c.target < i ∧ (p.records[c.target]?).map Record.name = some (p.nameAt c.target)
  /-- The swap function that is called for a member stands before the function that calls it. -/
  earlier : ∀ {n : Nat} {f : SwapFunction}, (byteSwaps ++ bitSwaps)[n]? = some f → ∀ s ∈ f.body,
    ∀ {kind : SwapKind} {record : String} {element : Element},
      s.simple = .call kind record element →
      ∃ m < n, ∃ g, (byteSwaps ++ bitSwaps)[m]? = some g ∧ g.kind = kind ∧ g.record = record
  /-- A byte swap function that calls the bit swap of a record calls that of its own. -/
  own : ∀ f ∈ byteSwaps, ∀ s ∈ f.body, ∀ {record : String}, s.simple = .callOwn record →
    record = f.record ∧ ∃ g ∈ bitSwaps, g.record = record

namespace Project

variable {p : Project} {layouts : List Layout}

theorem Plannable.nameAt (h : p.Plannable layouts) {i : Nat} {l : Layout}
    (hl : layouts[i]? = some l) : p.nameAt i = l.name := by
  obtain ⟨s, slots, hs, hread⟩ := h.reads_of hl
  rw [Project.nameAt, hs, hread.name]
  rfl

theorem Plannable.map_name (h : p.Plannable layouts) :
    layouts.map Layout.name = p.records.map Record.name :=
  map_eq_map_of_forall₂ (h.reads.flip.imp fun _ _ ⟨_, hread⟩ => hread.name)

theorem name_of_bitSwapPlan? {i : Nat} {l : Layout} {plan : BitSwapPlan}
    (h : p.bitSwapPlan? layouts i l = some plan) : plan.name = l.name := by
  unfold bitSwapPlan? at h
  split at h
  · cases h
    rfl
  · cases h

theorem Plannable.name_of_bitSwap? (h : p.Plannable layouts) {i : Nat} {plan : BitSwapPlan}
    (hp : (p.planned layouts).bitSwap? i = some plan) : plan.name = p.nameAt i := by
  rw [planned_bitSwap?, Option.bind_eq_some_iff] at hp
  obtain ⟨l, hl, hp⟩ := hp
  rw [h.nameAt hl, name_of_bitSwapPlan? hp]

theorem zipIdx_map_name (layouts : List Layout) :
    layouts.zipIdx.map (fun x => x.1.name) = layouts.map Layout.name := by
  conv_rhs => rw [← List.zipIdx_map_fst 0 layouts, List.map_map]
  rfl

theorem swaps_map_name (p : Project) (layouts : List Layout) :
    (p.planned layouts).swaps.map SwapPlan.name = layouts.map Layout.name := by
  rw [planned, List.map_map, ← zipIdx_map_name]
  rfl

theorem bitSwaps_map_name (p : Project) (layouts : List Layout) :
    (((p.planned layouts).bitSwaps.filterMap id).map BitSwapPlan.name).Sublist
      (layouts.map Layout.name) := by
  rw [planned, List.filterMap_map, ← zipIdx_map_name]
  exact sublist_map_filterMap (fun x plan h => name_of_bitSwapPlan? h) _

section
variable (h : p.Plannable layouts) {byteSwaps bitSwaps : List SwapFunction}
  (hbytes : List.Forall₂ (SwapPlan.Renders p) (p.planned layouts).swaps byteSwaps)
  (hbits : List.Forall₂ (BitSwapPlan.Renders p) ((p.planned layouts).bitSwaps.filterMap id)
    bitSwaps)
include h

include hbytes in
/-- The byte swap function of an embedded record stands before those that call it. -/
theorem Plannable.byteCall_earlier {n : Nat} {f : SwapFunction} (hf : byteSwaps[n]? = some f)
    {s : Statement} (hs : s ∈ f.body) {kind : SwapKind} {record : String} {element : Element}
    (hcall : s.simple = .call kind record element) :
    ∃ m < n, ∃ g, byteSwaps[m]? = some g ∧ g.kind = kind ∧ g.record = record := by
  obtain ⟨plan, hplan, hrenders⟩ := getElem?_of_forall₂_right hbytes hf
  rcases hrenders.mem_body hs with ⟨e, he, part, hpart, hs⟩ | ⟨-, rfl⟩
  · obtain ⟨rfl, target, htarget, rfl⟩ := hpart.call hs hcall
    have hlt : target < n := h.byteSwap_earlier hplan _ (SwapPlan.call_mem he htarget)
    have hlt' : target < (p.planned layouts).swaps.length :=
      Nat.lt_trans hlt (List.getElem?_eq_some_iff.1 hplan).1
    have hcalled := List.getElem?_eq_getElem hlt'
    obtain ⟨g, hg, hgrenders⟩ := getElem?_of_forall₂ hbytes hcalled
    refine ⟨target, hlt, g, hg, hgrenders.kind, ?_⟩
    rw [planned_swaps, Option.map_eq_some_iff] at hcalled
    obtain ⟨l, hl, hcalled⟩ := hcalled
    rw [hgrenders.record, h.nameAt hl, ← hcalled]
    rfl
  · cases hcall

include hbits in
theorem Plannable.bitCall_earlier {n : Nat} {f : SwapFunction} (hf : bitSwaps[n]? = some f)
    {s : Statement} (hs : s ∈ f.body) {kind : SwapKind} {record : String} {element : Element}
    (hcall : s.simple = .call kind record element) :
    ∃ m < n, ∃ g, bitSwaps[m]? = some g ∧ g.kind = kind ∧ g.record = record := by
  obtain ⟨plan, hplan, hrenders⟩ := getElem?_of_forall₂_right hbits hf
  obtain ⟨i, hi, hbefore⟩ := exists_of_getElem?_filterMap_id hplan
  have hi := Plans.bitSwap?_eq_some.2 hi
  obtain ⟨op, hop, hop'⟩ := exists_of_forall₂ hrenders.body hs
  obtain ⟨rfl, c, hc, rfl⟩ := hop'.call hcall
  have hc : c ∈ plan.calls := List.mem_filterMap.2 ⟨op, hop, hc⟩
  obtain ⟨target, htarget⟩ := Option.isSome_iff_exists.1 (h.linked.bitSwap_closed hi c hc)
  obtain ⟨m, hm, hmget⟩ := hbefore c.target (h.bitSwap_earlier hi c hc) target
    (Plans.bitSwap?_eq_some.1 htarget)
  obtain ⟨g, hg, hgrenders⟩ := getElem?_of_forall₂ hbits hmget
  exact ⟨m, hm, g, hg, hgrenders.kind, by rw [hgrenders.record, h.name_of_bitSwap? htarget]⟩

include hbytes hbits in
/-- The bit swap function that a byte swap function calls at its end is there. -/
theorem Plannable.own {f : SwapFunction} (hf : f ∈ byteSwaps) {s : Statement} (hs : s ∈ f.body)
    {record : String} (hcall : s.simple = .callOwn record) :
    record = f.record ∧ ∃ g ∈ bitSwaps, g.record = record := by
  obtain ⟨i, hi⟩ := List.mem_iff_getElem?.1 hf
  obtain ⟨plan, hplan, hrenders⟩ := getElem?_of_forall₂_right hbytes hi
  rcases hrenders.mem_body hs with ⟨e, he, part, hpart, hs⟩ | ⟨hcalls, rfl⟩
  · have := hpart.callsOwn hs
    simp [Statement.callsOwn, hcall] at this
  · cases hcall
    obtain ⟨l, hl, hname⟩ := Option.map_eq_some_iff.1 (planned_swaps p layouts i ▸ hplan)
    obtain ⟨plan', hplan', hown, -⟩ := h.linked.functions hl
    obtain rfl := Option.some.inj (hplan.symm.trans hplan')
    obtain ⟨bitPlan, hbit⟩ := Option.isSome_iff_exists.1 (hown.1 hcalls)
    obtain ⟨g, hg, hgrenders⟩ :=
      exists_of_forall₂ hbits.flip (Plans.mem_bitSwaps_iff.2 ⟨i, hbit⟩)
    have hgrenders : bitPlan.Renders p g := hgrenders
    refine ⟨hrenders.record.symm, g, hg, ?_⟩
    rw [hgrenders.record, h.name_of_bitSwap? hbit, h.nameAt hl, ← hname]
    rfl

/-- An embedded record is called by its own name. -/
theorem Plannable.named {i : Nat} {plan : SwapPlan}
    (hp : (p.planned layouts).swaps[i]? = some plan) {c : Call} (hc : c ∈ plan.calls) :
    (p.records[c.target]?).map Record.name = some (p.nameAt c.target) := by
  have hlt : c.target < (p.planned layouts).swaps.length :=
    Nat.lt_trans (h.byteSwap_earlier hp c hc) (List.getElem?_eq_some_iff.1 hp).1
  obtain ⟨l, hl, -⟩ := Option.map_eq_some_iff.1
    ((planned_swaps p layouts c.target).symm.trans (List.getElem?_eq_getElem hlt))
  obtain ⟨s, slots, hs, -⟩ := h.reads_of hl
  rw [Project.nameAt, hs]
  rfl

include hbytes hbits in
/-- Functions that follow the plans of a project call each other in order. -/
theorem Plannable.follows : (p.planned layouts).Follows p byteSwaps bitSwaps := by
  have hbyteNames : byteSwaps.map SwapFunction.record =
      (p.planned layouts).swaps.map SwapPlan.name :=
    map_eq_map_of_forall₂ (hbytes.flip.imp fun _ _ hf => SwapPlan.Renders.record hf)
  have hbitNames : bitSwaps.map SwapFunction.record =
      ((p.planned layouts).bitSwaps.filterMap id).map BitSwapPlan.name :=
    map_eq_map_of_forall₂ (hbits.flip.imp fun _ _ hf => BitSwapPlan.Renders.record hf)
  refine ⟨hbytes, hbits, ?_, ?_, fun f _ lines hlines => hlines.count,
    fun {i plan} hp c hc => ⟨h.byteSwap_earlier hp c hc, h.named hp hc⟩,
    fun {i plan} hp c hc => ⟨h.bitSwap_earlier hp c hc, ?_⟩, fun {n f} hf s hs => ?_,
    fun f hf s hs => h.own hbytes hbits hf hs⟩
  · rw [hbyteNames, swaps_map_name, h.map_name]
  · rw [hbitNames, ← h.map_name]
    exact bitSwaps_map_name p layouts
  · obtain ⟨swapPlan, hswap, hcalls⟩ := calls_of_bitSwap? hp
    exact h.named hswap (List.mem_of_mem_filter (hcalls ▸ hc))
  · intro kind record element hcall
    by_cases hn : n < byteSwaps.length
    · rw [List.getElem?_append_left hn] at hf
      obtain ⟨m, hm, g, hg, hkind, hrecord⟩ := h.byteCall_earlier hbytes hf hs hcall
      exact ⟨m, hm, g, by rw [List.getElem?_append_left (by omega), hg], hkind, hrecord⟩
    · rw [List.getElem?_append_right (by omega)] at hf
      obtain ⟨m, hm, g, hg, hkind, hrecord⟩ := h.bitCall_earlier hbits hf hs hcall
      refine ⟨byteSwaps.length + m, by omega, g, ?_, hkind, hrecord⟩
      rw [List.getElem?_append_right (by omega), Nat.add_sub_cancel_left, hg]

end

end Project

/-- **The swap source follows the plans.** Behind its fixed lines the source of a built project
consists of one byte swap function for each record and one bit swap function for each plan of one.
The bodies of both follow the plans, and the texts are those of the functions, statement by
statement. If names are distinct, there are layouts, and where there are, there are plans and a
text. -/
theorem Draft.sourceText_follows {d : Draft} {p : Project} (h : d.build = .ok p) :
    ((p.records.map Record.name).Nodup → ∃ layouts, p.layouts = .ok layouts) ∧
      ∀ layouts, p.layouts = .ok layouts → ∃ plans byteSwaps bitSwaps texts,
        Plans.ofLayouts p layouts = .ok plans ∧ plans.Follows p byteSwaps bitSwaps ∧
        List.Forall₂ SwapFunction.Reads (byteSwaps ++ bitSwaps) texts ∧
        ∀ banner baseName, sourceText p plans banner baseName =
          .ok (banner ++ "#include <byteswap.h>\n#include <string.h>\n" ++
            s!"#include \"{baseName}.h\"\n\n" ++ linesText helperLines ++
            String.join texts) := by
  refine ⟨fun hn => ?_, fun layouts hl => ?_⟩
  · obtain ⟨layouts, hlayouts, -⟩ := exists_layouts h hn
    exact ⟨layouts, hlayouts⟩
  · have hp := plannable h (layouts_read h hl)
    obtain ⟨byteSwaps, bitSwaps, texts, hbytes, hbits, hreads, htext⟩ :=
      Project.exists_sourceText (Project.layouts_counted hl)
    refine ⟨p.planned layouts, byteSwaps, bitSwaps, texts, hp.ofLayouts_eq,
      hp.follows hbytes hbits, hreads, fun banner baseName => ?_⟩
    rw [htext, sourcePrelude_eq]

/-- The two records of one name have a byte swap function each, the first one a bit swap function
besides. -/
theorem Draft.sourceText_follows_sample :
    Sample.homonyms.build = .ok Sample.homonymous ∧
      Sample.homonymous.layouts = .ok Sample.homonymousLayouts ∧ ∃ plans byteSwaps bitSwaps texts,
        Plans.ofLayouts Sample.homonymous Sample.homonymousLayouts = .ok plans ∧
        plans.Follows Sample.homonymous byteSwaps bitSwaps ∧
        byteSwaps.map SwapFunction.record = ["Cell", "Cell", "Stamp", "Frame"] ∧
        bitSwaps.map SwapFunction.record = ["Cell", "Stamp", "Frame"] ∧
        List.Forall₂ SwapFunction.Reads (byteSwaps ++ bitSwaps) texts ∧
        (∀ banner baseName, sourceText Sample.homonymous plans banner baseName =
          .ok (banner ++ "#include <byteswap.h>\n#include <string.h>\n" ++
            s!"#include \"{baseName}.h\"\n\n" ++ linesText helperLines ++
            String.join texts)) := by
  obtain ⟨-, htext⟩ := sourceText_follows Sample.homonyms_build
  obtain ⟨plans, byteSwaps, bitSwaps, texts, hplans, hfollows, hreads, htext⟩ :=
    htext _ Sample.homonymous_layouts
  have hnames : (Plans.ofLayouts Sample.homonymous Sample.homonymousLayouts).toOption.map
      (fun plans => (plans.bitSwaps.filterMap id).map BitSwapPlan.name) =
        some ["Cell", "Stamp", "Frame"] := by decide +kernel
  rw [hplans] at hnames
  have hbitNames : bitSwaps.map SwapFunction.record = ["Cell", "Stamp", "Frame"] :=
    (map_eq_map_of_forall₂ (hfollows.bitRenders.flip.imp fun _ _ hf =>
      BitSwapPlan.Renders.record hf)).trans (Option.some.inj hnames)
  exact ⟨Sample.homonyms_build, Sample.homonymous_layouts, plans, byteSwaps, bitSwaps, texts,
    hplans, hfollows, hfollows.byteNames, hbitNames, hreads, htext⟩

end RecordSwap
