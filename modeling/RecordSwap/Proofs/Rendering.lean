import RecordSwap.Generator
import RecordSwap.Proofs.Cycles
import RecordSwap.Proofs.SourceText

/-!
# Texts that can be made

When the texts of both files exist. The source of planned layouts always does, whatever project they
are of; the header does unless a comment would have to stand in a column that no line can be padded
to. The renderer of banner templates may be any.

* `Layout.Overlong`: a layout with such a column.
* `Layout.printed`: the lines of a declaration whose comments fit (`Layout.declarationLines_ok`).
* `exists_headerText`, `headerText_error`: the header without such a layout and with one.
* `Plans.exists_sourceText`: the source of any plans that layouts have been given.
* `Generator.TemplateFails`: the banner of a run cannot be rendered.
* `Generator.render_template`, `Generator.render_overlong`, `Generator.exists_render`: the three
  outcomes of rendering.
-/

namespace RecordSwap

open C

/-- A list of computations that can fail in one way only. -/
theorem mapM_eq_error {ε α β : Type} {l : List α} {f : α → Except ε β} {e : ε}
    (h : ∀ x ∈ l, (∃ y, f x = .ok y) ∨ f x = .error e) (hx : ∃ x ∈ l, f x = .error e) :
    l.mapM f = .error e := by
  cases hm : l.mapM f with
  | ok ys =>
    obtain ⟨x, hx, he⟩ := hx
    obtain ⟨y, -, hy⟩ := exists_of_forall₂ (forall₂_of_mapM hm).flip hx
    cases he.symm.trans hy
  | error e' =>
    obtain ⟨good, bad, rest, rfl, -, hbad⟩ := mapM_eq_error_iff.1 hm
    obtain ⟨y, hy⟩ | he := h bad (by simp)
    · cases hbad.symm.trans hy
    · cases hbad.symm.trans he
      rfl

/-! ## Columns -/

/-- The comments would start in a column that no line can be padded to. -/
def Layout.Overlong (l : Layout) : Prop := Text.columnLimit ≤ l.width

instance (l : Layout) : Decidable l.Overlong :=
  inferInstanceAs (Decidable (Text.columnLimit ≤ l.width))

theorem length_le_utf8ByteSize (s : String) : s.length ≤ s.utf8ByteSize := by
  induction s using String.push_induction with
  | empty => exact Nat.le_refl 0
  | push s c ih =>
    rw [String.length_push, String.utf8ByteSize_push]
    exact Nat.add_le_add ih c.utf8Size_pos

namespace Layout

/-- The comments stand to the right of the closing line, and so of the name in it. -/
theorem length_lt_columnWidth (name : String) (header : Bool) (fields : List FieldLayout) :
    name.length < columnWidth name header fields := by
  have hname : name.length ≤ (closingLine name).length := by
    simp only [closingLine, String.length_append]
    exact Nat.le_trans (Nat.le_add_left _ _) (Nat.le_add_right _ _)
  have hbytes : (closingLine name).utf8ByteSize < columnWidth name header fields :=
    (columnWidth_le_iff.1 (Nat.le_refl _)).1
  exact Nat.lt_of_le_of_lt (Nat.le_trans hname (length_le_utf8ByteSize _)) hbytes

variable {l : Layout}

theorem padColumn_ok (h : ¬ l.Overlong) (s : String) :
    Text.padColumn l.width s = .ok (Text.padRight l.width s) :=
  if_pos (Nat.lt_of_not_le h)

theorem padColumn_error (h : l.Overlong) (s : String) :
    Text.padColumn l.width s = .error .columnLimit :=
  if_neg (Nat.not_lt.2 h)

/-- A member line in a column that lines can be padded to. -/
def memberText (l : Layout) (declaration : String) (offset : Nat) (remark : String) : String :=
  Text.padRight l.width declaration ++ " /* [" ++ Text.padLeft 5 (toString offset) ++
    s!"] {remark} */"

theorem memberLine_ok (h : ¬ l.Overlong) (declaration : String) (offset : Nat) (remark : String) :
    memberLine l.width declaration offset remark =
      .ok (l.memberText declaration offset remark) := by
  rw [memberLine, padColumn_ok h]
  rfl

theorem memberLine_error (h : l.Overlong) (declaration : String) (offset : Nat) (remark : String) :
    memberLine l.width declaration offset remark = .error .columnLimit := by
  rw [memberLine, padColumn_error h]
  rfl

/-- The declaration of a record, line by line, in a column that lines can be padded to. -/
def printed (l : Layout) : List String :=
  l.openingLines ++
    (if l.header then headerMembers.map fun m => l.memberText m.declaration m.offset m.remark
      else []) ++
    (l.fields.map fun f => l.memberText f.declaration f.offset f.remark) ++
    [Text.padRight l.width (closingLine l.name) ++
      s!" /* Total size of {l.totalSize} bytes */"]

theorem declarationLines_ok (h : ¬ l.Overlong) : l.declarationLines = .ok l.printed := by
  have hheader : l.headerMemberLines = .ok (if l.header then
      headerMembers.map fun m => l.memberText m.declaration m.offset m.remark else []) := by
    unfold headerMemberLines
    split
    · exact Checked.mapM_eq_ok fun m _ => memberLine_ok h m.declaration m.offset m.remark
    · rfl
  rw [declarationLines, hheader, Checked.ok_bind,
    Checked.mapM_eq_ok fun f _ => memberLine_ok h f.declaration f.offset f.remark, Checked.ok_bind,
    totalLine, padColumn_ok h]
  rfl

/-- The first line that would have to be padded stops the declaration. -/
theorem declarationLines_error (h : l.Overlong) : l.declarationLines = .error .columnLimit := by
  cases hheader : l.header with
  | true =>
    rw [declarationLines, headerMemberLines, if_pos hheader, headerMembers, List.mapM_cons,
      memberLine_error h]
    rfl
  | false =>
    rw [declarationLines, headerMemberLines, if_neg (by simp [hheader]), Checked.pure_eq_ok,
      Checked.ok_bind]
    cases l.fields with
    | nil =>
      rw [totalLine, padColumn_error h]
      rfl
    | cons f fields =>
      rw [List.mapM_cons, memberLine_error h]
      rfl

end Layout

/-! ## The header -/

section
variable {p : Project} {layouts : List Layout} (banner baseName : String)

theorem exists_headerText (h : ∀ l ∈ layouts, ¬ l.Overlong) :
    ∃ text, headerText p layouts banner baseName = .ok text := by
  rw [headerText, Checked.mapM_eq_ok (g := fun l => l.printed ++ [""]) fun l hl => by
    rw [Layout.declarationLines_ok (h l hl)]
    rfl]
  exact ⟨_, rfl⟩

theorem headerText_error (h : ∃ l ∈ layouts, l.Overlong) :
    headerText p layouts banner baseName = .error .columnLimit := by
  have hlines : layouts.mapM (fun l => return (← l.declarationLines) ++ [""]) =
      (.error .columnLimit : Checked (List (List String))) := by
    refine mapM_eq_error (fun l _ => ?_) (h.imp fun l hl => ⟨hl.1, ?_⟩)
    · by_cases hl : l.Overlong
      · exact .inr (by rw [Layout.declarationLines_error hl]; rfl)
      · exact .inl ⟨_, by rw [Layout.declarationLines_ok hl]; rfl⟩
    · rw [Layout.declarationLines_error hl.2]
      rfl
  rw [headerText, hlines]
  rfl

end

/-! ## The source -/

theorem SwapPlan.planned?_extents {p : Project} {index : Nat} {f : FieldLayout} {e : SwapEntry}
    (h : planned? p index f = .ok (some e)) : e.extents = f.extents := by
  unfold planned? at h
  split at h
  · cases h
  · split at h
    · split at h <;> cases h
      rfl
    · cases h
      rfl

theorem SwapPlan.exists_field {p : Project} {index : Nat} {s : Record} {l : Layout}
    {plan : SwapPlan} (h : ofLayout p index s l = .ok plan) {e : SwapEntry}
    (he : e ∈ plan.entries) : ∃ f ∈ l.fields, e.extents = f.extents := by
  obtain ⟨entries, hentries, h⟩ := Checked.bind_eq_ok.1 h
  cases h
  obtain ⟨_, hmem, rfl⟩ := List.mem_filterMap.1 he
  obtain ⟨f, hf, hplanned⟩ := exists_of_forall₂ (forall₂_of_mapM hentries) hmem
  exact ⟨f, Layout.mem_of_mem_walk hf, planned?_extents hplanned⟩

/-- However the members are packed, the calls are those for the plain ones. -/
theorem BitSwapPlan.filterMap_call?_opsFrom {target? : FieldLayout → Option Nat}
    {groups : List UnitLayout} {packer : Packer} {entered : Option UnitLayout}
    {fields : List FieldLayout} {ops : List BitSwapOp}
    (h : opsFrom target? groups packer entered fields = .ok ops) :
    ops.filterMap BitSwapOp.call? = fields.filterMap (FieldLayout.call? target?) := by
  induction fields generalizing packer entered ops with
  | nil =>
    cases h
    exact filterMap_call?_close entered
  | cons f fields ih =>
    rw [opsFrom] at h
    split at h
    · next bits u hb _ =>
      have hcall : f.call? target? = none := by simp [FieldLayout.call?, hb]
      obtain ⟨⟨step, packer'⟩, -, h⟩ := Checked.bind_eq_ok.1 h
      rw [List.filterMap_cons_none hcall]
      cases step with
      | opened =>
        obtain ⟨rest, hrest, h⟩ := Checked.bind_eq_ok.1 h
        cases h
        have hreflect : (BitSwapOp.reflectInput u.offset u.byteSize).call? = none := rfl
        simp [filterMap_call?_close, hreflect, ih hrest]
      | merged shift =>
        obtain ⟨rest, hrest, h⟩ := Checked.bind_eq_ok.1 h
        cases h
        rw [List.filterMap_cons_none (call?_fieldOp f bits u), ih hrest]
    · next hb _ =>
      have hcall : f.call? target? = none := by simp [FieldLayout.call?, hb]
      rw [List.filterMap_cons_none hcall, ih h]
    · next hb =>
      obtain ⟨rest, hrest, h⟩ := Checked.bind_eq_ok.1 h
      cases ht : target? f with
      | some target =>
        rw [ht] at h
        cases h
        have hcall : f.call? target? =
            some ⟨f.name, target, f.extents, f.offset, f.elementSize⟩ := by
          simp [FieldLayout.call?, hb, ht]
        rw [List.filterMap_cons_some hcall, ← ih hrest]
        rfl
      | none =>
        rw [ht] at h
        cases h
        have hcall : f.call? target? = none := by simp [FieldLayout.call?, hb, ht]
        rw [List.filterMap_cons_none hcall, ih hrest]

theorem BitSwapPlan.exists_field {p : Project} {layouts : List Layout} {index : Nat} {s : Record}
    {l : Layout} {plan : BitSwapPlan} (h : ofLayout p layouts index s l = .ok (some plan)) {c : Call}
    (hc : c ∈ plan.calls) : ∃ f ∈ l.fields, c.extents = f.extents := by
  unfold ofLayout at h
  split at h
  · obtain ⟨ops, hops, h⟩ := Checked.bind_eq_ok.1 h
    cases h
    rw [calls, filterMap_call?_opsFrom hops, List.mem_filterMap] at hc
    obtain ⟨f, hf, hc⟩ := hc
    exact ⟨f, Layout.mem_of_mem_walk hf, congrArg Call.extents (FieldLayout.call?_eq_some hc).2.2⟩
  · cases h

/-- The source of planned layouts exists, whatever project they are of. -/
theorem Plans.exists_sourceText {p q : Project} {layouts : List Layout} {plans : Plans}
    (hc : ∀ l ∈ layouts, l.Counted) (h : ofLayouts p layouts = .ok plans)
    (banner baseName : String) : ∃ text, sourceText q plans banner baseName = .ok text := by
  obtain ⟨swaps, hswaps, h⟩ := Checked.bind_eq_ok.1 h
  obtain ⟨bitSwaps, hbitSwaps, h⟩ := Checked.bind_eq_ok.1 h
  cases h
  have hlayout {x : (Record × Layout) × Nat} (hx : x ∈ (p.records.zip layouts).zipIdx) :
      x.1.2 ∈ layouts := by
    have hx := List.mem_of_getElem? (List.mem_zipIdx_iff_getElem?.1 hx)
    exact (List.of_mem_zip hx).2
  have hbyte : ∀ plan ∈ swaps, ∀ e ∈ plan.entries,
      product e.extents = .ok (arrayLength e.extents) := by
    intro plan hp e he
    obtain ⟨x, hx, hplan⟩ := exists_of_forall₂ (forall₂_of_mapM hswaps) hp
    obtain ⟨f, hf, hext⟩ := SwapPlan.exists_field hplan he
    rw [hext]
    exact hc x.1.2 (hlayout hx) f hf
  have hbit : ∀ plan ∈ bitSwaps.filterMap id, ∀ c ∈ plan.calls,
      product c.extents = .ok (arrayLength c.extents) := by
    intro plan hp c hcall
    obtain ⟨_, hp, rfl⟩ := List.mem_filterMap.1 hp
    obtain ⟨x, hx, hplan⟩ := exists_of_forall₂ (forall₂_of_mapM hbitSwaps) hp
    obtain ⟨f, hf, hext⟩ := BitSwapPlan.exists_field hplan hcall
    rw [hext]
    exact hc x.1.2 (hlayout hx) f hf
  obtain ⟨-, bytes, hbytes, -⟩ :=
    exists_functionTexts fun plan hp => SwapPlan.exists_functionText q (hbyte plan hp)
  obtain ⟨-, bits, hbits, -⟩ :=
    exists_functionTexts fun plan hp => BitSwapPlan.exists_functionText q (hbit plan hp)
  rw [sourceText, hbytes, Checked.ok_bind, hbits]
  exact ⟨_, rfl⟩

/-! ## Generators -/

namespace Generator

variable [TemplateEngine] {p : Project} {options : Options} {g : Generator}

omit [TemplateEngine] in
theorem ofProject_eq_ok (h : ofProject p options = .ok g) :
    g.project = p ∧ g.options = options ∧ p.layouts = .ok g.layouts ∧
      Plans.ofLayouts p g.layouts = .ok g.plans := by
  unfold ofProject at h
  split at h
  · cases h
  · obtain ⟨layouts, hlayouts, h⟩ := bind_eq_ok_iff.1 h
    obtain ⟨plans, hplans, h⟩ := bind_eq_ok_iff.1 h
    cases h
    exact ⟨rfl, rfl, mapError_eq_ok.1 hlayouts, mapError_eq_ok.1 hplans⟩

/-- The banner of the run cannot be rendered: its template is wrong. -/
def TemplateFails (g : Generator) : Prop :=
  ∃ template, g.options.bannerTemplate = some template ∧
    TemplateEngine.render? template g.provenance.context = none

theorem bannerBy?_eq_none :
    g.provenance.bannerBy? g.options.bannerTemplate = none ↔ g.TemplateFails := by
  unfold TemplateFails
  cases g.options.bannerTemplate <;> simp [Provenance.bannerBy?]

theorem render_template (h : g.TemplateFails) : g.render = .error .template := by
  rw [render, bannerBy?_eq_none.2 h]
  rfl

theorem render_eq {banner : String}
    (h : g.provenance.bannerBy? g.options.bannerTemplate = some banner) :
    g.render = (do
      let header ← (headerText g.project g.layouts banner g.baseName).mapError GenerationError.fault
      let source ← (sourceText g.project g.plans banner g.baseName).mapError GenerationError.fault
      pure ⟨g.baseName, header, source⟩) := by
  rw [render, h]
  rfl

theorem render_overlong (ht : ¬ g.TemplateFails) (h : ∃ l ∈ g.layouts, l.Overlong) :
    g.render = .error (.fault .columnLimit) := by
  obtain ⟨banner, hb⟩ := Option.ne_none_iff_exists'.1 (mt bannerBy?_eq_none.1 ht)
  rw [render_eq hb, headerText_error banner g.baseName h]
  rfl

theorem exists_render (hg : ofProject p options = .ok g) (ht : ¬ g.TemplateFails)
    (h : ∀ l ∈ g.layouts, ¬ l.Overlong) :
    ∃ artifacts, g.render = .ok artifacts ∧ artifacts.baseName = g.baseName := by
  obtain ⟨banner, hb⟩ := Option.ne_none_iff_exists'.1 (mt bannerBy?_eq_none.1 ht)
  obtain ⟨-, -, hlayouts, hplans⟩ := ofProject_eq_ok hg
  obtain ⟨header, hheader⟩ := exists_headerText (p := g.project) banner g.baseName h
  obtain ⟨source, hsource⟩ := Plans.exists_sourceText (q := g.project)
    (Project.layouts_counted hlayouts) hplans banner g.baseName
  refine ⟨⟨g.baseName, header, source⟩, ?_, rfl⟩
  rw [render_eq hb, hheader, hsource]
  rfl

end Generator

end RecordSwap
