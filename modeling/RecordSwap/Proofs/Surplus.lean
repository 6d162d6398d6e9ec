import Mathlib.Logic.Relation
import RecordSwap.Generator
import RecordSwap.Proofs.Planning

/-!
# Surplus rows

Rows of array elements and rows that repeat a name declare no member. Inserting them anywhere
changes nothing in what is made of the records.

* `Record.Inserts`: one surplus row is inserted. It leaves the declared rows as they are
  (`declaredAfter_insert`), and so does any number of them (`Record.alike_of_inserts`).
* `Record.Alike`, `Project.Alike`: records, and projects, that differ in surplus rows alone. Each
  step from the records to the two files gives the same for both.
* `Draft.build_surplus`: the statement about drafts, with any renderer of banner templates.
-/

namespace RecordSwap

/-! ## Lists that correspond -/

section
variable {α β γ ε : Type} {R : α → β → Prop} {l : List α} {l' : List β}

theorem map_eq_of_forall₂ (h : List.Forall₂ R l l') {f : α → γ} {g : β → γ}
    (hfg : ∀ {x y}, R x y → f x = g y) : l.map f = l'.map g := by
  induction h with
  | nil => rfl
  | cons hR _ ih => rw [List.map_cons, List.map_cons, hfg hR, ih]

theorem mapM_eq_of_forall₂ (h : List.Forall₂ R l l') {f : α → Except ε γ} {g : β → Except ε γ}
    (hfg : ∀ {x y}, R x y → f x = g y) : l.mapM f = l'.mapM g := by
  induction h with
  | nil => rfl
  | cons hR _ ih => rw [List.mapM_cons, List.mapM_cons, hfg hR, ih]

theorem getElem?_cases (h : List.Forall₂ R l l') (i : Nat) :
    (l[i]? = none ∧ l'[i]? = none) ∨ ∃ x y, l[i]? = some x ∧ l'[i]? = some y ∧ R x y := by
  induction h generalizing i with
  | nil => exact .inl ⟨rfl, rfl⟩
  | @cons x y _ _ hR _ ih =>
    cases i with
    | zero => exact .inr ⟨x, y, rfl, rfl, hR⟩
    | succ i => exact ih i

theorem zip_rel (h : List.Forall₂ R l l') (k : List γ) :
    List.Forall₂ (fun x y => R x.1 y.1 ∧ x.2 = y.2) (l.zip k) (l'.zip k) := by
  induction h generalizing k with
  | nil => exact .nil
  | cons hR _ ih =>
    cases k with
    | nil => exact .nil
    | cons z k => exact .cons ⟨hR, rfl⟩ (ih k)

end

/-! ## Rows -/

theorem Row.isElement_congr {r r' : Row} (h : r.name = r'.name) : r.isElement = r'.isElement := by
  unfold isElement
  rw [h]

/-- A row that declares no member where it stands can be left out. -/
theorem Record.declaredAfter_insert {seen : List String} {before : List Row} {r : Row}
    (h : r.isElement ∨ r.name ∈ before.map Row.name ∨ r.name ∈ seen) (after : List Row) :
    declaredAfter seen (before ++ r :: after) = declaredAfter seen (before ++ after) := by
  induction before generalizing seen with
  | nil =>
    have hskip : (r.isElement || seen.contains r.name) = true := by simpa using h
    rw [List.nil_append, declaredAfter, if_pos hskip, List.nil_append]
  | cons x before ih =>
    rw [List.map_cons, List.mem_cons] at h
    rw [List.cons_append, List.cons_append, declaredAfter, declaredAfter]
    split
    · next hx =>
      -- a row of the same name as one that is skipped would be skipped in its place
      refine ih ?_
      rcases h with h | (h | h) | h
      · exact .inl h
      · simp only [Bool.or_eq_true, List.contains_eq_mem, decide_eq_true_eq] at hx
        rw [Row.isElement_congr h, h]
        exact hx.imp_right .inr
      · exact .inr (.inl h)
      · exact .inr (.inr h)
    · congr 1
      refine ih ?_
      rcases h with h | (h | h) | h
      · exact .inl h
      · exact .inr (.inr (h ▸ .head _))
      · exact .inr (.inl h)
      · exact .inr (.inr (.tail _ h))

namespace Record

/-- A row is inserted behind the first `k` rows. -/
def insertRow (s : Record) (k : Nat) (r : Row) : Record :=
  { s with rows := s.rows.take k ++ r :: s.rows.drop k }

/-- A row of an array element, or one that repeats the name of an earlier row, is inserted. -/
inductive Inserts : Record → Record → Prop
  | row {s : Record} (k : Nat) {r : Row} :
      (r.isElement ∨ r.name ∈ (s.rows.take k).map Row.name) → Inserts s (s.insertRow k r)

/-- Records that differ in surplus rows alone. -/
structure Alike (s s' : Record) : Prop where
  rest : s' = { s with rows := s'.rows }
  declared : s'.declared = s.declared

namespace Alike

variable {s s' s'' : Record}

theorem refl (s : Record) : s.Alike s := ⟨rfl, rfl⟩

theorem trans (h : s.Alike s') (h' : s'.Alike s'') : s.Alike s'' :=
  ⟨by rw [h'.rest, h.rest], h'.declared.trans h.declared⟩

theorem name (h : s.Alike s') : s'.name = s.name := by rw [h.rest]

theorem description (h : s.Alike s') : s'.description = s.description := by rw [h.rest]

theorem system (h : s.Alike s') : s'.system = s.system := by rw [h.rest]

theorem hasHeader (h : s.Alike s') : s'.hasHeader = s.hasHeader := by rw [h.rest]; rfl

theorem headerSize (h : s.Alike s') : s'.headerSize = s.headerSize := by rw [h.rest]; rfl

end Alike

theorem Inserts.alike {s s' : Record} (h : s.Inserts s') : s.Alike s' := by
  cases h with
  | row k hr =>
    refine ⟨rfl, ?_⟩
    rw [declared, insertRow, declaredAfter_insert (hr.imp_right .inl), List.take_append_drop]
    rfl

theorem alike_of_inserts {s s' : Record} (h : Relation.ReflTransGen Inserts s s') : s.Alike s' := by
  induction h with
  | refl => exact .refl s
  | tail _ hstep ih => exact ih.trans hstep.alike

end Record

/-! ## Ordering and placing -/

namespace Record

section
variable {R : Record → Record → Prop}
  (hR : ∀ {s s' : Record}, R s s' → s'.name = s.name ∧ s'.declared = s.declared)
  {records records' : List Record} (h : List.Forall₂ R records records')
include hR h

theorem map_name_congr : records'.map name = records.map name :=
  (map_eq_of_forall₂ h fun hs => (hR hs).1.symm).symm

theorem lastIndex?_congr (name : String) : lastIndex? records' name = lastIndex? records name := by
  have hnames (records : List Record) : lastIndex? records name =
      ((List.range records.length).zip (records.map Record.name)).reverse.findSome? fun (i, n) =>
        if n = name then some i else none := by
    rw [lastIndex?, List.zip_map_right, ← List.map_reverse, List.findSome?_map]
    rfl
  rw [hnames, hnames, map_name_congr hR h, h.length_eq]

theorem needs_congr : needs records' = needs records := by
  funext index
  have hrow : lastIndex? records' = lastIndex? records := funext (lastIndex?_congr hR h)
  unfold needs
  rcases getElem?_cases h index with ⟨hs, hs'⟩ | ⟨s, s', hs, hs', hss⟩
  · rw [hs, hs']
  · simp only [hs, hs', hrow, (hR hss).2]

/-- Records with the same names and declared rows are ordered in the same way. -/
theorem order_congr : (∃ e, order records = .error e ∧ order records' = .error e) ∨
    ∃ out out', order records = .ok out ∧ order records' = .ok out' ∧ List.Forall₂ R out out' := by
  unfold order
  rw [needs_congr hR h, ← h.length_eq]
  cases Dependency.sort (needs records) records.length with
  | error node =>
    refine .inl ⟨_, rfl, ?_⟩
    simp only [← List.getElem?_map, map_name_congr hR h]
  | ok nodes =>
    refine .inr ⟨_, _, rfl, rfl, List.rel_filterMap (R := Eq) ?_ (List.forall₂_refl nodes)⟩
    rintro node _ rfl
    change Option.Rel R records[node]? records'[node]?
    rcases getElem?_cases h node with ⟨hs, hs'⟩ | ⟨s, s', hs, hs', hss⟩
    · rw [hs, hs']
      exact .none
    · rw [hs, hs']
      exact .some hss

end

theorem Alike.members {s s' : Record} (h : s.Alike s') :
    s'.name = s.name ∧ s'.declared = s.declared :=
  ⟨h.name, h.declared⟩

end Record

namespace Record.Alike

variable {s s' : Record} (h : s.Alike s')
include h

theorem placement (types : TypeTable) :
    Placement.ofRecord types s' = Placement.ofRecord types s := by
  rw [Placement.ofRecord, Placement.ofRecord, h.declared]

theorem unknownTypes (types : TypeTable) :
    Placement.unknownTypes types s' = Placement.unknownTypes types s := by
  rw [Placement.unknownTypes, Placement.unknownTypes, h.declared, h.name]

/-- A pass skips surplus rows. -/
theorem walk (l : Layout) : l.walk [] s'.rows = l.walk [] s.rows := by
  rw [l.walk_eq, l.walk_eq, ← Record.declared, ← Record.declared, h.declared]

end Record.Alike

theorem Placed.ofRecords_alike {records records' : List Record}
    (h : List.Forall₂ Record.Alike records records') (types : TypeTable) :
    ofRecords types records' = ofRecords types records := by
  induction h generalizing types with
  | nil => rfl
  | cons hs _ ih =>
    simp only [ofRecords, hs.placement, hs.headerSize, hs.name, hs.unknownTypes, ih]

/-! ## Projects -/

/-- Projects that differ in surplus rows alone. -/
structure Project.Alike (p p' : Project) : Prop where
  rest : p' = { p with records := p'.records }
  records : List.Forall₂ Record.Alike p.records p'.records

namespace Project.Alike

variable {p p' : Project} (h : p.Alike p')
include h

theorem types : p'.types = p.types := by rw [h.rest]

theorem placements : p'.placements = p.placements := by rw [h.rest]

theorem dataStreams : p'.dataStreams = p.dataStreams := by rw [h.rest]

theorem diagnostics : p'.diagnostics = p.diagnostics := by rw [h.rest]

theorem map_name : p'.records.map Record.name = p.records.map Record.name :=
  Record.map_name_congr Record.Alike.members h.records

theorem index? : p'.index? = p.index? := Project.index?_congr h.map_name

theorem layout {s s' : Record} (hs : s.Alike s') (placement : Placement) :
    Layout.ofRecord p' s' placement = Layout.ofRecord p s placement := by
  simp only [Layout.ofRecord, hs.headerSize, hs.declared, hs.name, hs.description, hs.hasHeader,
    h.types, h.dataStreams]

theorem layouts : p'.layouts = p.layouts := by
  unfold Project.layouts
  rw [h.placements]
  refine (mapM_eq_of_forall₂ (zip_rel h.records p.placements) ?_).symm
  rintro ⟨s, placement⟩ ⟨s', _⟩ ⟨hs, rfl⟩
  exact (h.layout hs placement).symm

theorem embedded? : p'.embedded? = p.embedded? := by
  funext f
  rw [Project.embedded?, Project.embedded?, h.types, h.index?]

theorem unswapped? : p'.unswapped? = p.unswapped? := by
  funext record f
  rw [Project.unswapped?, Project.unswapped?, h.types]

theorem swapPlan {s s' : Record} (hs : s.Alike s') (index : Nat) (l : Layout) :
    SwapPlan.ofLayout p' index s' l = SwapPlan.ofLayout p index s l := by
  have hstrategy : p'.strategy? = p.strategy? := by
    funext f
    rw [strategy?, strategy?, h.types, h.embedded?]
  have hplanned : SwapPlan.planned? p' = SwapPlan.planned? p := by
    funext index f
    rw [SwapPlan.planned?, SwapPlan.planned?, hstrategy]
  simp only [SwapPlan.ofLayout, hplanned, hs.walk, hs.name]

theorem bitSwapPlan {s s' : Record} (hs : s.Alike s') (layouts : List Layout) (index : Nat)
    (l : Layout) :
    BitSwapPlan.ofLayout p' layouts index s' l = BitSwapPlan.ofLayout p layouts index s l := by
  have htarget : BitSwapPlan.target? p' = BitSwapPlan.target? p := by
    funext layouts f
    rw [BitSwapPlan.target?, BitSwapPlan.target?, h.embedded?]
  simp only [BitSwapPlan.ofLayout, htarget, hs.walk, hs.name]

theorem zip_records (layouts : List Layout) :
    List.Forall₂ (fun x x' => (x.1.1.Alike x'.1.1 ∧ x.1.2 = x'.1.2) ∧ x.2 = x'.2)
      (p.records.zip layouts).zipIdx (p'.records.zip layouts).zipIdx := by
  have hzip := zip_rel h.records layouts
  rw [List.zipIdx_eq_zip_range', List.zipIdx_eq_zip_range', hzip.length_eq]
  exact zip_rel hzip _

theorem swapsOf (layouts : List Layout) : Plans.swapsOf p' layouts = Plans.swapsOf p layouts := by
  refine (mapM_eq_of_forall₂ (h.zip_records layouts) ?_).symm
  rintro ⟨⟨s, l⟩, index⟩ ⟨⟨s', _⟩, _⟩ ⟨⟨hs, rfl⟩, rfl⟩
  exact (h.swapPlan hs index l).symm

theorem bitSwapsOf (layouts : List Layout) :
    Plans.bitSwapsOf p' layouts = Plans.bitSwapsOf p layouts := by
  refine (mapM_eq_of_forall₂ (h.zip_records layouts) ?_).symm
  rintro ⟨⟨s, l⟩, index⟩ ⟨⟨s', _⟩, _⟩ ⟨⟨hs, rfl⟩, rfl⟩
  exact (h.bitSwapPlan hs layouts index l).symm

theorem reports (layouts : List Layout) : Plans.reports p' layouts = Plans.reports p layouts := by
  unfold Plans.reports
  rw [List.flatMap_def, List.flatMap_def, h.unswapped?]
  refine (congrArg List.flatten (map_eq_of_forall₂ (zip_rel h.records layouts) ?_)).symm
  rintro ⟨s, l⟩ ⟨s', _⟩ ⟨hs, rfl⟩
  have hs : s.Alike s' := hs
  simp only [hs.walk, hs.name]

theorem plans (layouts : List Layout) : Plans.ofLayouts p' layouts = Plans.ofLayouts p layouts := by
  rw [Plans.ofLayouts, Plans.ofLayouts, h.swapsOf, h.bitSwapsOf, h.reports]

theorem roots : List.Forall₂ Record.Alike p.roots p'.roots := by
  have hembedded : (p'.records.flatMap fun s => s.declared.map Row.dataType) =
      p.records.flatMap fun s => s.declared.map Row.dataType := by
    rw [List.flatMap_def, List.flatMap_def]
    exact congrArg List.flatten (map_eq_of_forall₂ h.records fun hs => by rw [hs.declared]).symm
  unfold Project.roots
  rw [hembedded]
  refine List.rel_filter ?_ h.records
  intro s s' hs
  simp only [hs.name]

theorem systemName : p'.systemName = p.systemName := by
  have hfirst : p'.roots.head?.bind Record.system = p.roots.head?.bind Record.system := by
    rw [List.head?_eq_getElem?, List.head?_eq_getElem?]
    rcases getElem?_cases h.roots 0 with ⟨hs, hs'⟩ | ⟨s, s', hs, hs', halike⟩
    · rw [hs, hs']
    · rw [hs, hs']
      exact halike.system
  unfold Project.systemName
  rw [hfirst, show p'.system = p.system by rw [h.rest]]

theorem nameAt : p'.nameAt = p.nameAt := by
  funext index
  unfold Project.nameAt
  rw [← List.getElem?_map, ← List.getElem?_map, h.map_name]

theorem headerText : RecordSwap.headerText p' = RecordSwap.headerText p := by
  funext layouts banner baseName
  rw [RecordSwap.headerText, RecordSwap.headerText, h.types, show p'.includes = p.includes by
    rw [h.rest]]

theorem sourceText : RecordSwap.sourceText p' = RecordSwap.sourceText p := by
  have hentry : SwapEntry.statements p' = SwapEntry.statements p := by
    funext e
    simp only [SwapEntry.statements, SwapEntry.simple?, h.nameAt]
  have hop : BitSwapOp.statement p' = BitSwapOp.statement p := by
    funext op
    cases op <;> simp only [BitSwapOp.statement, h.nameAt]
  funext plans banner baseName
  simp only [RecordSwap.sourceText, SwapPlan.functionText, SwapPlan.statements,
    BitSwapPlan.functionText, BitSwapPlan.statements, hentry, hop]

end Project.Alike

/-! ## Generators -/

section
variable [TemplateEngine]

/-- All that is made of a project. -/
structure Generator.Output where
  layouts : List Layout
  plans : Plans
  diagnostics : List Diagnostic
  artifacts : Except GenerationError Artifacts

def Generator.output (g : Generator) : Output := ⟨g.layouts, g.plans, g.diagnostics, g.render⟩

theorem Project.Alike.output {p p' : Project} (h : p.Alike p') (options : Options)
    (layouts : List Layout) (plans : Plans) :
    Generator.output ⟨p', options, layouts, plans⟩ =
      Generator.output ⟨p, options, layouts, plans⟩ := by
  have hbase : p'.baseName = p.baseName := by rw [baseName, baseName, h.systemName]
  have hgroups : p'.groups = p.groups := by rw [h.rest]
  have hname : p'.name = p.name := by rw [h.rest]
  simp only [Generator.output, Generator.diagnostics, Generator.render, Generator.provenance,
    Generator.baseName, h.diagnostics, h.headerText, h.sourceText, hbase, hgroups, hname,
    h.map_name]

theorem Project.Alike.generated {p p' : Project} (h : p.Alike p') (options : Options) :
    (Generator.ofProject p' options).map Generator.output =
      (Generator.ofProject p options).map Generator.output := by
  have hempty : p'.records.isEmpty = p.records.isEmpty := by
    rw [← List.isEmpty_map (f := Record.name), h.map_name, List.isEmpty_map]
  unfold Generator.ofProject
  rw [hempty, h.layouts]
  split
  · rfl
  · cases p.layouts with
    | error e => rfl
    | ok layouts =>
      change ((Plans.ofLayouts p' layouts).mapError _ >>= fun plans => .ok _).map _ =
        ((Plans.ofLayouts p layouts).mapError _ >>= fun plans => .ok _).map _
      rw [h.plans]
      cases Plans.ofLayouts p layouts with
      | error e => rfl
      | ok plans => exact congrArg Except.ok (h.output options layouts plans)

end

/-! ## Drafts -/

/-- Any number of surplus rows is inserted into the records of a draft. -/
structure Draft.Inserts (d d' : Draft) : Prop where
  rest : d' = { d with records := d'.records, rows := d'.rows }
  records : List.Forall₂ (Relation.ReflTransGen Record.Inserts) d.allRecords d'.allRecords

namespace Draft.Inserts

variable {d d' : Draft} (h : d.Inserts d')
include h

theorem allRecords : List.Forall₂ Record.Alike d.allRecords d'.allRecords :=
  h.records.imp fun _ _ hs => Record.alike_of_inserts hs

theorem kept : List.Forall₂ Record.Alike d.kept d'.kept := by
  refine List.rel_filter ?_ h.allRecords
  intro s s' hs
  simp only [hs.declared]

theorem emptyReports : d'.emptyReports = d.emptyReports := by
  have hempty : List.Forall₂ Record.Alike (d.allRecords.filter (·.declared.isEmpty))
      (d'.allRecords.filter (·.declared.isEmpty)) := by
    refine List.rel_filter ?_ h.allRecords
    intro s s' hs
    simp only [hs.declared]
  exact (map_eq_of_forall₂ hempty fun hs => by rw [hs.name]).symm

/-- Both drafts fail with the same error, or projects are built that differ in surplus rows. -/
theorem build : (∃ e, d.build = .error e ∧ d'.build = .error e) ∨
    ∃ p p', d.build = .ok p ∧ d'.build = .ok p' ∧ p.Alike p' := by
  have htypes : d'.types = d.types := by rw [h.rest]
  rcases Record.order_congr Record.Alike.members h.kept with ⟨e, he, he'⟩ | ⟨out, out', ho, ho', hout⟩
  · exact .inl ⟨_, build_of_cycle he, build_of_cycle he'⟩
  · have hplaced : Placed.ofRecords d'.types out' = Placed.ofRecords d.types out := by
      rw [htypes, Placed.ofRecords_alike hout]
    cases hp : Placed.ofRecords d.types out with
    | error e => exact .inl ⟨_, build_of_fault ho hp, build_of_fault ho' (hplaced.trans hp)⟩
    | ok placed =>
      refine .inr ⟨_, _, build_of_ok ho hp, build_of_ok ho' (hplaced.trans hp), ?_, hout⟩
      rw [projectOf, projectOf, h.emptyReports, h.rest]

end Draft.Inserts

/-- Projects of which the same is made, whatever renders the template of the banner. -/
structure Project.SameOutput (p p' : Project) : Prop where
  layouts : p'.layouts = p.layouts
  plans : ∀ layouts, Plans.ofLayouts p' layouts = Plans.ofLayouts p layouts
  diagnostics : p'.diagnostics = p.diagnostics
  generated : ∀ [TemplateEngine] (options : Options),
    (Generator.ofProject p' options).map Generator.output =
      (Generator.ofProject p options).map Generator.output

/-- **Surplus rows.** Rows of array elements, and rows that repeat a name, can be inserted anywhere
into the records of a draft: it fails with the same error, or a project is built of which the same
is made. A pass over all the rows of a record comes to the members of its layout then. -/
theorem Draft.build_surplus {d d' : Draft} (h : d.Inserts d') :
    (∃ e, d.build = .error e ∧ d'.build = .error e) ∨
      ∃ p p', d.build = .ok p ∧ d'.build = .ok p' ∧ p.SameOutput p' ∧
        ∀ layouts, p'.layouts = .ok layouts →
          List.Forall₂ (fun s l => l.walk [] s.rows = l.fields) p'.records layouts := by
  rcases h.build with herror | ⟨p, p', hp, hp', halike⟩
  · exact .inl herror
  · refine .inr ⟨p, p', hp, hp',
      ⟨halike.layouts, halike.plans, halike.diagnostics, halike.generated⟩, fun layouts hl => ?_⟩
    refine (layouts_read hp' hl).imp fun s l hread => ?_
    obtain ⟨slots, hread⟩ := hread
    exact hread.walk_eq

namespace Sample

/-- The draft of four records with two more rows: one of an array element, and one between two
bit-fields that would embed the record in itself if it declared a member. -/
def repeated : Draft :=
  { draft with
    records := [
      (packet.insertRow 1 { name := "parts[1]", dataType := "Status", offset := some 2 }).insertRow
        4 { name := "time", dataType := "Packet", extents := [3] },
      status, track, point] }

end Sample

theorem Draft.build_surplus_sample :
    Sample.draft.Inserts Sample.repeated ∧ ∃ p', Sample.repeated.build = .ok p' ∧
      Sample.project.SameOutput p' ∧ p'.layouts = .ok Sample.layouts := by
  have hinserts : Sample.draft.Inserts Sample.repeated := by
    refine ⟨rfl, .cons (.tail (.single (.row 1 (.inl rfl))) (.row 4 (.inr ?_)))
      (List.forall₂_refl _)⟩
    decide
  refine ⟨hinserts, ?_⟩
  rcases build_surplus hinserts with ⟨e, he, -⟩ | ⟨p, p', hp, hp', hsame, -⟩
  · cases Sample.draft_build.symm.trans he
  · obtain rfl := Except.ok.inj (Sample.draft_build.symm.trans hp)
    exact ⟨p', hp', hsame, hsame.layouts.trans Sample.project_layouts⟩

end RecordSwap
