import Mathlib.Data.List.Perm.Basic
import RecordSwap.Proofs.Drafts
import RecordSwap.Proofs.Placing
import RecordSwap.Proofs.Renaming

/-!
# The order of the records of a draft

Records can be given in any order. It decides where a record stands among the others, and so which
index it is called by, but nothing else.

* `Draft.Reorders`: drafts with the same records in another order. Both fail for the same reason, or
  the same records are built, each with the same placement (`Draft.Reorders.build`).
* `Project.Reordered`: such projects. A record has one layout in both (`layout_eq`), and the one
  project is the other with its records at other places (`renames`).
* `Project.Matches`: what is the same for projects with reordered records.
* `Draft.build_reordered`: the statement about drafts.
-/

namespace RecordSwap

/-- Drafts with the same records in another order. -/
structure Draft.Reorders (d d' : Draft) : Prop where
  types : d'.types = d.types
  dataStreams : d'.dataStreams = d.dataStreams
  records : d'.allRecords.Perm d.allRecords

/-- Projects that hold the same records in another order, with the same placements. -/
structure Project.Reordered (p p' : Project) : Prop where
  dataStreams : p'.dataStreams = p.dataStreams
  records : p'.records.Perm p.records
  nodup : (p.records.map Record.name).Nodup
  types : TypeTable.AgreeOff [] p'.types p.types
  placements : List.Forall₂ (Placement.Settled p.types) p.records p.placements
  placements' : List.Forall₂ (Placement.Settled p.types) p'.records p'.placements
  diagnostics : p'.diagnostics.Perm p.diagnostics

/-! ## Building -/

namespace Draft.Reorders

variable {d d' : Draft} (h : d.Reorders d')
include h

theorem kept : d'.kept.Perm d.kept := h.records.filter _

theorem emptyReports : d'.emptyReports.Perm d.emptyReports := (h.records.filter _).map _

/-- Both drafts fail for the same reason, or the same records are built. -/
theorem build (hd : (d.allRecords.map Record.name).Nodup) :
    (∃ name name', d.build = .error (.cyclicReference name) ∧
        d'.build = .error (.cyclicReference name')) ∨
      (∃ e e', d.build = .error (.fault e) ∧ d'.build = .error (.fault e')) ∨
      ∃ p p', d.build = .ok p ∧ d'.build = .ok p' ∧ p.Reordered p' := by
  have hkept : (d.kept.map Record.name).Nodup := hd.sublist (List.filter_sublist.map Record.name)
  have hiff := Record.order_isOk_perm hkept h.kept
  cases ho : Record.order d.kept with
  | error name =>
    cases ho' : Record.order d'.kept with
    | error name' => exact .inl ⟨name, name', build_of_cycle ho, build_of_cycle ho'⟩
    | ok out' =>
      obtain ⟨out, hout⟩ := hiff.1 ⟨out', ho'⟩
      cases ho.symm.trans hout
  | ok out =>
    obtain ⟨out', ho'⟩ := hiff.2 ⟨out, ho⟩
    have hp := Record.order_perm ho
    have hperm : out'.Perm out := (Record.order_perm ho').trans (h.kept.trans hp.symm)
    have hout : (out.map Record.name).Nodup := (hp.map Record.name).nodup_iff.2 hkept
    have hs := Record.order_sequenced ho hout
    have hs' := Record.order_sequenced ho' ((hperm.map Record.name).nodup_iff.2 hout)
    refine .inr ?_
    cases hplaced : Placed.ofRecords d.types out with
    | error e =>
      cases hplaced' : Placed.ofRecords d'.types out' with
      | error e' => exact .inl ⟨e, e', build_of_fault ho hplaced, build_of_fault ho' hplaced'⟩
      | ok placed' =>
        obtain ⟨placed, hok, -⟩ := Placed.ofRecords_perm hs' hs hperm.symm hplaced'
        rw [h.types] at hok
        cases hplaced.symm.trans hok
    | ok placed =>
      obtain ⟨placed', hplaced', hsame⟩ := Placed.ofRecords_perm hs hs' hperm hplaced
      rw [← h.types] at hplaced'
      exact .inr ⟨_, _, build_of_ok ho hplaced, build_of_ok ho' hplaced', h.dataStreams, hperm,
        hout, hsame.types, hsame.placements, hsame.placements',
        h.emptyReports.append hsame.diagnostics⟩

end Draft.Reorders

/-! ## Records and names -/

namespace Project

variable {p : Project} {name : String} {i : Nat}

theorem nameAt_of_index? (h : p.index? name = some i) : p.nameAt i = name := by
  obtain ⟨s, hs, hname⟩ := exists_of_index? h
  rw [nameAt, hs, ← hname]
  rfl

/-- A layout that the project makes of a record, wherever the record stands. -/
def LaysOut (p : Project) (s : Record) (l : Layout) : Prop :=
  ∃ placement, Placement.Settled p.types s placement ∧ Layout.ofRecord p s placement = .ok l

theorem rightUnique_laysOut (p : Project) : Relator.RightUnique p.LaysOut := by
  rintro s l l' ⟨placement, hplaced, hl⟩ ⟨placement', hplaced', hl'⟩
  obtain rfl := Except.ok.inj (hplaced.placed.symm.trans hplaced'.placed)
  exact Except.ok.inj (hl.symm.trans hl')

end Project

/-! ## Reordered projects -/

namespace Project.Reordered

variable {p p' : Project} (h : p.Reordered p')
include h

theorem layout (s : Record) (placement : Placement) :
    Layout.ofRecord p' s placement = Layout.ofRecord p s placement := by
  have hsize : p'.types.sizeOf = p.types.sizeOf :=
    funext fun name => h.types.sizeOf List.not_mem_nil
  rw [Layout.ofRecord, Layout.ofRecord, hsize, h.dataStreams]

theorem names : (p'.records.map Record.name).Perm (p.records.map Record.name) :=
  h.records.map Record.name

section
variable {layouts layouts' : List Layout} (hl : p.layouts = .ok layouts)
  (hl' : p'.layouts = .ok layouts')
include hl hl'

theorem laysOut : List.Forall₂ p.LaysOut p.records layouts ∧
    List.Forall₂ p.LaysOut p'.records layouts' := by
  refine ⟨forall₂_of_zip_mapM h.placements hl,
    (forall₂_of_zip_mapM h.placements' hl').imp fun s l hs => ?_⟩
  obtain ⟨placement, hplaced, hof⟩ := hs
  exact ⟨placement, hplaced, h.layout s placement ▸ hof⟩

theorem layouts_perm : layouts'.Perm layouts := by
  obtain ⟨hall, hall'⟩ := h.laysOut hl hl'
  exact List.rel_perm_imp p.rightUnique_laysOut hall' hall h.records

/-- A record has one layout in both projects. -/
theorem layout_eq {name : String} {i j : Nat} (hi : p.index? name = some i)
    (hj : p'.index? name = some j) :
    ∃ l, layouts[i]? = some l ∧ layouts'[j]? = some l := by
  obtain ⟨s, hs, hname⟩ := exists_of_index? hi
  obtain ⟨s', hs', hname'⟩ := exists_of_index? hj
  -- the record of a name is the same one in both projects
  obtain rfl : s' = s :=
    List.inj_on_of_nodup_map h.nodup (h.records.subset (List.mem_of_getElem? hs'))
      (List.mem_of_getElem? hs) (hname'.trans hname.symm)
  obtain ⟨hall, hall'⟩ := h.laysOut hl hl'
  obtain ⟨l, hget, hof⟩ := getElem?_of_forall₂ hall hs
  obtain ⟨l', hget', hof'⟩ := getElem?_of_forall₂ hall' hs'
  obtain rfl := p.rightUnique_laysOut hof hof'
  exact ⟨l, hget, hget'⟩

/-- The one project is the other one with its records at other places. -/
theorem renames : p.Renames (fun i => (p'.index? (p.nameAt i)).getD 0) p' layouts layouts' := by
  have hindex : ∀ {name : String} {i : Nat}, p.index? name = some i →
      p'.index? name = some ((p'.index? (p.nameAt i)).getD 0) := by
    intro name i hi
    rw [nameAt_of_index? hi]
    cases hj : p'.index? name with
    | some j => rfl
    | none =>
      rw [index?_eq_none, h.names.mem_iff, ← index?_eq_none, hi] at hj
      cases hj
  refine ⟨fun name => h.types.category? List.not_mem_nil, fun name => ?_, fun {name i} hi => ?_⟩
  · cases hi : p.index? name with
    | some i => exact hindex hi
    | none => rwa [index?_eq_none, ← h.names.mem_iff, ← index?_eq_none] at hi
  · obtain ⟨l, hget, hget'⟩ := h.layout_eq hl hl' hi (hindex hi)
    rw [hget, hget']

theorem diagnostics_perm :
    (p'.planned layouts').diagnostics.Perm (p.planned layouts).diagnostics := by
  have hunswapped : p'.unswapped? = p.unswapped? := by
    funext record f
    rw [unswapped?, unswapped?, h.types.category? List.not_mem_nil]
  rw [planned, planned, hunswapped]
  exact (h.layouts_perm hl hl').flatMap_right _

end

end Project.Reordered

/-! ## Drafts -/

/-- What is the same for two projects that hold the same records in another order. -/
structure Project.Matches (p p' : Project) (layouts layouts' : List Layout)
    (plans plans' : Plans) : Prop where
  names : ∀ name, (p'.index? name).isSome = (p.index? name).isSome
  layout : ∀ {name : String} {i j : Nat}, p.index? name = some i → p'.index? name = some j →
    ∃ l, layouts[i]? = some l ∧ layouts'[j]? = some l
  byteSwap : ∀ {name : String} {i j : Nat}, p.index? name = some i → p'.index? name = some j →
    ∀ direction image, plans'.byteSwap direction j image = plans.byteSwap direction i image
  bitSwap : ∀ {name : String} {i j : Nat}, p.index? name = some i → p'.index? name = some j →
    ∀ direction image, plans'.bitSwap direction j image = plans.bitSwap direction i image
  generated : ∀ options, (Generator.ofProject p options = .error .inputAbsent ∧
      Generator.ofProject p' options = .error .inputAbsent) ∨
    ∃ g g', Generator.ofProject p options = .ok g ∧ Generator.ofProject p' options = .ok g' ∧
      g.layouts = layouts ∧ g'.layouts = layouts' ∧ g.plans = plans ∧ g'.plans = plans' ∧
      g'.diagnostics.Perm g.diagnostics

theorem Project.Reordered.matches {p p' : Project} (h : p.Reordered p')
    {layouts layouts' : List Layout} (hl : p.layouts = .ok layouts)
    (hl' : p'.layouts = .ok layouts') (hp : p.Plannable layouts) (hp' : p'.Plannable layouts') :
    p.Matches p' layouts layouts' (p.planned layouts) (p'.planned layouts') := by
  have hr := h.renames hl hl'
  have hindex : ∀ {name : String} {i j : Nat}, p.index? name = some i → p'.index? name = some j →
      (p'.index? (p.nameAt i)).getD 0 = j := fun hi hj => by
    rw [nameAt_of_index? hi, hj]
    rfl
  refine ⟨fun name => by rw [hr.index, Option.isSome_map], h.layout_eq hl hl', ?_, ?_, ?_⟩
  · intro name i j hi hj direction image
    rw [← hindex hi hj]
    exact hr.byteSwap_eq hp hp' direction hi image
  · intro name i j hi hj direction image
    rw [← hindex hi hj]
    exact hr.bitSwap_eq hp hp' direction hi image
  · intro options
    have hempty : p'.records = [] ↔ p.records = [] := by
      rw [← List.length_eq_zero_iff, ← List.length_eq_zero_iff, h.records.length_eq]
    rw [Generator.ofProject_eq options hl hp.ofLayouts_eq,
      Generator.ofProject_eq options hl' hp'.ofLayouts_eq]
    by_cases hnil : p.records = []
    · rw [if_pos hnil, if_pos (hempty.2 hnil)]
      exact .inl ⟨rfl, rfl⟩
    · rw [if_neg hnil, if_neg fun hnil' => hnil (hempty.1 hnil')]
      exact .inr ⟨_, _, rfl, rfl, rfl, rfl, rfl, rfl,
        h.diagnostics.append (h.diagnostics_perm hl hl')⟩

/-- **Reordered records.** Records with distinct names can be given in any order: a cycle, or a size
that does not fit its word, is met in each of them or in none; otherwise projects are built in which
a record has the same layout and the same conversions, and the same is reported. -/
theorem Draft.build_reordered {d d' : Draft} (h : d.Reorders d')
    (hd : (d.allRecords.map Record.name).Nodup) :
    (∃ name name', d.build = .error (.cyclicReference name) ∧
        d'.build = .error (.cyclicReference name')) ∨
      (∃ e e', d.build = .error (.fault e) ∧ d'.build = .error (.fault e')) ∨
      ∃ p p', d.build = .ok p ∧ d'.build = .ok p' ∧ ∃ layouts layouts' plans plans',
        p.layouts = .ok layouts ∧ p'.layouts = .ok layouts' ∧
        Plans.ofLayouts p layouts = .ok plans ∧ Plans.ofLayouts p' layouts' = .ok plans' ∧
        p.Matches p' layouts layouts' plans plans' := by
  rcases h.build hd with hcycle | hfault | ⟨p, p', hp, hp', hre⟩
  · exact .inl hcycle
  · exact .inr (.inl hfault)
  · obtain ⟨layouts, hl, hall⟩ := exists_layouts hp hre.nodup
    obtain ⟨layouts', hl', hall'⟩ := exists_layouts hp' (hre.names.nodup_iff.2 hre.nodup)
    have hplan := plannable hp (hall.imp fun _ _ hof => hof.reads)
    have hplan' := plannable hp' (hall'.imp fun _ _ hof => hof.reads)
    exact .inr (.inr ⟨p, p', hp, hp', layouts, layouts', _, _, hl, hl', hplan.ofLayouts_eq,
      hplan'.ofLayouts_eq, hre.matches hl hl' hplan hplan'⟩)

namespace Sample

/-- The draft of four records in another order. -/
def shuffled : Draft where
  records := [point, status, packet, track]

end Sample

/-- The record at index 1 stands at index 2 if the records are given in another order. -/
theorem Draft.build_reordered_sample :
    Sample.draft.Reorders Sample.shuffled ∧ ∃ p' layouts' plans plans',
      Sample.shuffled.build = .ok p' ∧ p'.layouts = .ok layouts' ∧
      Plans.ofLayouts Sample.project Sample.layouts = .ok plans ∧
      Plans.ofLayouts p' layouts' = .ok plans' ∧
      Sample.project.Matches p' Sample.layouts layouts' plans plans' := by
  have hreorders : Sample.draft.Reorders Sample.shuffled := by
    refine ⟨rfl, rfl, ?_⟩
    decide
  refine ⟨hreorders, ?_⟩
  rcases build_reordered hreorders (by decide) with ⟨name, -, hcycle, -⟩ | ⟨e, -, hfault, -⟩ |
    ⟨p, p', hp, hp', layouts, layouts', plans, plans', hl, hl', hplans, hplans', hmatches⟩
  · cases Sample.draft_build.symm.trans hcycle
  · cases Sample.draft_build.symm.trans hfault
  · obtain rfl := Except.ok.inj (Sample.draft_build.symm.trans hp)
    obtain rfl := Except.ok.inj (Sample.project_layouts.symm.trans hl)
    exact ⟨p', layouts', plans, plans', hp', hl', hplans, hplans', hmatches⟩

end RecordSwap
