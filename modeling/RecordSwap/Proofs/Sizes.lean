import RecordSwap.Proofs.Files

/-!
# Sizes across a project

The type table, the layouts and the plans of a project look its records up by name in different
ways. They agree on the sizes if each name stands for one thing only.

* `Row.EmbeddedAs`: what the layout and the plan of a record say about a member that embeds another.
* `Project.SizesAgree`: what it means for the sizes of a project to agree.
* `Draft.sizesAgree`: they agree in every built project with distinct names, none of which is that
  of a primitive.
* `ProjectFile.sizes_agree`: the statement about files. Neither condition on the names can be left
  out (`ProjectFile.sizes_disagree`).
-/

namespace RecordSwap

/-- The layout and the plan of a record agree that the member of a row embeds the record at
`target`, and that its elements take `size` bytes. -/
structure Row.EmbeddedAs (r : Row) (l : Layout) (plan : SwapPlan) (target size : Nat) : Prop where
  laidOut : ∃ f, l.field? r.name = some f ∧ f.elementSize = size
  planned : ∃ e ∈ plan.entries, e.name = r.name
  entries : ∀ e ∈ plan.entries, e.name = r.name →
    e.strategy = .nested target ∧ e.elementSize = size

/-- The records of a project have distinct names, and the type table, the layouts and the plans have
one size for each of them. -/
structure Project.SizesAgree (p : Project) (layouts : List Layout) (plans : Plans) : Prop where
  distinct : (p.records.map Record.name).Nodup
  noted : ∀ {i : Nat} {s : Record}, p.records[i]? = some s →
    ∃ l, layouts[i]? = some l ∧ p.types.sizeOf? s.name = some l.totalSize
  embedded : ∀ {i j : Nat} {s t : Record} {l inner : Layout} {plan : SwapPlan},
    p.records[i]? = some s → layouts[i]? = some l → plans.swaps[i]? = some plan →
    p.records[j]? = some t → layouts[j]? = some inner →
    ∀ r ∈ s.declared, r.bitField? = none → r.dataType = t.name →
      r.EmbeddedAs l plan j inner.totalSize

theorem Layout.Of.sizeOf? {p : Project} {s : Record} {l : Layout} (h : l.Of p s)
    (hs : p.types.primitive? s.name = none) : p.types.sizeOf? s.name = some l.totalSize := by
  rw [TypeTable.sizeOf?, hs, h.noted]

theorem Row.EmbeddedAs.of_member {p : Project} {s : Record} {slots : List Slot} {l : Layout}
    (index : Nat) (h : l.Reads p.types.sizeOf s slots) {f : FieldLayout} (hf : f ∈ l.fields)
    {r : Row} (hshows : f.Shows r) (hb : r.bitField? = none) {target size : Nat}
    (ht : p.embedded? f = some target) (hsize : f.elementSize = size) :
    r.EmbeddedAs l (p.swapPlan index l) target size := by
  have hentry := Project.entry?_eq_some (Project.strategy?_nested (hshows.2.2.2.trans hb) ht)
  obtain ⟨he, hname⟩ := (Project.mem_entries_iff p index h.nodup_names hf).2 hentry
  refine ⟨⟨f, hshows.1 ▸ Layout.field?_eq_some h.nodup_names hf, hsize⟩,
    ⟨_, he, hname.trans hshows.1⟩, fun e he hname => ?_⟩
  have he := (Project.mem_entries_iff p index h.nodup_names hf).1 ⟨he, hname.trans hshows.1.symm⟩
  cases hentry.symm.trans he
  exact ⟨rfl, hsize⟩

/-- The sizes of a built project agree if each name stands for one thing only. -/
theorem Draft.sizesAgree {d : Draft} {p : Project} (h : d.build = .ok p) (hn : p.WellNamed) :
    ∃ layouts plans, p.layouts = .ok layouts ∧ Plans.ofLayouts p layouts = .ok plans ∧
      p.SizesAgree layouts plans := by
  obtain ⟨layouts, hlayouts, hall⟩ := exists_layouts h hn.nodup
  have hp := plannable h (hall.imp fun _ _ hof => hof.reads)
  refine ⟨layouts, p.planned layouts, hlayouts, hp.ofLayouts_eq, hn.nodup, ?_, ?_⟩
  · intro i s hs
    obtain ⟨l, hl, hof⟩ := getElem?_of_forall₂ hall hs
    exact ⟨l, hl, hof.sizeOf? (hn.apart s (List.mem_of_getElem? hs))⟩
  · intro i j s t l inner plan hs hl hplan ht hinner r hr hb htype
    obtain ⟨_, slots, hl', hread, rfl⟩ := hp.exists_layout hs hplan
    obtain rfl := Option.some.inj (hl.symm.trans hl')
    obtain ⟨_, hinner', hof⟩ := getElem?_of_forall₂ hall ht
    obtain rfl := Option.some.inj (hinner.symm.trans hinner')
    obtain ⟨f, hf, hshows⟩ := hread.exists_field hr
    have hname : f.dataType = t.name := hshows.2.1.trans htype
    have hsize : f.elementSize = inner.totalSize := by
      rw [hread.elementSize_eq hf, hname, TypeTable.sizeOf,
        hof.sizeOf? (hn.apart t (List.mem_of_getElem? ht)), Option.getD_some]
    have hembedded : p.embedded? f = some j :=
      hn.embedded?_eq hall hinner (hname.trans hof.describes.name.symm)
    exact .of_member i hread hf hshows hb hembedded hsize

/-! ## Files -/

/-- **Sizes of a file.** The records of a project have distinct names exactly if those records of
its file have that declare a member. If besides no type has the name of such a record, the type
table, the layouts and the plans agree on the size of each record. -/
theorem ProjectFile.sizes_agree {f : ProjectFile} {p : Project} (h : f.toProject = .ok p) :
    ((p.records.map Record.name).Nodup ↔
        ((f.records.filter RecordEntry.declares).map RecordEntry.name).Nodup) ∧
      (f.WellNamed → ∃ layouts plans, p.layouts = .ok layouts ∧
        Plans.ofLayouts p layouts = .ok plans ∧ p.SizesAgree layouts plans) := by
  obtain ⟨d, hd, hp⟩ := toProject_eq_ok h
  exact ⟨(names_perm hd hp).nodup_iff, fun hn => Draft.sizesAgree hp ((wellNamed_iff hd hp).2 hn)⟩

namespace Sample

/-- A file with a record that declares nothing besides one of the same name, a type of its own, and
a table of records. -/
def shelf : ProjectFile where
  dataTypes := [⟨"uint24", "unsigned int", 3, .unsignedInteger⟩]
  records := [
    { name := "Shelf", messageId := some "0x1805", rows := [
      { name := "count", dataType := "uint16" },
      { name := "boxes", dataType := "Box", arraySize := some (.list [2, 3]) }] },
    { name := "Box", rows := [{ name := "code[0]", dataType := "uint8" }] },
    { name := "Box", rows := [{ name := "code", dataType := "uint24" }] }]

/-- The project that is read from it. -/
def shelfProject : Project where
  name := "typeswap"
  system := none
  dataStreams := []
  includes := []
  groups := []
  records := [
    { name := "Box", rows := [{ owner := "Box", name := "code", dataType := "uint24" }] },
    { name := "Shelf", messageId := some "0x1805", rows := [
      { owner := "Shelf", name := "count", dataType := "uint16" },
      { owner := "Shelf", name := "boxes", dataType := "Box", extents := [2, 3] }] }]
  placements := [⟨[("code", 0)], 3⟩, ⟨[("count", 0), ("boxes", 2)], 20⟩]
  types := (shelf.types.defineRecord "Box" 3).defineRecord "Shelf" 32
  diagnostics := [⟨"Box", "", .emptyRecord⟩]

theorem shelf_toProject : shelf.toProject = .ok shelfProject := by decide +kernel

/-- A file with two records of one name, and a record that embeds that name. -/
def twins : ProjectFile where
  records := [
    { name := "Twin", rows := [{ name := "a", dataType := "uint8" }] },
    { name := "Twin", rows := [{ name := "b", dataType := "uint16" }] },
    { name := "Pair", rows := [{ name := "twin", dataType := "Twin" }] }]

/-- The project that is read from it. -/
def twinProject : Project where
  name := "typeswap"
  system := none
  dataStreams := []
  includes := []
  groups := []
  records := [
    { name := "Twin", rows := [{ owner := "Twin", name := "a", dataType := "uint8" }] },
    { name := "Twin", rows := [{ owner := "Twin", name := "b", dataType := "uint16" }] },
    { name := "Pair", rows := [{ owner := "Pair", name := "twin", dataType := "Twin" }] }]
  placements := [⟨[("a", 0)], 1⟩, ⟨[("b", 0)], 2⟩, ⟨[("twin", 0)], 2⟩]
  types := ((TypeTable.builtin.defineRecord "Twin" 1).defineRecord "Twin" 2).defineRecord "Pair" 2
  diagnostics := []

theorem twins_toProject : twins.toProject = .ok twinProject := by decide +kernel

/-- A file with a record that has the name of a built-in type. -/
def letter : ProjectFile where
  records := [{ name := "char", rows := [{ name := "code", dataType := "uint32" }] }]

/-- The project that is read from it. -/
def letterProject : Project where
  name := "typeswap"
  system := none
  dataStreams := []
  includes := []
  groups := []
  records := [
    { name := "char", rows := [{ owner := "char", name := "code", dataType := "uint32" }] }]
  placements := [⟨[("code", 0)], 4⟩]
  types := TypeTable.builtin.defineRecord "char" 4
  diagnostics := []

theorem letter_toProject : letter.toProject = .ok letterProject := by decide +kernel

end Sample

/-- The boxes of a shelf have one size. -/
theorem ProjectFile.sizes_agree_sample :
    Sample.shelf.toProject = .ok Sample.shelfProject ∧ Sample.shelf.WellNamed ∧ ∃ layouts plans,
      Sample.shelfProject.layouts = .ok layouts ∧
      Plans.ofLayouts Sample.shelfProject layouts = .ok plans ∧
      Sample.shelfProject.SizesAgree layouts plans := by
  have hn : Sample.shelf.WellNamed := by decide +kernel
  exact ⟨Sample.shelf_toProject, hn, (sizes_agree Sample.shelf_toProject).2 hn⟩

/-- The sizes that were laid out, against one that the type table has. -/
theorem Project.SizesAgree.mem_sizes {p : Project} {layouts : List Layout} {plans : Plans}
    (h : p.SizesAgree layouts plans) {s : Record} (hs : s ∈ p.records) :
    ∃ size ∈ layouts.map Layout.totalSize, p.types.sizeOf? s.name = some size := by
  obtain ⟨i, hi⟩ := List.mem_iff_getElem?.1 hs
  obtain ⟨l, hl, hsize⟩ := h.noted hi
  exact ⟨_, List.mem_map_of_mem (List.mem_of_getElem? hl), hsize⟩

/-- Files without types of their own in which sizes do not agree: two records share a name, and a
record has the name of a built-in type. -/
theorem ProjectFile.sizes_disagree :
    (Sample.twins.validate = .ok () ∧ Sample.twins.dataTypes = [] ∧
      Sample.twins.toProject = .ok Sample.twinProject ∧
      Sample.twinProject.layouts.map (List.map Layout.totalSize) = .ok [1, 2, 2] ∧
      Sample.twinProject.types.sizeOf? "Twin" = some 2 ∧
      ∀ layouts plans, ¬ Sample.twinProject.SizesAgree layouts plans) ∧
    Sample.letter.validate = .ok () ∧ Sample.letter.dataTypes = [] ∧
      Sample.letter.toProject = .ok Sample.letterProject ∧
      ∀ layouts plans, Sample.letterProject.layouts = .ok layouts →
        ¬ Sample.letterProject.SizesAgree layouts plans := by
  refine ⟨⟨by decide +kernel, rfl, Sample.twins_toProject, by decide +kernel, by decide +kernel,
    fun layouts plans h => absurd h.distinct (by decide +kernel)⟩, by decide +kernel, rfl,
    Sample.letter_toProject, fun layouts plans hlayouts h => ?_⟩
  have hsizes : Sample.letterProject.layouts.map (List.map Layout.totalSize) = .ok [4] := by
    decide +kernel
  have hchar : Sample.letterProject.types.sizeOf? "char" = some 1 := by decide +kernel
  obtain ⟨size, hsize, hnoted⟩ := h.mem_sizes (List.mem_singleton.2 rfl)
  rw [hlayouts] at hsizes
  rw [Except.ok.inj hsizes, List.mem_singleton] at hsize
  subst hsize
  cases hchar.symm.trans hnoted

end RecordSwap
