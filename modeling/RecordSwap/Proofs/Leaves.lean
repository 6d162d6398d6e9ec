import Mathlib.Logic.Relation
import RecordSwap.Proofs.Embedding

/-!
# Scalar leaves

The byte swap of a record without bit-fields reverses the bytes of its scalar leaves, at any depth,
and does nothing else.

* `Project.Within`: the records that are reached through members and array elements, at their
  absolute offsets. `Project.Leaf`: the scalar elements of these records;
  `FieldLayout.swapWidth?` is the number of bytes to reverse in them.
* `Project.Embeds`, `Project.Plain`: records that neither have nor embed bit-fields.
* `Project.Sound.part_within`: an embedded record, at any depth, is converted as it is alone.
* `Project.Sound.step_of_byteSteps`: each step of the byte swap reverses a leaf.
* `Draft.byteSwap_leaves`: the statement about built projects.
-/

namespace RecordSwap

/-- Number of bytes that are reversed in each element of a member, if its type has a category and a
size that are swapped. -/
def FieldLayout.swapWidth? (p : Project) (f : FieldLayout) : Option Nat :=
  (p.types.category? f.dataType).bind fun category =>
    (Strategy.select? category f.elementSize).bind Strategy.width?

namespace Project

/-- `Within p layouts index start target`: the record at `target` starts at `start` in the record at
`index`, as an element of a member of this record or of one that it embeds, or is this record. -/
inductive Within (p : Project) (layouts : List Layout) : Nat → Nat → Nat → Prop
  | self (index : Nat) : Within p layouts index 0 index
  | inner {index middle target e start : Nat} {l : Layout} {f : FieldLayout} :
      layouts[index]? = some l → f ∈ l.fields → f.bitLength = none →
      p.embedded? f = some middle → e < arrayLength f.extents →
      Within p layouts middle start target →
      Within p layouts index (f.offset + e * f.elementSize + start) target

/-- `Leaf p layouts index start f`: an element of the scalar member `f`, of the record at `index` or
of one that it embeds, starts at `start` in this record. -/
inductive Leaf (p : Project) (layouts : List Layout) (index : Nat) : Nat → FieldLayout → Prop
  | element {target base e : Nat} {l : Layout} {f : FieldLayout} :
      Within p layouts index base target → layouts[target]? = some l → f ∈ l.fields →
      f.bitLength = none → p.embedded? f = none → e < arrayLength f.extents →
      Leaf p layouts index (base + (f.offset + e * f.elementSize)) f

/-- The record at `i` has a member that embeds the one at `j`. -/
def Embeds (p : Project) (layouts : List Layout) (i j : Nat) : Prop :=
  ∃ l, layouts[i]? = some l ∧ ∃ f ∈ l.fields, f.bitLength = none ∧ p.embedded? f = some j

/-- Neither the record at `index` nor one that it embeds, directly or through others, has a
bit-field. -/
def Plain (p : Project) (layouts : List Layout) (index : Nat) : Prop :=
  ∀ j, Relation.ReflTransGen (p.Embeds layouts) index j →
    ∀ l, layouts[j]? = some l → ∀ f ∈ l.fields, f.bitLength = none

/-- What the byte swap of a record without bit-fields does to an image. -/
structure Reversed (p : Project) (layouts : List Layout) (index : Nat) (image converted : Image) :
    Prop where
  length : converted.length = image.length
  /-- A leaf that has a swap is reversed. -/
  swapped : ∀ {start : Nat} {f : FieldLayout} {width : Nat}, p.Leaf layouts index start f →
    f.swapWidth? p = some width →
    converted.part ⟨start, width⟩ = (image.part ⟨start, width⟩).reverse
  /-- Any other leaf stays as it is. -/
  kept : ∀ {start : Nat} {f : FieldLayout}, p.Leaf layouts index start f →
    f.swapWidth? p = none →
    converted.part ⟨start, f.elementSize⟩ = image.part ⟨start, f.elementSize⟩
  /-- So do the protocol headers at every depth, -/
  headers : ∀ {start target : Nat} {inner : Layout}, p.Within layouts index start target →
    layouts[target]? = some inner →
    converted.part ⟨start, inner.headerSize⟩ = image.part ⟨start, inner.headerSize⟩
  /-- the bytes past the end of the record, -/
  past : ∀ {l : Layout} {k : Nat}, layouts[index]? = some l → l.totalSize ≤ k →
    converted[k]? = image[k]?
  /-- and all other bytes. -/
  other : ∀ {k : Nat}, (∀ start f width, p.Leaf layouts index start f →
    f.swapWidth? p = some width → k ∉ (⟨start, width⟩ : Span)) → converted[k]? = image[k]?

variable {p : Project} {layouts : List Layout}

theorem Leaf.inner {index target start e : Nat} {l : Layout} {f g : FieldLayout}
    (h : p.Leaf layouts target start g) (hl : layouts[index]? = some l) (hf : f ∈ l.fields)
    (hb : f.bitLength = none) (ht : p.embedded? f = some target) (he : e < arrayLength f.extents) :
    p.Leaf layouts index (f.offset + e * f.elementSize + start) g := by
  cases h with
  | element hin hl' hf' hb' ht' he' =>
    rw [← Nat.add_assoc]
    exact .element (.inner hl hf hb ht he hin) hl' hf' hb' ht' he'

theorem Plain.inner {i j : Nat} (h : p.Plain layouts i) (he : p.Embeds layouts i j) :
    p.Plain layouts j := fun k hk => h k (.head he hk)

theorem Plain.within {index start target : Nat} (h : p.Plain layouts index)
    (hin : p.Within layouts index start target) : p.Plain layouts target := by
  induction hin with
  | self => exact h
  | inner hl hf hb hm _ _ ih => exact ih (h.inner ⟨_, hl, _, hf, hb, hm⟩)

theorem Plain.fields {index : Nat} {l : Layout} (h : p.Plain layouts index)
    (hl : layouts[index]? = some l) : ∀ f ∈ l.fields, f.bitLength = none :=
  h index .refl l hl

theorem swapWidth?_eq {f : FieldLayout} {width : Nat} (h : f.swapWidth? p = some width) :
    width = f.elementSize := by
  obtain ⟨category, -, h⟩ := Option.bind_eq_some_iff.1 h
  obtain ⟨strategy, hs, hw⟩ := Option.bind_eq_some_iff.1 h
  exact Strategy.width?_of_select? hs hw

theorem runSteps_wordStep {width : Nat} {image : Image} (h : image.length = width) :
    runSteps [wordStep width] image = image.reverse := by
  have hle : (wordStep width).span.start + (wordStep width).span.size ≤ image.length := by
    simp [wordStep, h]
  have hpart := Step.part_run hle
  simp only [wordStep] at hpart ⊢
  rw [Image.part_self h, Image.part_self (by simp [h])] at hpart
  exact hpart

theorem byteElement_scalar {inner : Nat → List Step} {f : FieldLayout} (hb : f.bitLength = none)
    (ht : p.embedded? f = none) :
    p.byteElement inner f = ((f.swapWidth? p).map wordStep).toList := by
  rw [byteElement, ht, strategy?_scalar hb ht, FieldLayout.swapWidth?]
  simp only
  cases p.types.category? f.dataType with
  | none => rfl
  | some category =>
    simp only [Option.bind_some]
    cases Strategy.select? category f.elementSize with
    | none => rfl
    | some strategy =>
      simp only [Option.elim_some, Option.bind_some, scalarSteps]
      cases strategy.width? <;> rfl

theorem Plain.hasBitFields {index : Nat} {l : Layout} (hp : p.Plain layouts index)
    (h : p.Plannable layouts) (hl : layouts[index]? = some l) : l.hasBitFields = false := by
  rw [← h.any_isSome hl, List.any_eq_false]
  intro f hf
  simp [hp.fields hl f hf]

theorem Plain.spansDisjoint {index : Nat} {l : Layout} (hp : p.Plain layouts index)
    (h : p.Plannable layouts) (hl : layouts[index]? = some l)
    (hd : l.memberSpans.Pairwise Span.Disjoint) : l.SpansDisjoint := by
  have hnone := hp.hasBitFields h hl
  rw [Layout.hasBitFields, Bool.not_eq_false', List.isEmpty_iff] at hnone
  rwa [Layout.SpansDisjoint, Layout.spans, Layout.unitSpans, hnone, List.map_nil, List.append_nil]

namespace Sound

variable (h : p.Sound layouts)
include h

/-- A record that is reached ends within the record. -/
theorem within_le {index base target : Nat} (hin : p.Within layouts index base target)
    {l inner : Layout} (hl : layouts[index]? = some l) (ht : layouts[target]? = some inner) :
    base + inner.totalSize ≤ l.totalSize := by
  induction hin generalizing l with
  | self index =>
    obtain rfl := Option.some.inj (hl.symm.trans ht)
    omega
  | @inner index middle target e start l' f hl' hf hb hm he _ ih =>
    obtain rfl := Option.some.inj (hl'.symm.trans hl)
    obtain ⟨pieces, hc⟩ := h.consists l' (List.mem_of_getElem? hl)
    have hq := hc.member_mem hf hb
    obtain ⟨-, m, hmid, hsize⟩ := h.embeds_member hl hc hq hm
    have hend := hc.element_le hq he
    have := ih hmid ht
    omega

theorem leaf_le {index start : Nat} {g : FieldLayout} (hleaf : p.Leaf layouts index start g)
    {l : Layout} (hl : layouts[index]? = some l) : start + g.elementSize ≤ l.totalSize := by
  cases hleaf with
  | @element target base e inner f hin hinner hf hb ht he =>
    obtain ⟨pieces, hc⟩ := h.consists inner (List.mem_of_getElem? hinner)
    have hend := hc.element_le (hc.member_mem hf hb) he
    have := h.within_le hin hl hinner
    omega

/-- The leaves of a record stand behind its protocol header. -/
theorem headerSize_le_leaf {index start : Nat} {g : FieldLayout}
    (hleaf : p.Leaf layouts index start g) {l : Layout} (hl : layouts[index]? = some l) :
    l.headerSize ≤ start := by
  have hbefore := (h.headerFirst l (List.mem_of_getElem? hl)).before
  cases hleaf with
  | element hin hl' hf hb ht he =>
    cases hin with
    | self =>
      obtain rfl := Option.some.inj (hl'.symm.trans hl)
      have := hbefore g hf
      omega
    | inner hl'' hf' =>
      obtain rfl := Option.some.inj (hl''.symm.trans hl)
      have := hbefore _ hf'
      omega

/-- Each step of the byte swap of a record without bit-fields reverses a leaf. -/
theorem step_of_byteSteps (direction : Direction) {index : Nat} {l : Layout}
    (hl : layouts[index]? = some l) (hp : p.Plain layouts index) {s : Step}
    (hs : s ∈ (p.planned layouts).byteSteps direction index) :
    ∃ start g width, p.Leaf layouts index start g ∧ g.swapWidth? p = some width ∧
      s = ⟨⟨start, width⟩, .reverse⟩ := by
  induction index using Nat.strongRecOn generalizing l s with
  | ind index ih =>
    obtain ⟨pieces, hc⟩ := h.consists l (List.mem_of_getElem? hl)
    rw [h.byteSteps_eq direction hl hc, hp.hasBitFields h.toPlannable hl, if_neg Bool.false_ne_true,
      List.append_nil, List.mem_flatMap] at hs
    obtain ⟨q, hq, hs⟩ := hs
    cases q with
    | unit u fs => exact absurd hs List.not_mem_nil
    | member f =>
      obtain ⟨e, he, t, ht, rfl⟩ := mem_elements.1 hs
      have hf : f ∈ l.fields := hc.fields ▸ List.mem_flatMap.2 ⟨_, hq, .head _⟩
      have hb := hp.fields hl f hf
      cases hemb : p.embedded? f with
      | none =>
        rw [byteElement_scalar hb hemb, Option.mem_toList, Option.map_eq_some_iff] at ht
        obtain ⟨width, hw, rfl⟩ := ht
        have hleaf := Leaf.element (.self index) hl hf hb hemb he
        rw [Nat.zero_add] at hleaf
        exact ⟨_, f, width, hleaf, hw, rfl⟩
      | some target =>
        obtain ⟨hlt, inner, hinner, -⟩ := h.embeds_member hl hc hq hemb
        rw [byteElement, hemb] at ht
        obtain ⟨start, g, width, hleaf, hw, rfl⟩ :=
          ih target hlt hinner (hp.inner ⟨l, hl, f, hf, hb, hemb⟩) ht
        exact ⟨_, g, width, hleaf.inner hl hf hb hemb he, hw, rfl⟩

section
variable (hd : ∀ l ∈ layouts, l.memberSpans.Pairwise Span.Disjoint) (direction : Direction)

theorem part_header {index : Nat} {l : Layout} (hp : p.Plain layouts index)
    (hl : layouts[index]? = some l) (image : Image) :
    (runSteps ((p.planned layouts).byteSteps direction index) image).part ⟨0, l.headerSize⟩ =
      image.part ⟨0, l.headerSize⟩ := by
  refine Image.Agree.part_eq fun k hk => getElem?_runSteps_of_not_mem image fun s hs hm => ?_
  obtain ⟨start, g, width, hleaf, -, rfl⟩ := h.step_of_byteSteps direction hl hp hs
  exact absurd (Nat.le_trans (h.headerSize_le_leaf hleaf hl) hm.1)
    (Nat.not_le.2 (Span.mem_mk_zero.1 hk))

include hd

/-- The byte swap of a record without bit-fields, seen from one element of a member. -/
theorem part_element_plain {index : Nat} {l : Layout} (hp : p.Plain layouts index)
    (hl : layouts[index]? = some l) {f : FieldLayout} (hf : f ∈ l.fields) {e : Nat}
    (he : e < arrayLength f.extents) {image : Image} (hlen : l.totalSize ≤ image.length) :
    (runSteps ((p.planned layouts).byteSteps direction index) image).part
        (elementSpan f.offset f.elementSize e) =
      runSteps (p.byteElement ((p.planned layouts).byteSteps direction) f)
        (image.part (elementSpan f.offset f.elementSize e)) := by
  have hm := List.mem_of_getElem? hl
  obtain ⟨pieces, hc⟩ := h.consists l hm
  have hpart := h.part_byteSteps direction hl hc (hc.member_mem hf (hp.fields hl f hf))
    (hp.spansDisjoint h.toPlannable hl (hd l hm)) he hlen
  rwa [hp.hasBitFields h.toPlannable hl, elementSteps, if_neg Bool.false_ne_true, List.append_nil] at hpart

/-- An embedded record, at any depth, is converted as it is alone. -/
theorem part_within {index base target : Nat} (hin : p.Within layouts index base target)
    (hp : p.Plain layouts index) {l inner : Layout} (hl : layouts[index]? = some l)
    (ht : layouts[target]? = some inner) {image : Image} (hlen : l.totalSize ≤ image.length) :
    (runSteps ((p.planned layouts).byteSteps direction index) image).part
        ⟨base, inner.totalSize⟩ =
      runSteps ((p.planned layouts).byteSteps direction target)
        (image.part ⟨base, inner.totalSize⟩) := by
  induction hin generalizing l image with
  | self index =>
    obtain rfl := Option.some.inj (hl.symm.trans ht)
    exact part_runSteps (h.inside_byteSteps direction hl) hlen
  | @inner index middle target e start l' f hl' hf hb hm he hin ih =>
    obtain rfl := Option.some.inj (hl'.symm.trans hl)
    obtain ⟨pieces, hc⟩ := h.consists l' (List.mem_of_getElem? hl)
    have hq := hc.member_mem hf hb
    obtain ⟨-, m, hmid, hsize⟩ := h.embeds_member hl hc hq hm
    have hend := hc.element_le hq he
    have hle := h.within_le hin hmid ht
    rw [← hsize] at hle
    -- the element is converted as the record in the middle alone
    have hpart := h.part_element_plain hd direction hp hl hf he hlen
    rw [byteElement, hm] at hpart
    have helem : (image.part (elementSpan f.offset f.elementSize e)).length = m.totalSize := by
      rw [Image.length_part (by simp only [elementSpan]; omega), ← hsize]
      rfl
    have hrec := ih (hp.inner ⟨l', hl, f, hf, hb, hm⟩) hmid ht (Nat.le_of_eq helem.symm)
    rw [← hpart, elementSpan, Image.part_part _ hle, Image.part_part _ hle] at hrec
    exact hrec

/-- The byte swap of a record without bit-fields turns each leaf as its width says. -/
theorem part_leaf {index start : Nat} {g : FieldLayout} (hleaf : p.Leaf layouts index start g)
    (hp : p.Plain layouts index) {l : Layout} (hl : layouts[index]? = some l) {image : Image}
    (hlen : l.totalSize ≤ image.length) :
    (runSteps ((p.planned layouts).byteSteps direction index) image).part ⟨start, g.elementSize⟩ =
      runSteps ((g.swapWidth? p).map wordStep).toList (image.part ⟨start, g.elementSize⟩) := by
  cases hleaf with
  | @element target base e inner f hin hinner hf hb ht he =>
    obtain ⟨pieces, hc⟩ := h.consists inner (List.mem_of_getElem? hinner)
    have hend := hc.element_le (hc.member_mem hf hb) he
    have hle := h.within_le hin hl hinner
    have hwithin := h.part_within hd direction hin hp hl hinner hlen
    have hlength : (image.part ⟨base, inner.totalSize⟩).length = inner.totalSize :=
      Image.length_part (s := ⟨base, inner.totalSize⟩) (by simp only; omega)
    have hpart := h.part_element_plain hd direction (hp.within hin) hinner hf he
      (Nat.le_of_eq hlength.symm)
    rw [byteElement_scalar hb ht, ← hwithin, elementSpan, Image.part_part _ hend,
      Image.part_part _ hend] at hpart
    exact hpart

/-- What the byte swap of a record without bit-fields does. -/
theorem reversed {index : Nat} {l : Layout} (hp : p.Plain layouts index)
    (hl : layouts[index]? = some l) {image : Image} (hlen : l.totalSize ≤ image.length) :
    p.Reversed layouts index image
      (runSteps ((p.planned layouts).byteSteps direction index) image) := by
  constructor
  case length => exact length_runSteps _ _
  case swapped =>
    intro start f width hleaf hw
    obtain rfl := swapWidth?_eq hw
    have hpart := h.part_leaf hd direction hleaf hp hl hlen
    rw [hw] at hpart
    refine hpart.trans (runSteps_wordStep (Image.length_part ?_))
    exact Nat.le_trans (h.leaf_le hleaf hl) hlen
  case kept =>
    intro start f hleaf hw
    have hpart := h.part_leaf hd direction hleaf hp hl hlen
    rwa [hw] at hpart
  case headers =>
    intro start target inner hin hinner
    have hsize := (h.headerFirst _ (List.mem_of_getElem? hinner)).inside
    have hwithin := h.part_within hd direction hin hp hl hinner hlen
    have hheader := h.part_header direction (hp.within hin) hinner
      (image.part ⟨start, inner.totalSize⟩)
    rwa [← hwithin, Image.part_part _ (by omega), Image.part_part _ (by omega), Nat.add_zero]
      at hheader
  case past =>
    intro l' k hl' hk
    obtain rfl := Option.some.inj (hl'.symm.trans hl)
    refine getElem?_runSteps (h.inside_byteSteps direction hl) image fun hm => ?_
    rw [Span.mem_mk_zero] at hm
    omega
  case other =>
    intro k hk
    refine getElem?_runSteps_of_not_mem image fun s hs => ?_
    obtain ⟨start, f, width, hleaf, hw, rfl⟩ := h.step_of_byteSteps direction hl hp hs
    exact hk start f width hleaf hw

end

end Sound

end Project

/-- **Leaves.** Every built project whose records have distinct names and whose primitives are not
named like records has plans. If no two members of a record share a byte, the byte swap of a record
that neither has nor embeds bit-fields reverses the bytes of each scalar leaf that has a swap, and
leaves every other byte of the image as it is. -/
theorem Draft.byteSwap_leaves {d : Draft} {p : Project} (h : d.build = .ok p) (hn : p.WellNamed)
    (hw : p.WordBits) :
    ∃ layouts plans, p.layouts = .ok layouts ∧ Plans.ofLayouts p layouts = .ok plans ∧
      ((∀ l ∈ layouts, l.memberSpans.Pairwise Span.Disjoint) →
        ∀ (index : Nat) (l : Layout), layouts[index]? = some l → p.Plain layouts index →
        ∀ (direction : Direction) (image : Image), l.totalSize ≤ image.length → ∃ converted,
          plans.byteSwap direction index image = .ok converted ∧
          p.Reversed layouts index image converted) := by
  obtain ⟨layouts, hlayouts, hall⟩ := exists_layouts h hn.nodup
  have hs := sound_layouts h hn hw hall
  refine ⟨layouts, p.planned layouts, hlayouts, hs.ofLayouts_eq, ?_⟩
  intro hd index l hl hp direction image hlen
  exact ⟨_, hs.runnable.byteSwap_eq direction index image, hs.reversed hd direction hp hl hlen⟩

namespace Sample

theorem track_plain : project.Plain layouts 3 := by
  have hreach : ∀ j, Relation.ReflTransGen (project.Embeds layouts) 3 j → j = 3 ∨ j = 2 := by
    intro j hj
    induction hj with
    | refl => exact .inl rfl
    | @tail i j _ hstep ih =>
      obtain ⟨l, hl, f, hf, -, ht⟩ := hstep
      have htwo : ∀ l ∈ layouts[2]?, ∀ f ∈ l.fields, project.embedded? f = none := by
        decide +kernel
      have hthree : ∀ l ∈ layouts[3]?, ∀ f ∈ l.fields, ∀ j ∈ project.embedded? f, j = 2 := by
        decide +kernel
      rcases ih with rfl | rfl
      · exact .inr (hthree l hl f hf j ht)
      · rw [htwo l hl f hf] at ht
        cases ht
  intro j hj l hl f hf
  have hnone : ∀ i ∈ [3, 2], ∀ l ∈ layouts[i]?, ∀ f ∈ l.fields, f.bitLength = none := by
    decide +kernel
  exact hnone j (by simpa using hreach j hj) l hl f hf

end Sample

/-- A word at the end of the third element of a table of records. -/
theorem Draft.byteSwap_leaves_sample :
    Sample.draft.build = .ok Sample.project ∧ Sample.project.layouts = .ok Sample.layouts ∧
      ∃ plans converted, Plans.ofLayouts Sample.project Sample.layouts = .ok plans ∧
        plans.byteSwap .localToForeign 3 (Image.pattern 70) = .ok converted ∧
        converted.part ⟨42, 8⟩ = ((Image.pattern 70).part ⟨42, 8⟩).reverse := by
  obtain ⟨layouts, plans, hlayouts, hplans, hleaves⟩ :=
    byteSwap_leaves Sample.draft_build Sample.project_wellNamed Sample.project_wordBits
  obtain rfl := Except.ok.inj (hlayouts.symm.trans Sample.project_layouts)
  obtain ⟨l, hl, f, hf, hb, ht, he, hoffset, hlen⟩ :
      ∃ l ∈ Sample.layouts[3]?, ∃ f ∈ l.fields, f.bitLength = none ∧
        Sample.project.embedded? f = some 2 ∧ 2 < arrayLength f.extents ∧
        f.offset + 2 * f.elementSize = 38 ∧ l.totalSize ≤ (Image.pattern 70).length := by
    decide +kernel
  obtain ⟨inner, hinner, g, hg, hgb, hgt, hge, hgo, hwidth⟩ :
      ∃ inner ∈ Sample.layouts[2]?, ∃ g ∈ inner.fields, g.bitLength = none ∧
        Sample.project.embedded? g = none ∧ 0 < arrayLength g.extents ∧
        g.offset + 0 * g.elementSize = 4 ∧ g.swapWidth? Sample.project = some 8 := by
    decide +kernel
  have hleaf := Project.Leaf.element (.inner hl hf hb ht he (.self 2)) hinner hg hgb hgt hge
  rw [hoffset, hgo] at hleaf
  obtain ⟨converted, h1, h2⟩ := hleaves (by decide +kernel) 3 l hl Sample.track_plain
    .localToForeign (Image.pattern 70) hlen
  exact ⟨Sample.draft_build, Sample.project_layouts, plans, converted, hplans, h1,
    h2.swapped hleaf hwidth⟩

end RecordSwap
