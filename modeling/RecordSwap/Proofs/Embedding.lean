import RecordSwap.Proofs.Conversion

/-!
# Embedded records

The byte swap of a record converts each element of an embedded record as the swap functions of that
record do on its bytes alone. The bit swap of the container goes over the element once more, so that
an embedded record is bit-swapped twice if both records have bit-fields.

* `Project.elementSteps`: the steps on one element of a plain member.
* `Project.Sound.part_byteSteps`: the byte swap of a record, seen from one element.
* `Draft.byteSwap_embedded`: the statement about built projects.
-/

namespace RecordSwap

/-- All that the byte swap of a record does to one element of a plain member; `own` says whether the
record has bit-fields of its own. -/
def Project.elementSteps (p : Project) (layouts : List Layout) (direction : Direction) (own : Bool)
    (f : FieldLayout) : List Step :=
  p.byteElement ((p.planned layouts).byteSteps direction) f ++
    if own then p.bitElement ((p.planned layouts).bitSteps direction) f else []

namespace Project.Sound

variable {p : Project} {layouts : List Layout} (h : p.Sound layouts) (direction : Direction)
  {index : Nat} {l : Layout} {pieces : List Piece} (hl : layouts[index]? = some l)
  (hc : l.Consists p.types.sizeOf pieces) {f : FieldLayout} (hq : .member f ∈ pieces)
include h hl hc hq

theorem inside_elementSteps (own : Bool) :
    Inside ⟨0, f.elementSize⟩ (p.elementSteps layouts direction own f) := by
  refine (h.inside_byteElement direction hl hc hq).append ?_
  split
  · exact h.inside_bitElement direction hl hc hq
  · exact Inside.nil _

/-- A plain member is converted element by element. -/
theorem runSteps_block_member (own : Bool) :
    runSteps (Piece.block p layouts direction own (.member f)) =
      runSteps (elements f.offset f.elementSize (arrayLength f.extents)
        (p.elementSteps layouts direction own f)) := by
  cases own with
  | false => simp [Piece.block, Piece.byteBlock, elementSteps]
  | true =>
    exact runSteps_elements_append (h.inside_byteElement direction hl hc hq)
      (h.inside_bitElement direction hl hc hq)

/-- The byte swap of a record, seen from one element of a plain member. -/
theorem part_byteSteps (hd : l.SpansDisjoint) {e : Nat} (he : e < arrayLength f.extents)
    {image : Image}
    (hlen : l.totalSize ≤ image.length) :
    (runSteps ((p.planned layouts).byteSteps direction index) image).part
        (elementSpan f.offset f.elementSize e) =
      runSteps (p.elementSteps layouts direction l.hasBitFields f)
        (image.part (elementSpan f.offset f.elementSize e)) := by
  have hspan : f.span = ⟨f.offset, arrayLength f.extents * f.elementSize⟩ :=
    (hc.sound _ hq).span_eq
  have hagree := runSteps_flatMap_agree (hc.pairwise_iff.1 hd)
    (fun q hq => h.inside_block direction hl hc l.hasBitFields hq) hq image
  have hsub : (elementSpan f.offset f.elementSize e).Sub (Piece.member f).span := by
    rw [Piece.span, hspan]
    exact elementSpan_sub he
  have hin := hc.inside _ hq
  simp only [Piece.span, hspan] at hin
  rw [h.runSteps_byteSteps direction hl hc hd, (hagree.mono hsub).part_eq,
    h.runSteps_block_member direction hl hc hq]
  exact part_elements (h.inside_elementSteps direction hl hc hq _) he (by omega)

end Project.Sound

/-- **Embedding.** Every built project whose records have distinct names and whose primitives are
not named like records has plans. If no two members or storage units of a record share a byte, the
byte swap of a record does to each element of an embedded record what the byte swap of that record
does to the element alone, followed by its bit swap if both records have bit-fields. -/
theorem Draft.byteSwap_embedded {d : Draft} {p : Project} (h : d.build = .ok p) (hn : p.WellNamed)
    (hw : p.WordBits) :
    ∃ layouts plans, p.layouts = .ok layouts ∧ Plans.ofLayouts p layouts = .ok plans ∧
      ((∀ l ∈ layouts, l.SpansDisjoint) → ∀ (i j : Nat) (l inner : Layout),
        layouts[i]? = some l → layouts[j]? = some inner →
        ∀ f ∈ l.fields, f.bitLength = none → f.dataType = inner.name →
        ∀ e < arrayLength f.extents, ∀ (direction : Direction) (image : Image),
          l.totalSize ≤ image.length → ∃ converted,
            plans.byteSwap direction i image = .ok converted ∧
            (do
              let part ← plans.byteSwap direction j
                (image.part ⟨f.offset + e * f.elementSize, inner.totalSize⟩)
              if l.hasBitFields && inner.hasBitFields then plans.bitSwap direction j part
              else pure part) =
              .ok (converted.part ⟨f.offset + e * f.elementSize, inner.totalSize⟩)) := by
  obtain ⟨layouts, hlayouts, hall⟩ := exists_layouts h hn.nodup
  have hs := sound_layouts h hn hw hall
  refine ⟨layouts, p.planned layouts, hlayouts, hs.ofLayouts_eq, ?_⟩
  intro hd i j l inner hl hj f hf hb hname e he direction image hlen
  have hm := List.mem_of_getElem? hl
  obtain ⟨pieces, hc⟩ := hs.consists l hm
  have hq := hc.member_mem hf hb
  have ht := hn.embedded?_eq hall hj hname
  obtain ⟨-, inner', hinner', hsize⟩ := hs.embeds_member hl hc hq ht
  rw [hj, Option.some.injEq] at hinner'
  subst hinner'
  refine ⟨_, hs.runnable.byteSwap_eq direction i image, ?_⟩
  have hpart := hs.part_byteSteps direction hl hc hq (hd l hm) he hlen
  simp only [elementSpan, hsize, Project.elementSteps, Project.byteElement, Project.bitElement, ht,
    Option.elim_some] at hpart
  simp only [hsize, hpart, hs.runnable.byteSwap_eq, Checked.ok_bind, hs.runnable.bitSwap_eq,
    runSteps_append]
  cases hown : l.hasBitFields with
  | false => rfl
  | true =>
    cases hbits : inner.hasBitFields with
    | true => rfl
    | false =>
      rw [Project.Sound.bitSteps_of_not_hasBitFields direction (by rw [hj]; exact hbits)]
      rfl

/-- The second element of an embedded record with bit-fields is bit-swapped twice. -/
theorem Draft.byteSwap_embedded_sample :
    Sample.draft.build = .ok Sample.project ∧ Sample.project.layouts = .ok Sample.layouts ∧
      ∃ plans converted, Plans.ofLayouts Sample.project Sample.layouts = .ok plans ∧
        plans.byteSwap .foreignToLocal 1 (Image.pattern 30) = .ok converted ∧
        (do
          let part ← plans.byteSwap .foreignToLocal 0 ((Image.pattern 30).part ⟨19, 3⟩)
          plans.bitSwap .foreignToLocal 0 part) = .ok (converted.part ⟨19, 3⟩) := by
  obtain ⟨layouts, plans, hlayouts, hplans, hembed⟩ :=
    byteSwap_embedded Sample.draft_build Sample.project_wellNamed Sample.project_wordBits
  obtain rfl := Except.ok.inj (hlayouts.symm.trans Sample.project_layouts)
  obtain ⟨l, hl, inner, hinner, f, hf, hb, ht, he, hoffset, hsize, hlen, hown, hbits⟩ :
      ∃ l ∈ Sample.layouts[1]?, ∃ inner ∈ Sample.layouts[0]?, ∃ f ∈ l.fields,
        f.bitLength = none ∧ f.dataType = inner.name ∧ 1 < arrayLength f.extents ∧
        f.offset + 1 * f.elementSize = 19 ∧ inner.totalSize = 3 ∧
        l.totalSize ≤ (Image.pattern 30).length ∧ l.hasBitFields = true ∧
        inner.hasBitFields = true := by decide +kernel
  obtain ⟨converted, h1, h2⟩ := hembed (by decide +kernel) 1 0 l inner hl hinner f hf hb ht 1 he
    .foreignToLocal (Image.pattern 30) hlen
  rw [hoffset, hsize, hown, hbits] at h2
  exact ⟨Sample.draft_build, Sample.project_layouts, plans, converted, hplans, h1, h2⟩

end RecordSwap
