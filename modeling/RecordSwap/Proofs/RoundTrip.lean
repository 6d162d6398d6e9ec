import RecordSwap.Proofs.Conversion

/-!
# Round trips

Converting a record in one direction and then in the other restores every image, whatever its
length. Both conversions swap words first and bit-fields last, so that the second one does not undo
the first one from its end:

* `Project.Sound.commute`: the bit swap of a record commutes with its byte swap, since both are the
  same on storage units and, on embedded records, commute by induction.
* `Project.Sound.bitSteps_reverse`, `Project.Sound.byteSteps_reverse`: the swaps of one direction
  undo those of the other.
* `Draft.byteSwap_roundTrip`: the statement about built projects.
-/

namespace RecordSwap

open Function (Commute LeftInverse)

section
variable {steps steps' back back' : List Step}

theorem commute_append (h : Commute (runSteps back) (runSteps steps))
    (h' : Commute (runSteps back) (runSteps steps')) :
    Commute (runSteps back) (runSteps (steps ++ steps')) := by
  intro image
  rw [runSteps_append, runSteps_append, h', h]

/-- A run of two parts is undone part by part, if the parts that undo it commute. -/
theorem leftInverse_append (h : LeftInverse (runSteps back) (runSteps steps))
    (h' : LeftInverse (runSteps back') (runSteps steps'))
    (hc : Commute (runSteps back') (runSteps back)) :
    LeftInverse (runSteps (back ++ back')) (runSteps (steps ++ steps')) := by
  intro image
  rw [runSteps_append, runSteps_append, hc, h', h]

end

theorem scalarSteps_twice (strategy : Strategy) :
    LeftInverse (runSteps (scalarSteps strategy)) (runSteps (scalarSteps strategy)) := by
  unfold scalarSteps
  cases strategy.width? with
  | none => exact fun _ => rfl
  | some width =>
    show LeftInverse (runSteps (turnSteps ⟨0, width⟩ [.reverse]))
      (runSteps (turnSteps ⟨0, width⟩ [.reverse]))
    exact leftInverse_turnSteps fun u _ => u.reverse_reverse

/-- No bit-field is wider than an element of its type. -/
def Project.BitsFit (p : Project) : Prop :=
  ∀ s ∈ p.records, ∀ r ∈ s.declared, ∀ bits ∈ r.bitField?,
    bits ≤ 8 * p.types.sizeOf r.dataType

instance (p : Project) : Decidable p.BitsFit :=
  inferInstanceAs (Decidable (∀ s ∈ p.records, ∀ r ∈ s.declared, ∀ bits ∈ r.bitField?,
    bits ≤ 8 * p.types.sizeOf r.dataType))

/-- The bit-fields of a unit lie inside it, if none is wider than an element of its type. -/
theorem Piece.UnitSound.insideUnit {sizeOf : String → Nat} {u : UnitLayout} {fs : List FieldLayout}
    (h : UnitSound sizeOf u fs) {f : FieldLayout} (hf : f ∈ fs)
    (hw : ∀ bits, f.bitLength = some bits → bits ≤ 8 * sizeOf f.dataType) :
    f.InsideUnit u.byteSize := by
  intro bits hb _
  have hcap := (unitCapacity_eq_ok.1 h.capacity).2
  have hmod := Nat.mod_le u.byteSize bitLimit
  obtain hle | ⟨hzero, -⟩ := h.field_cases hf hb
  · omega
  · have := hw bits hb
    rw [(h.fields f hf).1, ← h.byteSize] at this
    omega

namespace Project.Sound

/-! ## Pieces -/

section
variable {p : Project} {layouts : List Layout} (h : p.Sound layouts) (direction : Direction)
  {index : Nat} {l : Layout} {pieces : List Piece} (hl : layouts[index]? = some l)
  (hc : l.Consists p.types.sizeOf pieces) {q : Piece} (hq : q ∈ pieces)
include h hl hc hq

/-- The two blocks of a piece commute if the swaps of the record that it embeds do. -/
theorem commute_block
    (ih : ∀ f, q = .member f → ∀ target, p.embedded? f = some target →
      Commute (runSteps ((p.planned layouts).bitSteps direction target))
        (runSteps ((p.planned layouts).byteSteps direction target))) :
    Commute (runSteps (q.bitBlock p direction ((p.planned layouts).bitSteps direction)))
      (runSteps (q.byteBlock p ((p.planned layouts).byteSteps direction))) := by
  cases q with
  | unit u fs => exact fun _ => rfl
  | member f =>
    refine commute_elements (h.inside_byteElement direction hl hc hq)
      (h.inside_bitElement direction hl hc hq) ?_
    unfold bitElement byteElement
    cases ht : p.embedded? f with
    | none => exact fun _ => rfl
    | some target => exact ih f rfl target ht

/-- The bit swap of a piece is undone if that of the record that it embeds is. -/
theorem bitBlock_reverse
    (hw : ∀ f ∈ l.fields, ∀ bits, f.bitLength = some bits → bits ≤ 8 * p.types.sizeOf f.dataType)
    (ih : ∀ f, q = .member f → ∀ target, p.embedded? f = some target →
      LeftInverse (runSteps ((p.planned layouts).bitSteps direction.reverse target))
        (runSteps ((p.planned layouts).bitSteps direction target))) :
    LeftInverse
      (runSteps (q.bitBlock p direction.reverse ((p.planned layouts).bitSteps direction.reverse)))
      (runSteps (q.bitBlock p direction ((p.planned layouts).bitSteps direction))) := by
  cases q with
  | unit u fs =>
    have hs : Piece.UnitSound _ u fs := hc.sound _ hq
    refine leftInverse_turnSteps fun bytes hlen =>
      applyTurns_unit_reverse hs.run (fun f hf => ?_) direction
    have hmem : f ∈ l.fields := hc.fields ▸ List.mem_flatMap.2 ⟨_, hq, hf⟩
    exact hlen ▸ hs.insideUnit hf (hw f hmem)
  | member f =>
    refine leftInverse_elements (h.inside_bitElement direction hl hc hq)
      (h.inside_bitElement direction.reverse hl hc hq) ?_
    unfold bitElement
    cases ht : p.embedded? f with
    | none => exact fun _ => rfl
    | some target => exact ih f rfl target ht

theorem byteBlock_reverse
    (ih : ∀ f, q = .member f → ∀ target, p.embedded? f = some target →
      LeftInverse (runSteps ((p.planned layouts).byteSteps direction.reverse target))
        (runSteps ((p.planned layouts).byteSteps direction target))) :
    LeftInverse (runSteps (q.byteBlock p ((p.planned layouts).byteSteps direction.reverse)))
      (runSteps (q.byteBlock p ((p.planned layouts).byteSteps direction))) := by
  cases q with
  | unit u fs => exact fun _ => rfl
  | member f =>
    refine leftInverse_elements (h.inside_byteElement direction hl hc hq)
      (h.inside_byteElement direction.reverse hl hc hq) ?_
    unfold byteElement
    cases ht : p.embedded? f with
    | some target => exact ih f rfl target ht
    | none =>
      cases p.strategy? f with
      | none => exact fun _ => rfl
      | some strategy => exact scalarSteps_twice strategy

end

/-! ## Records -/

section
variable {p : Project} {layouts : List Layout} (h : p.Sound layouts)
  (hd : ∀ l ∈ layouts, l.SpansDisjoint)
include h hd

/-- The bit swap of a record commutes with its byte swap. -/
theorem commute (direction : Direction) {index : Nat} {l : Layout} (hl : layouts[index]? = some l) :
    Commute (runSteps ((p.planned layouts).bitSteps direction index))
      (runSteps ((p.planned layouts).byteSteps direction index)) := by
  induction index using Nat.strongRecOn generalizing l with
  | ind index ih =>
    cases hb : l.hasBitFields with
    | false =>
      rw [bitSteps_of_not_hasBitFields direction (by rw [hl]; exact hb)]
      exact fun _ => rfl
    | true =>
      have hm := List.mem_of_getElem? hl
      obtain ⟨pieces, hc⟩ := h.consists l hm
      rw [h.runSteps_bitSteps direction hl hc (hd l hm) hb,
        h.runSteps_byteSteps direction hl hc (hd l hm), hb]
      refine commute_flatMap (hc.pairwise_iff.1 (hd l hm))
        (fun q hq => h.inside_bitBlock direction hl hc hq)
        (fun q hq => h.inside_block direction hl hc true hq) fun q hq => ?_
      refine commute_append (h.commute_block direction hl hc hq ?_) (.refl _)
      exact h.forall_embedded hl hc hq fun _ target _ hlt hinner _ => ih target hlt hinner

variable (hw : ∀ l ∈ layouts, ∀ f ∈ l.fields, ∀ bits, f.bitLength = some bits →
  bits ≤ 8 * p.types.sizeOf f.dataType)
include hw

/-- The bit swap of one direction is undone by that of the other. -/
theorem bitSteps_reverse (direction : Direction) {index : Nat} {l : Layout}
    (hl : layouts[index]? = some l) :
    LeftInverse (runSteps ((p.planned layouts).bitSteps direction.reverse index))
      (runSteps ((p.planned layouts).bitSteps direction index)) := by
  induction index using Nat.strongRecOn generalizing l with
  | ind index ih =>
    cases hb : l.hasBitFields with
    | false =>
      have hnone : (layouts[index]?).any Layout.hasBitFields = false := by rw [hl]; exact hb
      rw [bitSteps_of_not_hasBitFields direction hnone, bitSteps_of_not_hasBitFields _ hnone]
      exact fun _ => rfl
    | true =>
      have hm := List.mem_of_getElem? hl
      obtain ⟨pieces, hc⟩ := h.consists l hm
      rw [h.runSteps_bitSteps direction hl hc (hd l hm) hb,
        h.runSteps_bitSteps direction.reverse hl hc (hd l hm) hb]
      refine leftInverse_flatMap (hc.pairwise_iff.1 (hd l hm))
        (fun q hq => h.inside_bitBlock direction hl hc hq)
        (fun q hq => h.inside_bitBlock direction.reverse hl hc hq) fun q hq => ?_
      refine h.bitBlock_reverse direction hl hc hq (hw l hm) ?_
      exact h.forall_embedded hl hc hq fun _ target _ hlt hinner _ => ih target hlt hinner

theorem byteSteps_reverse (direction : Direction) {index : Nat} {l : Layout}
    (hl : layouts[index]? = some l) :
    LeftInverse (runSteps ((p.planned layouts).byteSteps direction.reverse index))
      (runSteps ((p.planned layouts).byteSteps direction index)) := by
  induction index using Nat.strongRecOn generalizing l with
  | ind index ih =>
    have hm := List.mem_of_getElem? hl
    obtain ⟨pieces, hc⟩ := h.consists l hm
    rw [h.runSteps_byteSteps direction hl hc (hd l hm),
      h.runSteps_byteSteps direction.reverse hl hc (hd l hm)]
    refine leftInverse_flatMap (hc.pairwise_iff.1 (hd l hm))
      (fun q hq => h.inside_block direction hl hc _ hq)
      (fun q hq => h.inside_block direction.reverse hl hc _ hq) fun q hq => ?_
    have hbyte := h.byteBlock_reverse direction hl hc hq <|
      h.forall_embedded hl hc hq fun _ target _ hlt hinner _ => ih target hlt hinner
    cases l.hasBitFields with
    | false => simpa [Piece.block] using hbyte
    | true =>
      -- what the first direction did last, the other one does not undo first
      refine leftInverse_append hbyte
        (h.bitBlock_reverse direction hl hc hq (hw l hm) ?_)
        (h.commute_block direction.reverse hl hc hq ?_)
      · exact h.forall_embedded hl hc hq fun _ _ _ _ hinner _ =>
          h.bitSteps_reverse hd hw direction hinner
      · exact h.forall_embedded hl hc hq fun _ _ _ _ hinner _ =>
          h.commute hd direction.reverse hinner

end

end Project.Sound

/-! ## Projects -/

theorem Project.byteSteps_of_none {p : Project} {layouts : List Layout} {index : Nat}
    (hl : layouts[index]? = none) (direction : Direction) :
    (p.planned layouts).byteSteps direction index = [] := by
  rw [Plans.byteSteps, planned_swaps, hl]
  rfl

/-- **Round trip.** Every built project whose records have distinct names, whose primitives are not
named like records and whose bit-fields are not wider than their types has plans. If no two members
or storage units of a record share a byte, as is the case without explicit offsets, converting an
image in one direction and then in the other restores it. -/
theorem Draft.byteSwap_roundTrip {d : Draft} {p : Project} (h : d.build = .ok p) (hn : p.WellNamed)
    (hw : p.WordBits) (hf : p.BitsFit) :
    ∃ layouts plans, p.layouts = .ok layouts ∧ Plans.ofLayouts p layouts = .ok plans ∧
      List.Forall₂ (fun s l => (∀ r ∈ s.declared, r.offset = none) → l.SpansDisjoint)
        p.records layouts ∧
      ((∀ l ∈ layouts, l.SpansDisjoint) → ∀ direction index image, ∃ converted,
        plans.byteSwap direction index image = .ok converted ∧
          plans.byteSwap direction.reverse index converted = .ok image) := by
  obtain ⟨layouts, hlayouts, hall⟩ := exists_layouts h hn.nodup
  have hs := sound_layouts h hn hw hall
  refine ⟨layouts, p.planned layouts, hlayouts, hs.ofLayouts_eq,
    hall.imp fun _ _ hof => hof.describes.disjoint, fun hd direction index image => ?_⟩
  refine ⟨_, hs.runnable.byteSwap_eq direction index image, ?_⟩
  rw [hs.runnable.byteSwap_eq]
  congr 1
  cases hl : layouts[index]? with
  | none => rw [Project.byteSteps_of_none hl, Project.byteSteps_of_none hl]; rfl
  | some l =>
    refine hs.byteSteps_reverse hd (fun l hl f hm bits hb => ?_) direction hl image
    obtain ⟨s, hs, r, hr, -, htype, -, hlength⟩ := Layout.exists_row hall hl hm
    rw [htype]
    exact hf s hs r hr bits (hlength ▸ hb)

/-- The round trip of a record that embeds bit-fields and has some of its own. -/
theorem Draft.byteSwap_roundTrip_sample :
    Sample.draft.build = .ok Sample.project ∧ ∃ layouts plans converted,
      Sample.project.layouts = .ok layouts ∧ Plans.ofLayouts Sample.project layouts = .ok plans ∧
      plans.byteSwap .localToForeign 1 (Image.pattern 30) = .ok converted ∧
      plans.byteSwap .foreignToLocal 1 converted = .ok (Image.pattern 30) := by
  obtain ⟨layouts, plans, hlayouts, hplans, hdis, hround⟩ :=
    byteSwap_roundTrip Sample.draft_build Sample.project_wellNamed Sample.project_wordBits
      (show Sample.project.BitsFit by decide +kernel)
  have hnone : ∀ s ∈ Sample.project.records, ∀ r ∈ s.declared, r.offset = none := by
    decide +kernel
  have hd : ∀ l ∈ layouts, l.SpansDisjoint := fun l hl => by
    obtain ⟨i, hi⟩ := List.mem_iff_getElem?.1 hl
    obtain ⟨s, hs, hof⟩ := getElem?_of_forall₂ (List.Forall₂.flip hdis) hi
    exact hof (hnone s (List.mem_of_getElem? hs))
  obtain ⟨converted, h1, h2⟩ := hround hd .localToForeign 1 (Image.pattern 30)
  exact ⟨Sample.draft_build, layouts, plans, converted, hlayouts, hplans, h1, h2⟩

end RecordSwap
