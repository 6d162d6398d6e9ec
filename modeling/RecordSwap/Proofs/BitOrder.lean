import RecordSwap.Proofs.Conversion

/-!
# The order of bit-fields

In the local image the bit-fields of a storage unit take its bits from the lowest one up, in the
foreign image from the highest one down. Every bit-field keeps its value.

* `bitAt_applyTurns_fields`: turning the bit-fields of a unit turns each of them in its place.
* `fieldValue_localToForeign`, `fieldValue_foreignToLocal`: where the value of a bit-field is found
  once the whole unit has been turned as well.
* `Project.Sound.part_unit`: what the byte swap of a record does to a storage unit.
* `Draft.byteSwap_bitOrder`: the statement about built projects.
-/

namespace RecordSwap

/-! ## Bits of a unit -/

theorem bitAt_turns_of_not_mem {f : FieldLayout} {bits k : Nat} {u : Bytes}
    (hf : f.bitLength = some bits) (hk : k < 8 * u.length)
    (hm : ¬ (f.shift ≤ k ∧ k < f.shift + bits)) :
    bitAt (applyTurns f.turns u) k = bitAt u k := by
  unfold FieldLayout.turns
  rw [hf]
  split
  · show bitAt (turnField u f.shift bits) k = bitAt u k
    by_cases h : f.shift + bits ≤ wordBits
    · rw [bitAt_turnField h hk, turnIndex_of_not_mem hm]
    · rw [turnField_of_not_fits (.inr (by omega))]
  · rfl

theorem bitAt_turns_of_mem {f : FieldLayout} {bits k : Nat} {u : Bytes}
    (hf : f.bitLength = some bits) (hk : k < 8 * u.length) (hw : f.shift + bits ≤ wordBits)
    (hm : f.shift ≤ k ∧ k < f.shift + bits) :
    bitAt (applyTurns f.turns u) k = bitAt u (2 * f.shift + bits - 1 - k) := by
  unfold FieldLayout.turns
  rw [hf]
  split
  · exact (bitAt_turnField hw hk).trans (congrArg (bitAt u) (turnIndex_of_mem hm))
  · next h =>
    -- a single bit is where it was
    have h : ¬ bits > 1 := h
    rw [show 2 * f.shift + bits - 1 - k = k by omega]
    rfl

theorem bitAt_applyTurns_of_lt {a b k : Nat} {fs : List FieldLayout} (hr : BitRun a b fs)
    {u : Bytes} (hk : k < 8 * u.length) (ha : k < a) :
    bitAt (applyTurns (fs.flatMap FieldLayout.turns) u) k = bitAt u k := by
  induction hr generalizing u with
  | nil => rfl
  | @cons n bits stop f rest hs hb _ ih =>
    rw [List.flatMap_cons, applyTurns_append, ih (by simpa using hk) (by omega),
      bitAt_turns_of_not_mem hb hk (by omega)]

/-- Turning the bit-fields of a unit turns each of them in its place. -/
theorem bitAt_applyTurns_fields {a b k bits : Nat} {fs : List FieldLayout} (hr : BitRun a b fs)
    {f : FieldLayout} (hf : f ∈ fs) (hb : f.bitLength = some bits) {u : Bytes}
    (hu : f.shift + bits ≤ 8 * u.length) (hw : f.shift + bits ≤ wordBits)
    (hk : f.shift ≤ k ∧ k < f.shift + bits) :
    bitAt (applyTurns (fs.flatMap FieldLayout.turns) u) k =
      bitAt u (2 * f.shift + bits - 1 - k) := by
  induction hr generalizing u with
  | nil => simp at hf
  | @cons n bits' stop g rest hs hg hrest ih =>
    rw [List.flatMap_cons, applyTurns_append]
    rcases List.mem_cons.1 hf with rfl | hf
    · obtain rfl := Option.some.inj (hg.symm.trans hb)
      rw [bitAt_applyTurns_of_lt hrest (by simp; omega) (by omega),
        bitAt_turns_of_mem hb (by omega) hw hk]
    · obtain ⟨bits'', hb'', hle, -⟩ := hrest.isSome f hf
      rw [ih hf (by simpa using hu), bitAt_turns_of_not_mem hg (by omega) (by omega)]

/-! ## Values of bit-fields -/

section
variable {a b bits : Nat} {fs : List FieldLayout} (hr : BitRun a b fs) {f : FieldLayout}
  (hf : f ∈ fs) (hb : f.bitLength = some bits) {u : Bytes} (hu : u.length ≤ unitBytes)
  (hin : f.shift + bits ≤ 8 * u.length)
include hr hf hb hu hin

/-- Towards the foreign image, the bits of a field are counted from the other end of the unit. -/
theorem fieldValue_localToForeign :
    fieldValue (applyTurns (unitTurns .localToForeign fs) u) (8 * u.length - f.shift - bits) bits =
      fieldValue u f.shift bits := by
  have hw : 8 * u.length ≤ wordBits := by simp only [unitBytes, wordBits] at *; omega
  apply BitVec.eq_of_getLsbD_eq
  intro i _
  rw [getLsbD_fieldValue _ (by omega), getLsbD_fieldValue _ (by omega)]
  by_cases hi : i < bits
  · rw [unitTurns, applyTurns_append, applyTurns_reflect, bitAt_reflect (by simpa using hu)
      (by simp; omega), length_applyTurns,
      bitAt_applyTurns_fields hr hf hb hin (by omega) (by omega)]
    congr 2
    omega
  · simp [hi]

theorem fieldValue_foreignToLocal :
    fieldValue (applyTurns (unitTurns .foreignToLocal fs) u) f.shift bits =
      fieldValue u (8 * u.length - f.shift - bits) bits := by
  have hw : 8 * u.length ≤ wordBits := by simp only [unitBytes, wordBits] at *; omega
  apply BitVec.eq_of_getLsbD_eq
  intro i _
  rw [getLsbD_fieldValue _ (by omega), getLsbD_fieldValue _ (by omega)]
  by_cases hi : i < bits
  · rw [unitTurns, applyTurns_reflect_cons,
      bitAt_applyTurns_fields hr hf hb (by simpa using hin) (by omega) (by omega),
      bitAt_reflect hu (by omega)]
    congr 2
    omega
  · simp [hi]

end

theorem extractField_of_le {u : Bytes} {s b : Nat} (hb : 1 ≤ b) (h : s + b ≤ wordBits) :
    extractField u s b = .ok (some (fieldValue u s b)) := by
  rw [extractField_eq_ok (by simp only [wordBits, bitLimit] at *; omega), if_neg (by omega)]

/-! ## Records -/

/-- What the byte swap of a record does to one of its storage units. -/
theorem Project.Sound.part_unit {p : Project} {layouts : List Layout} (h : p.Sound layouts)
    (direction : Direction) {index : Nat} {l : Layout} {pieces : List Piece}
    (hl : layouts[index]? = some l) (hc : l.Consists p.types.sizeOf pieces) (hd : l.SpansDisjoint)
    {u : UnitLayout} {fs : List FieldLayout} (hq : .unit u fs ∈ pieces) {image : Image}
    (hlen : l.totalSize ≤ image.length) :
    (runSteps ((p.planned layouts).byteSteps direction index) image).part u.span =
      applyTurns (unitTurns direction fs) (image.part u.span) := by
  have hown : l.hasBitFields = true := by
    have hm : u ∈ pieces.filterMap Piece.unit? := List.mem_filterMap.2 ⟨_, hq, rfl⟩
    rw [Layout.hasBitFields, hc.groups]
    cases hp : pieces.filterMap Piece.unit? with
    | nil => simp [hp] at hm
    | cons => rfl
  have hagree := runSteps_flatMap_agree (hc.pairwise_iff.1 hd)
    (fun q hq => h.inside_block direction hl hc l.hasBitFields hq) hq image
  have hin := hc.inside _ hq
  simp only [Piece.span] at hagree hin
  rw [h.runSteps_byteSteps direction hl hc hd, hagree.part_eq, hown]
  exact part_turnSteps (unitTurns direction fs) (by omega)

/-- **Bit order.** Every built project whose records have distinct names and whose primitives are
not named like records has plans. If no two members or storage units of a record share a byte, a
bit-field that takes `bits` bits of a unit of `n` bytes from bit `s` on in the local image takes
them from bit `8 n - s - bits` on in the foreign image, with the same value. -/
theorem Draft.byteSwap_bitOrder {d : Draft} {p : Project} (h : d.build = .ok p) (hn : p.WellNamed)
    (hw : p.WordBits) :
    ∃ layouts plans, p.layouts = .ok layouts ∧ Plans.ofLayouts p layouts = .ok plans ∧
      ((∀ l ∈ layouts, l.SpansDisjoint) → ∀ (index g : Nat) (l : Layout) (u : UnitLayout),
        layouts[index]? = some l → l.groups[g]? = some u → u.byteSize ≤ 8 →
        ∀ f ∈ l.fields, f.group = some g → ∀ bits, f.bitLength = some bits → 1 ≤ bits →
          f.shift + bits ≤ 8 * u.byteSize →
        ∀ image : Image, l.totalSize ≤ image.length →
          (∃ converted value,
            plans.byteSwap .localToForeign index image = .ok converted ∧
            extractField (image.part u.span) f.shift bits = .ok (some value) ∧
            extractField (converted.part u.span) (8 * u.byteSize - f.shift - bits) bits =
              .ok (some value)) ∧
          (∃ converted value,
            plans.byteSwap .foreignToLocal index image = .ok converted ∧
            extractField (image.part u.span) (8 * u.byteSize - f.shift - bits) bits =
              .ok (some value) ∧
            extractField (converted.part u.span) f.shift bits = .ok (some value))) := by
  obtain ⟨layouts, hlayouts, hall⟩ := exists_layouts h hn.nodup
  have hs := sound_layouts h hn hw hall
  refine ⟨layouts, p.planned layouts, hlayouts, hs.ofLayouts_eq, ?_⟩
  intro hd index g l u hl hu hsize f hf hg bits hb hone hfits image hlen
  have hm := List.mem_of_getElem? hl
  obtain ⟨pieces, hc⟩ := hs.consists l hm
  obtain ⟨-, v, fs, hq, hfs, hv⟩ := hc.numbered.unit_of_group (hc.fields ▸ hf) hg
  obtain rfl : v = u := by
    rw [← hc.groups, Nat.sub_zero, hu] at hv
    exact (Option.some.inj hv).symm
  have hunit : Piece.UnitSound _ v fs := hc.sound _ hq
  have hin := hc.inside _ hq
  have hbytes : (image.part v.span).length = v.byteSize :=
    Image.length_part (s := v.span) (by simp only [Piece.span] at hin; omega)
  have hword : 8 * v.byteSize ≤ wordBits := by simp only [wordBits]; omega
  constructor
  · refine ⟨_, fieldValue (image.part v.span) f.shift bits,
      hs.runnable.byteSwap_eq .localToForeign index image, extractField_of_le hone (by omega), ?_⟩
    rw [extractField_of_le hone (by omega), hs.part_unit _ hl hc (hd l hm) hq hlen, ← hbytes,
      fieldValue_localToForeign hunit.run hfs hb (by rwa [hbytes]) (by rwa [hbytes])]
  · refine ⟨_, fieldValue (image.part v.span) (8 * v.byteSize - f.shift - bits) bits,
      hs.runnable.byteSwap_eq .foreignToLocal index image, extractField_of_le hone (by omega), ?_⟩
    rw [extractField_of_le hone (by omega), hs.part_unit _ hl hc (hd l hm) hq hlen, ← hbytes,
      fieldValue_foreignToLocal hunit.run hfs hb (by rwa [hbytes]) (by rwa [hbytes])]

/-- A bit-field that crosses a byte boundary behind a single bit. -/
theorem Draft.byteSwap_bitOrder_sample :
    Sample.draft.build = .ok Sample.project ∧ Sample.project.layouts = .ok Sample.layouts ∧
      ∃ plans converted value, Plans.ofLayouts Sample.project Sample.layouts = .ok plans ∧
        plans.byteSwap .localToForeign 1 (Image.pattern 24) = .ok converted ∧
        extractField ((Image.pattern 24).part ⟨22, 2⟩) 1 11 = .ok (some value) ∧
        extractField (converted.part ⟨22, 2⟩) 4 11 = .ok (some value) := by
  obtain ⟨layouts, plans, hlayouts, hplans, horder⟩ :=
    byteSwap_bitOrder Sample.draft_build Sample.project_wellNamed Sample.project_wordBits
  obtain rfl := Except.ok.inj (hlayouts.symm.trans Sample.project_layouts)
  obtain ⟨l, hl, u, hu, f, hf, hg, hb, hspan, hsize, hshift, hlen⟩ :
      ∃ l ∈ Sample.layouts[1]?, ∃ u ∈ l.groups[0]?, ∃ f ∈ l.fields, f.group = some 0 ∧
        f.bitLength = some 11 ∧ u.span = ⟨22, 2⟩ ∧ u.byteSize = 2 ∧ f.shift = 1 ∧
        l.totalSize ≤ (Image.pattern 24).length := by decide +kernel
  obtain ⟨⟨converted, value, h1, h2, h3⟩, -⟩ := horder (by decide +kernel) 1 0 l u hl hu
    (by omega) f hf hg 11 hb (by omega) (by omega) (Image.pattern 24) hlen
  rw [hspan, hshift] at h2
  rw [hspan, hsize, hshift] at h3
  exact ⟨Sample.draft_build, Sample.project_layouts, plans, converted, value, hplans, h1, h2, h3⟩

end RecordSwap
