import RecordSwap.Proofs.BitOrder
import RecordSwap.Proofs.Sharing

/-!
# The order of bytes in a storage unit

A word is read from the foreign image with its first byte as the most significant one. A storage
unit is not: it is turned end for end with all its bits, so that its bit-fields are found from the
highest bit down when its first byte is still the least significant one.

* `littleEndian`, `bigEndian`: the two ways to read a span, bit by bit in `testBit_littleEndian` and
  `testBit_bigEndian`.
* `BitField.Turned`: where the value of a bit-field stands in a unit that has been turned.
* `Project.Sound.byteSwap_unit`: the bytes of a storage unit after the byte swap of its record.
* `Draft.byteSwap_byteOrder`: the statement about built projects.
* `Draft.byteSwap_not_bigEndian`: in a unit of two bytes, the value is not found with the first byte
  as the most significant one.
-/

namespace RecordSwap

/-! ## Reading a span as a number -/

/-- The number in a span whose first byte is the least significant one. -/
def littleEndian : Bytes → Nat
  | [] => 0
  | b :: u => 2 ^ 8 * littleEndian u + b.toNat

/-- The number in a span whose first byte is the most significant one. -/
def bigEndian (u : Bytes) : Nat := littleEndian u.reverse

theorem testBit_littleEndian (u : Bytes) (k : Nat) : (littleEndian u).testBit k = bitAt u k := by
  induction u generalizing k with
  | nil => simp [littleEndian, bitAt]
  | cons b u ih =>
    rw [littleEndian, Nat.testBit_two_pow_mul_add _ b.toNat_lt]
    split
    · next h =>
      rw [bitAt_cons_low b u h]
      rfl
    · next h => rw [bitAt_cons_high b u (by omega), ih]

/-- The same bit of the byte that is as far from the other end of a span of `n` bytes. -/
def oppositeBit (n k : Nat) : Nat := 8 * (n - 1 - k / 8) + k % 8

theorem oppositeBit_lt {n k : Nat} (h : k < 8 * n) : oppositeBit n k < 8 * n := by
  unfold oppositeBit
  omega

theorem oppositeBit_oppositeBit {n k : Nat} (h : k < 8 * n) :
    oppositeBit n (oppositeBit n k) = k := by
  unfold oppositeBit
  omega

/-- Only the byte in the middle is opposite to itself. -/
theorem oppositeBit_eq_self {n k : Nat} (h : 2 * (k / 8) + 1 = n) : oppositeBit n k = k := by
  unfold oppositeBit
  omega

theorem bitAt_reverse {u : Bytes} {k : Nat} (h : k < 8 * u.length) :
    bitAt u.reverse k = bitAt u (oppositeBit u.length k) := by
  unfold oppositeBit
  rw [bitAt, bitAt, List.getElem?_reverse (by omega),
    show (8 * (u.length - 1 - k / 8) + k % 8) / 8 = u.length - 1 - k / 8 by omega,
    show (8 * (u.length - 1 - k / 8) + k % 8) % 8 = k % 8 by omega]

theorem testBit_bigEndian {u : Bytes} {k : Nat} (h : k < 8 * u.length) :
    (bigEndian u).testBit k = bitAt u (oppositeBit u.length k) := by
  rw [bigEndian, testBit_littleEndian, bitAt_reverse h]

theorem toNat_fieldValue (u : Bytes) {s b : Nat} (h : s + b ≤ wordBits) :
    (fieldValue u s b).toNat = littleEndian u / 2 ^ s % 2 ^ b := by
  apply Nat.eq_of_testBit_eq
  intro i
  have hi : (fieldValue u s b).toNat.testBit i = _ := getLsbD_fieldValue u h
  rw [hi, Nat.testBit_mod_two_pow, Nat.testBit_div_two_pow, testBit_littleEndian, Nat.add_comm i s]

/-! ## Turned bit-fields -/

/-- What becomes of a bit-field of `b` bits at bit `s` of a unit of `n` bytes when its record is
converted to the foreign byte order. -/
structure BitField.Turned (n s b : Nat) (unit converted : Bytes) : Prop where
  length : converted.length = n
  /-- With the first byte as the least significant one, bits are counted from the highest one. -/
  lowFirst : littleEndian converted / 2 ^ (8 * n - s - b) % 2 ^ b = (fieldValue unit s b).toNat
  /-- With the first byte as the most significant one, every byte stands in the opposite place. -/
  highFirst : ∀ i < b, (bigEndian converted).testBit (oppositeBit n (8 * n - s - b + i)) =
    (fieldValue unit s b).getLsbD i
  /-- The two readings agree in the middle byte, and so in a unit of a single byte. -/
  middle : (∀ i < b, 2 * ((8 * n - s - b + i) / 8) + 1 = n) →
    bigEndian converted / 2 ^ (8 * n - s - b) % 2 ^ b = (fieldValue unit s b).toNat

theorem BitField.turned {a stop bits : Nat} {fs : List FieldLayout} (hr : BitRun a stop fs)
    {f : FieldLayout} (hf : f ∈ fs) (hb : f.bitLength = some bits) {u : Bytes}
    (hu : u.length ≤ unitBytes) (hin : f.shift + bits ≤ 8 * u.length) :
    Turned u.length f.shift bits u (applyTurns (unitTurns .localToForeign fs) u) := by
  have hvalue := fieldValue_localToForeign hr hf hb hu hin
  have hlen : (applyTurns (unitTurns .localToForeign fs) u).length = u.length :=
    length_applyTurns _ u
  generalize applyTurns (unitTurns .localToForeign fs) u = converted at hvalue hlen
  have hw : 8 * u.length - f.shift - bits + bits ≤ wordBits := by
    simp only [unitBytes, wordBits] at *
    omega
  have hbig : ∀ i < bits,
      (bigEndian converted).testBit (oppositeBit u.length (8 * u.length - f.shift - bits + i)) =
        (fieldValue u f.shift bits).getLsbD i := by
    intro i hi
    have hk : 8 * u.length - f.shift - bits + i < 8 * u.length := by omega
    rw [testBit_bigEndian (by rw [hlen]; exact oppositeBit_lt hk), hlen, oppositeBit_oppositeBit hk,
      ← hvalue, getLsbD_fieldValue _ hw, decide_eq_true hi, Bool.true_and]
  refine ⟨hlen, by rw [← hvalue, toNat_fieldValue _ hw], hbig, fun hmiddle => ?_⟩
  apply Nat.eq_of_testBit_eq
  intro i
  rw [Nat.testBit_mod_two_pow, Nat.testBit_div_two_pow, Nat.add_comm i]
  by_cases hi : i < bits
  · rw [decide_eq_true hi, Bool.true_and, ← oppositeBit_eq_self (hmiddle i hi)]
    exact hbig i hi
  · have hnone : (fieldValue u f.shift bits).getLsbD i = false := by
      rw [← hvalue, getLsbD_fieldValue _ hw]
      simp [hi]
    rw [decide_eq_false hi, Bool.false_and]
    exact hnone.symm

/-! ## Records -/

/-- The bytes of a storage unit after the byte swap of its record. -/
theorem Project.Sound.byteSwap_unit {p : Project} {layouts : List Layout} (h : p.Sound layouts)
    (direction : Direction) {index g : Nat} {l : Layout} (hl : layouts[index]? = some l)
    (hd : l.SpansDisjoint) {u : UnitLayout} (hu : l.groups[g]? = some u) {image : Image}
    (hlen : l.totalSize ≤ image.length) :
    ∃ converted, (p.planned layouts).byteSwap direction index image = .ok converted ∧
      converted.part u.span =
        applyTurns (unitTurns direction (l.sharing g)) (image.part u.span) := by
  obtain ⟨pieces, hc⟩ := h.consists l (List.mem_of_getElem? hl)
  obtain ⟨hq, -⟩ := hc.unit_sharing hu
  exact ⟨_, h.runnable.byteSwap_eq direction index image,
    h.part_unit direction hl hc hd hq hlen⟩

/-- **Byte order of storage units.** Every built project whose records have distinct names and whose
primitives are not named like records has plans. If no two members or storage units of a record
share a byte, every bit-field of a unit of at most eight bytes is found in the foreign image where
`BitField.Turned` says. -/
theorem Draft.byteSwap_byteOrder {d : Draft} {p : Project} (h : d.build = .ok p)
    (hn : p.WellNamed) (hw : p.WordBits) :
    ∃ layouts plans, p.layouts = .ok layouts ∧ Plans.ofLayouts p layouts = .ok plans ∧
      ((∀ l ∈ layouts, l.SpansDisjoint) → ∀ (index g : Nat) (l : Layout) (u : UnitLayout),
        layouts[index]? = some l → l.groups[g]? = some u → u.byteSize ≤ 8 →
        ∀ f ∈ l.fields, f.group = some g → ∀ bits, f.bitLength = some bits →
          f.shift + bits ≤ 8 * u.byteSize →
        ∀ image : Image, l.totalSize ≤ image.length →
          ∃ converted, plans.byteSwap .localToForeign index image = .ok converted ∧
            BitField.Turned u.byteSize f.shift bits (image.part u.span)
              (converted.part u.span)) := by
  obtain ⟨layouts, hlayouts, hall⟩ := exists_layouts h hn.nodup
  have hs := sound_layouts h hn hw hall
  refine ⟨layouts, p.planned layouts, hlayouts, hs.ofLayouts_eq, ?_⟩
  intro hd index g l u hl hu hsize f hf hg bits hb hfits image hlen
  have hm := List.mem_of_getElem? hl
  obtain ⟨converted, hconverted, hpart⟩ :=
    hs.byteSwap_unit .localToForeign hl (hd l hm) hu hlen
  obtain ⟨pieces, hc⟩ := hs.consists l hm
  obtain ⟨hq, -⟩ := hc.unit_sharing hu
  have hunit : Piece.UnitSound _ u (l.sharing g) := hc.sound _ hq
  have hin := hc.inside _ hq
  have hbytes : (image.part u.span).length = u.byteSize :=
    Image.length_part (s := u.span) (by simp only [Piece.span] at hin; omega)
  have hmem : f ∈ l.sharing g := List.mem_filter.2 ⟨hf, by simpa using hg⟩
  refine ⟨converted, hconverted, ?_⟩
  rw [hpart, ← hbytes]
  exact BitField.turned hunit.run hmem hb (by rwa [hbytes]) (by rwa [hbytes])

/-- A bit-field that crosses a byte boundary behind a single bit. -/
theorem Draft.byteSwap_byteOrder_sample :
    Sample.draft.build = .ok Sample.project ∧ Sample.project.layouts = .ok Sample.layouts ∧
      ∃ plans converted, Plans.ofLayouts Sample.project Sample.layouts = .ok plans ∧
        plans.byteSwap .localToForeign 1 (Image.pattern 24) = .ok converted ∧
        BitField.Turned 2 1 11 ((Image.pattern 24).part ⟨22, 2⟩) (converted.part ⟨22, 2⟩) := by
  obtain ⟨layouts, plans, hlayouts, hplans, horder⟩ :=
    byteSwap_byteOrder Sample.draft_build Sample.project_wellNamed Sample.project_wordBits
  obtain rfl := Except.ok.inj (hlayouts.symm.trans Sample.project_layouts)
  obtain ⟨l, hl, u, hu, f, hf, hg, hb, hspan, hsize, hshift, hlen⟩ :
      ∃ l ∈ Sample.layouts[1]?, ∃ u ∈ l.groups[0]?, ∃ f ∈ l.fields, f.group = some 0 ∧
        f.bitLength = some 11 ∧ u.span = ⟨22, 2⟩ ∧ u.byteSize = 2 ∧ f.shift = 1 ∧
        l.totalSize ≤ (Image.pattern 24).length := by decide +kernel
  obtain ⟨converted, hconverted, hturned⟩ := horder (by decide +kernel) 1 0 l u hl hu
    (by omega) f hf hg 11 hb (by omega) (Image.pattern 24) hlen
  rw [hspan, hsize, hshift] at hturned
  exact ⟨Sample.draft_build, Sample.project_layouts, plans, converted, hplans, hconverted, hturned⟩

/-- With the first byte as the most significant one, the bits from `8 n - s - bits` on are not the
value of the bit-field. -/
theorem Draft.byteSwap_not_bigEndian :
    Sample.draft.build = .ok Sample.project ∧ Sample.project.WellNamed ∧ Sample.project.WordBits ∧
      Sample.project.layouts = .ok Sample.layouts ∧ (∀ l ∈ Sample.layouts, l.SpansDisjoint) ∧
      ∃ (plans : Plans) (l : Layout) (u : UnitLayout) (f : FieldLayout) (converted : Image),
        Plans.ofLayouts Sample.project Sample.layouts = .ok plans ∧
        Sample.layouts[1]? = some l ∧ l.groups[0]? = some u ∧ u.span = ⟨22, 2⟩ ∧
        f ∈ l.fields ∧ f.group = some 0 ∧ f.shift = 1 ∧ f.bitLength = some 11 ∧
        l.totalSize ≤ (Image.pattern 24).length ∧
        plans.byteSwap .localToForeign 1 (Image.pattern 24) = .ok converted ∧
        bigEndian (converted.part u.span) / 2 ^ (8 * 2 - 1 - 11) % 2 ^ 11 ≠
          (fieldValue ((Image.pattern 24).part u.span) 1 11).toNat := by
  have hd : ∀ l ∈ Sample.layouts, l.SpansDisjoint := by decide +kernel
  obtain ⟨layouts, hlayouts, hall⟩ :=
    exists_layouts Sample.draft_build Sample.project_wellNamed.nodup
  obtain rfl := Except.ok.inj (hlayouts.symm.trans Sample.project_layouts)
  have hs := sound_layouts Sample.draft_build Sample.project_wellNamed Sample.project_wordBits hall
  obtain ⟨l, hl, u, hu, f, hf, hg, hshift, hb, hspan, hlen, hturns⟩ :
      ∃ l ∈ Sample.layouts[1]?, ∃ u ∈ l.groups[0]?, ∃ f ∈ l.fields, f.group = some 0 ∧
        f.shift = 1 ∧ f.bitLength = some 11 ∧ u.span = ⟨22, 2⟩ ∧
        l.totalSize ≤ (Image.pattern 24).length ∧
        unitTurns .localToForeign (l.sharing 0) = [.mirror 1 11, .reflect] := by decide +kernel
  obtain ⟨converted, hconverted, hpart⟩ :=
    hs.byteSwap_unit .localToForeign hl (hd l (List.mem_of_getElem? hl)) hu hlen
  have hunit : (Image.pattern 24).part ⟨22, 2⟩ = [57, 94] := by decide +kernel
  have hvalue : bigEndian (converted.part u.span) / 2 ^ (8 * 2 - 1 - 11) % 2 ^ 11 ≠
      (fieldValue ((Image.pattern 24).part u.span) 1 11).toNat := by
    rw [hpart, hspan, hunit, hturns]
    decide +kernel
  exact ⟨Sample.draft_build, Sample.project_wellNamed, Sample.project_wordBits,
    Sample.project_layouts, hd, _, l, u, f, converted, hs.ofLayouts_eq, hl, hu, hspan, hf, hg,
    hshift, hb, hlen, hconverted, hvalue⟩

end RecordSwap
