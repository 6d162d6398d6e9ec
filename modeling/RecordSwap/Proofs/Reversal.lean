import Mathlib.Algebra.Group.Nat.Defs
import RecordSwap.Proofs.UnitBits

/-!
# Reversal of bits

Reflecting a span of bytes and mirroring the lowest bits of a word are one operation on bits.

* `EndForEnd`: a row of bits that holds the first bits of another one in the opposite order.
* `endForEnd_reflect`, `endForEnd_mirror`: so do the two operations, which determines their results.
* `readUnit_reflect`: the word of a reflected span is the mirrored word of the span.
* `toNat_mirror_mirror`: mirroring again gives back the bits that are not dropped.
* `reversal_exact`: the statement about all spans, words and widths.
-/

namespace RecordSwap

/-- The first `n` bits of one row stand in the other one end for end, and no bit is set behind
them. -/
def EndForEnd (n : Nat) (bits turned : Nat → Bool) : Prop :=
  ∀ k, turned k = (decide (k < n) && bits (n - 1 - k))

namespace EndForEnd

variable {n : Nat} {bits turned again : Nat → Bool}

theorem unique (h : EndForEnd n bits turned) (h' : EndForEnd n bits again) : turned = again :=
  funext fun k => (h k).trans (h' k).symm

/-- Turned twice, the first `n` bits stand as before. -/
theorem twice (h : EndForEnd n bits turned) (h' : EndForEnd n turned again) (k : Nat) :
    again k = (decide (k < n) && bits k) := by
  rw [h' k, h (n - 1 - k)]
  by_cases hk : k < n
  · rw [show n - 1 - (n - 1 - k) = k by omega, decide_eq_true (show n - 1 - k < n by omega),
      Bool.true_and]
  · rw [decide_eq_false hk, Bool.false_and, Bool.false_and]

end EndForEnd

/-! ## Spans -/

section
variable {u : Bytes} (hu : u.length ≤ unitBytes)
include hu

theorem endForEnd_reflect : EndForEnd (8 * u.length) (bitAt u) (bitAt (reflect u)) := by
  intro k
  by_cases hk : k < 8 * u.length
  · rw [bitAt_reflect hu hk, decide_eq_true hk, Bool.true_and]
  · rw [bitAt_of_le (by simpa using hk), decide_eq_false hk, Bool.false_and]

/-- A short span and its word have the same bits. -/
theorem getLsbD_readUnit_short : (readUnit u).getLsbD = bitAt u := by
  funext k
  by_cases hk : k < wordBits
  · exact getLsbD_readUnit u hk
  · have hword : 64 ≤ k := Nat.le_of_not_lt hk
    have hspan : 8 * u.length ≤ k := by
      unfold unitBytes at hu
      omega
    rw [BitVec.getLsbD_of_ge _ _ hword, bitAt_of_le hspan]

end

/-! ## Words -/

/-- A word has no more bits to mirror than `wordBits`. -/
theorem mirror_of_wide (v : Word) {width : Nat} (h : wordBits ≤ width) :
    mirror v width = mirror v wordBits := by
  have hpos : width ≠ 0 := Nat.ne_of_gt (Nat.lt_of_lt_of_le (by decide) h)
  rw [mirror, mirror, if_neg hpos, if_neg (by decide), Nat.sub_eq_zero_of_le h, Nat.sub_self]

theorem mirror_min (v : Word) (width : Nat) : mirror v (min width wordBits) = mirror v width := by
  rcases Nat.le_total width wordBits with h | h
  · rw [Nat.min_eq_left h]
  · rw [Nat.min_eq_right h, mirror_of_wide v h]

theorem getLsbD_mirror_of_le (v : Word) {width k : Nat} (hw : width ≤ wordBits) (hk : width ≤ k) :
    (mirror v width).getLsbD k = false := by
  unfold wordBits at hw
  by_cases hzero : width = 0
  · rw [mirror, if_pos hzero]
    exact BitVec.getLsbD_zero
  · rw [mirror, if_neg hzero, BitVec.getLsbD_ushiftRight, wordBits,
      BitVec.getLsbD_of_ge _ _ (by omega)]

theorem endForEnd_mirror (v : Word) (width : Nat) :
    EndForEnd (min width wordBits) v.getLsbD (mirror v width).getLsbD := by
  intro k
  have hw : min width wordBits ≤ wordBits := Nat.min_le_right _ _
  rw [← mirror_min]
  by_cases hk : k < min width wordBits
  · rw [getLsbD_mirror v hw hk, decide_eq_true hk, Bool.true_and]
  · rw [getLsbD_mirror_of_le v hw (Nat.le_of_not_lt hk), decide_eq_false hk, Bool.false_and]

/-- Mirroring again gives back the bits that are not dropped. -/
theorem toNat_mirror_mirror (v : Word) (width : Nat) :
    (mirror (mirror v width) width).toNat = v.toNat % 2 ^ min width wordBits := by
  apply Nat.eq_of_testBit_eq
  intro k
  rw [Nat.testBit_mod_two_pow, BitVec.testBit_toNat, BitVec.testBit_toNat]
  exact (endForEnd_mirror v width).twice (endForEnd_mirror _ width) k

/-- The word of a reflected span is the mirrored word of the span. -/
theorem readUnit_reflect {u : Bytes} (hu : u.length ≤ unitBytes) :
    readUnit (reflect u) = mirror (readUnit u) (8 * u.length) := by
  have hword : 8 * u.length ≤ wordBits := by
    simp only [unitBytes, wordBits] at *
    omega
  have hmirror := endForEnd_mirror (readUnit u) (8 * u.length)
  rw [Nat.min_eq_left hword, getLsbD_readUnit_short hu] at hmirror
  have hspan : (readUnit (reflect u)).getLsbD = bitAt (reflect u) :=
    getLsbD_readUnit_short (by simpa using hu)
  apply BitVec.eq_of_getLsbD_eq
  intro k _
  rw [hspan, (endForEnd_reflect hu).unique hmirror]

/-! ## The statement -/

/-- **Reflection and mirroring are one reversal of bits.** A span of at most eight bytes is turned
end for end, and its word is mirrored; a longer one stays as it is. The lowest bits of a word, as
many as the width says and the word has, are turned end for end, and the others are dropped. Twice,
reflection changes no span and mirroring keeps the bits that it turns. -/
theorem reversal_exact :
    (∀ u : Bytes, (reflect u).length = u.length ∧ reflect (reflect u) = u ∧
      (u.length ≤ unitBytes → EndForEnd (8 * u.length) (bitAt u) (bitAt (reflect u)) ∧
        readUnit (reflect u) = mirror (readUnit u) (8 * u.length)) ∧
      (unitBytes < u.length → reflect u = u)) ∧
    ∀ (v : Word) (width : Nat),
      EndForEnd (min width wordBits) v.getLsbD (mirror v width).getLsbD ∧
        (mirror (mirror v width) width).toNat = v.toNat % 2 ^ min width wordBits :=
  ⟨fun u => ⟨length_reflect u, reflect_reflect u,
      fun hu => ⟨endForEnd_reflect hu, readUnit_reflect hu⟩, reflect_of_long⟩,
    fun v width => ⟨endForEnd_mirror v width, toNat_mirror_mirror v width⟩⟩

/-- A span of three bytes, one of nine bytes, and a word mirrored over eleven bits and over more than
it has. -/
theorem reversal_exact_sample :
    reflect [0x12, 0x34, 0xA5] = [0xA5, 0x2C, 0x48] ∧
      EndForEnd 24 (bitAt [0x12, 0x34, 0xA5]) (bitAt [0xA5, 0x2C, 0x48]) ∧
      mirror 0xA53412 24 = 0x482CA5 ∧
      reflect [1, 2, 3, 4, 5, 6, 7, 8, 9] = [1, 2, 3, 4, 5, 6, 7, 8, 9] ∧
      (mirror (mirror 0xA53412 11) 11).toNat = 0x412 ∧
      (mirror (mirror 0xA53412 80) 80).toNat = 0xA53412 := by
  obtain ⟨hspans, hwords⟩ := reversal_exact
  obtain ⟨-, -, hshort, -⟩ := hspans [0x12, 0x34, 0xA5]
  obtain ⟨-, -, -, hlong⟩ := hspans [1, 2, 3, 4, 5, 6, 7, 8, 9]
  obtain ⟨hturned, hword⟩ := hshort (by decide)
  obtain ⟨-, heleven⟩ := hwords 0xA53412 11
  obtain ⟨-, hwide⟩ := hwords 0xA53412 80
  have hreflect : reflect [0x12, 0x34, 0xA5] = [0xA5, 0x2C, 0x48] := by decide
  have hbefore : readUnit [0x12, 0x34, 0xA5] = 0xA53412 := by decide
  have hafter : readUnit [0xA5, 0x2C, 0x48] = 0x482CA5 := by decide
  rw [hreflect] at hturned hword
  rw [hbefore, hafter] at hword
  exact ⟨hreflect, hturned, hword.symm, hlong (by decide), heleven, hwide⟩

end RecordSwap
