import Mathlib.Algebra.Group.Nat.Defs
import RecordSwap.Proofs.UnitBits

/-!
# Access to the fields of a storage unit

A unit is a store of its fields: what is put into a field is found there, and nothing else changes.

* `writeUnit_readUnit`, `toNat_readUnit_writeUnit`: a unit and its word.
* `fieldValue_withField`, `withField_fieldValue`, `withField_withField`: one field.
* `fieldValue_withField_of_apart`, `withField_comm`: two fields without a common bit.
* `HasField`: the fields of a span, which lie in the unit at its front.
* `Stored`: what a span is like once a value has been put into one of its fields.
* `fieldAccess_lawful`: the statement about spans of any length.
-/

namespace RecordSwap

/-- Number of bytes in the unit at the front of a span. -/
def unitSize (u : Bytes) : Nat := min u.length unitBytes

/-! ## The word of a unit -/

/-- The bytes behind the unit are not written. -/
theorem drop_writeUnit (u : Bytes) (v : Word) :
    (writeUnit u v).drop unitBytes = u.drop unitBytes := by
  apply List.ext_getElem (by simp)
  intro i hi _
  have hge : ¬ unitBytes + i < unitBytes := by omega
  simp [writeUnit, hge]

/-- Writing a unit's own word changes nothing. -/
theorem writeUnit_readUnit (u : Bytes) : writeUnit u (readUnit u) = u := by
  apply eq_of_bitAt (by simp)
  intro k hk
  rw [length_writeUnit] at hk
  rw [bitAt_writeUnit hk]
  split
  · next hw => exact getLsbD_readUnit u hw
  · rfl

/-- The word that has been written is read as far as the unit can hold it. -/
theorem toNat_readUnit_writeUnit (u : Bytes) (v : Word) :
    (readUnit (writeUnit u v)).toNat = v.toNat % 256 ^ unitSize u := by
  have hpow : 256 ^ unitSize u = 2 ^ (8 * unitSize u) := (Nat.pow_mul 2 8 _).symm
  apply Nat.eq_of_testBit_eq
  intro k
  rw [hpow, Nat.testBit_mod_two_pow, BitVec.testBit_toNat, BitVec.testBit_toNat]
  by_cases hw : k < wordBits
  · rw [getLsbD_readUnit _ hw]
    by_cases hk : k < 8 * u.length
    · have hin : k < 8 * unitSize u := by
        simp only [unitSize, unitBytes, wordBits] at *
        omega
      rw [bitAt_writeUnit hk, if_pos hw, decide_eq_true hin, Bool.true_and]
    · have hout : ¬ k < 8 * unitSize u := by
        simp only [unitSize]
        omega
      rw [bitAt_of_le (by simpa using hk), decide_eq_false hout, Bool.false_and]
  · have hge : 64 ≤ k := Nat.le_of_not_lt hw
    rw [BitVec.getLsbD_of_ge _ _ hge, BitVec.getLsbD_of_ge _ _ hge, Bool.and_false]

/-! ## Fields -/

section
variable {u : Bytes} {s b s' b' : Nat}

theorem drop_withField (u : Bytes) (s b : Nat) (v : Word) :
    (withField u s b v).drop unitBytes = u.drop unitBytes :=
  drop_writeUnit u _

/-- A field holds the lowest bits of what has been put into it. -/
theorem fieldValue_withField (hw : s + b ≤ wordBits) (hu : s + b ≤ 8 * u.length) (v : Word) :
    fieldValue (withField u s b v) s b = BitVec.ofNat 64 (v.toNat % 2 ^ b) := by
  apply BitVec.eq_of_getLsbD_eq
  intro i hi
  rw [getLsbD_fieldValue _ hw, BitVec.getLsbD_ofNat, decide_eq_true hi, Bool.true_and,
    Nat.testBit_mod_two_pow, BitVec.testBit_toNat]
  by_cases hb : i < b
  · rw [bitAt_withField hw (by omega), if_pos (by omega), Nat.add_sub_cancel_left]
  · rw [decide_eq_false hb, Bool.false_and, Bool.false_and]

theorem withField_fieldValue (hw : s + b ≤ wordBits) :
    withField u s b (fieldValue u s b) = u := by
  apply eq_of_bitAt (by simp)
  intro k hk
  rw [length_withField] at hk
  rw [bitAt_withField hw hk]
  split
  · next h =>
    rw [getLsbD_fieldValue _ hw, decide_eq_true (by omega), Bool.true_and,
      Nat.add_sub_cancel' h.1]
  · rfl

/-- What is put into a field last counts. -/
theorem withField_withField (hw : s + b ≤ wordBits) (v w : Word) :
    withField (withField u s b v) s b w = withField u s b w := by
  apply eq_of_bitAt (by simp)
  intro k hk
  simp only [length_withField] at hk
  rw [bitAt_withField hw (by simpa using hk), bitAt_withField hw hk, bitAt_withField hw hk]
  by_cases h : s ≤ k ∧ k < s + b
  · rw [if_pos h, if_pos h]
  · rw [if_neg h, if_neg h, if_neg h]

theorem fieldValue_withField_of_apart (hw : s + b ≤ wordBits) (hw' : s' + b' ≤ wordBits)
    (hu' : s' + b' ≤ 8 * u.length) (hd : s + b ≤ s' ∨ s' + b' ≤ s) (v : Word) :
    fieldValue (withField u s b v) s' b' = fieldValue u s' b' := by
  apply BitVec.eq_of_getLsbD_eq
  intro i _
  rw [getLsbD_fieldValue _ hw', getLsbD_fieldValue _ hw']
  by_cases hb : i < b'
  · rw [bitAt_withField hw (by omega), if_neg (by omega)]
  · rw [decide_eq_false hb, Bool.false_and, Bool.false_and]

theorem withField_comm (hw : s + b ≤ wordBits) (hw' : s' + b' ≤ wordBits)
    (hd : s + b ≤ s' ∨ s' + b' ≤ s) (v w : Word) :
    withField (withField u s b v) s' b' w = withField (withField u s' b' w) s b v := by
  apply eq_of_bitAt (by simp)
  intro k hk
  simp only [length_withField] at hk
  rw [bitAt_withField hw' (by simpa using hk), bitAt_withField hw hk,
    bitAt_withField hw (by simpa using hk), bitAt_withField hw' hk]
  by_cases h : s ≤ k ∧ k < s + b
  · rw [if_pos h, if_pos h, if_neg (by omega)]
  · rw [if_neg h, if_neg h]

end

/-! ## Access -/

/-- A field that is not empty and lies in the unit at the front of a span. -/
structure HasField (u : Bytes) (s b : Nat) : Prop where
  pos : 1 ≤ b
  le : s + b ≤ 8 * unitSize u

namespace HasField

variable {u u' : Bytes} {s b s' b' : Nat}

theorem le_length (h : HasField u s b) : s + b ≤ 8 * u.length := by
  have := h.le
  unfold unitSize at this
  omega

theorem le_wordBits (h : HasField u s b) : s + b ≤ wordBits := by
  have := h.le
  simp only [unitSize, unitBytes, wordBits] at *
  omega

theorem fits (h : HasField u s b) : fieldFits s b = .ok true := by
  have hw := h.le_wordBits
  have hb := h.pos
  rw [fieldFits_eq_ok (Nat.lt_of_le_of_lt hw (by decide)), decide_eq_true (by omega)]

theorem extract_eq (h : HasField u s b) : extractField u s b = .ok (some (fieldValue u s b)) := by
  rw [extractField, h.fits]
  rfl

theorem insert_eq (h : HasField u s b) (v : Word) :
    insertField u s b v = .ok (withField u s b v) := by
  rw [insertField, h.fits]
  rfl

theorem of_length (h : HasField u s b) (hl : u'.length = u.length) : HasField u' s b :=
  ⟨h.pos, by rw [unitSize, hl]; exact h.le⟩

theorem withField (h : HasField u s b) (s' b' : Nat) (v : Word) :
    HasField (withField u s' b' v) s b :=
  h.of_length (length_withField u s' b' v)

end HasField

/-- The span that `u` becomes when `v` is put into its field of `b` bits at bit `s`. -/
structure Stored (u : Bytes) (s b : Nat) (v : Word) (u' : Bytes) : Prop where
  length : u'.length = u.length
  /-- The bytes behind the unit stay as they are. -/
  rest : u'.drop unitBytes = u.drop unitBytes
  value : extractField u' s b = .ok (some (BitVec.ofNat 64 (v.toNat % 2 ^ b)))
  /-- Nothing is left of `v` when the field is set again. -/
  again : ∀ w, insertField u' s b w = insertField u s b w
  /-- A field without a common bit keeps its value. -/
  other : ∀ {s' b' : Nat}, HasField u s' b' → s + b ≤ s' ∨ s' + b' ≤ s →
    extractField u' s' b' = extractField u s' b'
  /-- It makes no difference which of two such fields is set first. -/
  comm : ∀ {s' b' : Nat}, HasField u s' b' → s + b ≤ s' ∨ s' + b' ≤ s → ∀ w, ∃ both,
    insertField u' s' b' w = .ok both ∧
      (insertField u s' b' w >>= fun u'' => insertField u'' s b v) = .ok both

theorem HasField.stored {u : Bytes} {s b : Nat} (h : HasField u s b) (v : Word) :
    Stored u s b v (RecordSwap.withField u s b v) where
  length := length_withField u s b v
  rest := drop_withField u s b v
  value := by
    rw [(h.withField s b v).extract_eq, fieldValue_withField h.le_wordBits h.le_length]
  again w := by
    rw [(h.withField s b v).insert_eq, h.insert_eq, withField_withField h.le_wordBits]
  other h' hd := by
    rw [(h'.withField s b v).extract_eq, h'.extract_eq,
      fieldValue_withField_of_apart h.le_wordBits h'.le_wordBits h'.le_length hd]
  comm {s' b'} h' hd w := by
    refine ⟨_, (h'.withField s b v).insert_eq w, ?_⟩
    rw [h'.insert_eq, Checked.ok_bind, (h.withField s' b' w).insert_eq,
      withField_comm h.le_wordBits h'.le_wordBits hd]

/-- **Storage units are stores of their fields.** For every span: putting the value of a field back
changes nothing, any other value is kept as far as it fits and changes nothing else, and the unit as
a whole is determined by its word. -/
theorem fieldAccess_lawful (u : Bytes) :
    (∀ {s b : Nat}, HasField u s b →
      (∃ x, extractField u s b = .ok (some x) ∧ insertField u s b x = .ok u) ∧
        ∀ v, ∃ u', insertField u s b v = .ok u' ∧ Stored u s b v u') ∧
      writeUnit u (readUnit u) = u ∧
        ∀ w, (writeUnit u w).length = u.length ∧
          (writeUnit u w).drop unitBytes = u.drop unitBytes ∧
          (readUnit (writeUnit u w)).toNat = w.toNat % 256 ^ unitSize u := by
  refine ⟨fun h => ⟨⟨_, h.extract_eq, ?_⟩, fun v => ⟨_, h.insert_eq v, h.stored v⟩⟩,
    writeUnit_readUnit u, fun w => ⟨length_writeUnit u w, drop_writeUnit u w,
      toNat_readUnit_writeUnit u w⟩⟩
  rw [h.insert_eq, withField_fieldValue h.le_wordBits]

namespace Sample

/-- A span of nine bytes, one more than its unit. -/
def nineBytes : Bytes := [0xC5, 0xAB, 0x01, 0x00, 0xFF, 0x10, 0x32, 0x54, 0x76]

end Sample

/-- The unit of a span of nine bytes, with a field of 60 bits and one of 4 bits that ends at the last
bit of the word. -/
theorem fieldAccess_lawful_sample :
    HasField Sample.nineBytes 0 60 ∧ HasField Sample.nineBytes 60 4 ∧ ∃ u' both,
      insertField Sample.nineBytes 60 4 0x1E = .ok u' ∧ Stored Sample.nineBytes 60 4 0x1E u' ∧
      u' = [0xC5, 0xAB, 0x01, 0x00, 0xFF, 0x10, 0x32, 0xE4, 0x76] ∧
      extractField u' 0 60 = extractField Sample.nineBytes 0 60 ∧
      insertField u' 0 60 1 = .ok both ∧ both = [1, 0, 0, 0, 0, 0, 0, 0xE0, 0x76] := by
  have hlow : HasField Sample.nineBytes 0 60 := ⟨by decide, by decide⟩
  have hhigh : HasField Sample.nineBytes 60 4 := ⟨by decide, by decide⟩
  obtain ⟨hfields, -⟩ := fieldAccess_lawful Sample.nineBytes
  obtain ⟨-, hstore⟩ := hfields hhigh
  obtain ⟨u', hu', hstored⟩ := hstore 0x1E
  obtain ⟨both, hboth, -⟩ := hstored.comm hlow (.inr (by decide)) 1
  have hvalue : insertField Sample.nineBytes 60 4 0x1E =
      .ok [0xC5, 0xAB, 0x01, 0x00, 0xFF, 0x10, 0x32, 0xE4, 0x76] := rfl
  have hthen : insertField [0xC5, 0xAB, 0x01, 0x00, 0xFF, 0x10, 0x32, 0xE4, 0x76] 0 60 1 =
      .ok [1, 0, 0, 0, 0, 0, 0, 0xE0, 0x76] := rfl
  obtain rfl := Except.ok.inj (hvalue.symm.trans hu')
  exact ⟨hlow, hhigh, _, both, hu', hstored, rfl, hstored.other hlow (.inr (by decide)), hboth,
    Except.ok.inj (hboth.symm.trans hthen)⟩

end RecordSwap
