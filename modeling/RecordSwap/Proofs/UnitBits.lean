import RecordSwap.Bits

/-!
# Storage units bit by bit

A unit is determined by its length and its bits (`eq_of_bitAt`), and each operation on units moves
bits around:

* `bitAt_reflect`: `reflect` sends bit `k` of an `n`-byte span to bit `8n - 1 - k`.
* `getLsbD_readUnit`, `bitAt_writeUnit`: a word holds the first 64 bits of the unit.
* `getLsbD_fieldValue`, `bitAt_withField`: one field of a unit.
* `turnField`: what `mirrorField` computes where it computes anything (`mirrorField_eq_ok`). It
  turns the bits of the field end for end and keeps the others (`bitAt_turnField`), so that it is
  its own inverse (`turnField_turnField`) and disjoint fields can be turned in any order
  (`turnField_comm`).
-/

namespace RecordSwap

/-- Bit `k` of a span; there is none past its end. -/
def bitAt (u : Bytes) (k : Nat) : Bool := (u[k / 8]?).any fun b => b.toBitVec.getLsbD (k % 8)

theorem bitAt_of_le {u : Bytes} {k : Nat} (h : 8 * u.length ≤ k) : bitAt u k = false := by
  rw [bitAt, List.getElem?_eq_none (by omega)]
  rfl

theorem bitAt_cons_low (b : UInt8) (u : Bytes) {k : Nat} (h : k < 8) :
    bitAt (b :: u) k = b.toBitVec.getLsbD k := by
  rw [bitAt, show k / 8 = 0 by omega, show k % 8 = k by omega]
  rfl

theorem bitAt_cons_high (b : UInt8) (u : Bytes) {k : Nat} (h : 8 ≤ k) :
    bitAt (b :: u) k = bitAt u (k - 8) := by
  rw [bitAt, bitAt, show k / 8 = (k - 8) / 8 + 1 by omega, show (k - 8) % 8 = k % 8 by omega,
    List.getElem?_cons_succ]

theorem bitAt_take {u : Bytes} {n k : Nat} (h : k < 8 * n) : bitAt (u.take n) k = bitAt u k := by
  rw [bitAt, bitAt, List.getElem?_take, if_pos (by omega)]

theorem eq_of_bitAt {u v : Bytes} (hl : u.length = v.length)
    (h : ∀ k < 8 * u.length, bitAt u k = bitAt v k) : u = v := by
  apply List.ext_getElem hl
  intro i hu hv
  apply UInt8.toBitVec_inj.1
  apply BitVec.eq_of_getLsbD_eq
  intro j hj
  have hk := h (8 * i + j) (by omega)
  simpa [bitAt, show (8 * i + j) / 8 = i by omega, show (8 * i + j) % 8 = j by omega, hu, hv]
    using hk

/-! ## Spans -/

theorem getLsbD_reverseByte (b : UInt8) {j : Nat} (h : j < 8) :
    (reverseByte b).toBitVec.getLsbD j = b.toBitVec.getLsbD (7 - j) := by
  show b.toBitVec.reverse.getLsbD j = _
  rw [BitVec.getLsbD_reverse, BitVec.getMsbD_eq_getLsbD, decide_eq_true h, Bool.true_and]

@[simp] theorem length_reflect (u : Bytes) : (reflect u).length = u.length := by
  unfold reflect
  split <;> simp

/-- Reflection turns the bits of a short span end for end. -/
theorem bitAt_reflect {u : Bytes} {k : Nat} (hu : u.length ≤ unitBytes) (hk : k < 8 * u.length) :
    bitAt (reflect u) k = bitAt u (8 * u.length - 1 - k) := by
  have hi : k / 8 < u.length := by omega
  have hr : (reflect u)[k / 8]? = some (reverseByte u[u.length - 1 - k / 8]) := by
    rw [reflect, if_pos hu, List.getElem?_map, List.getElem?_reverse hi,
      List.getElem?_eq_getElem (by omega)]
    rfl
  rw [bitAt, hr, bitAt, show (8 * u.length - 1 - k) / 8 = u.length - 1 - k / 8 by omega,
    List.getElem?_eq_getElem (by omega), show (8 * u.length - 1 - k) % 8 = 7 - k % 8 by omega]
  exact getLsbD_reverseByte _ (by omega)

theorem reflect_of_long {u : Bytes} (h : unitBytes < u.length) : reflect u = u :=
  if_neg (by omega)

theorem reflect_reflect (u : Bytes) : reflect (reflect u) = u := by
  by_cases hu : u.length ≤ unitBytes
  · apply eq_of_bitAt (by simp)
    intro k hk
    simp only [length_reflect] at hk
    rw [bitAt_reflect (by simpa using hu) (by simpa using hk), length_reflect,
      bitAt_reflect hu (by omega)]
    congr 1
    omega
  · rw [reflect_of_long (u := u) (by omega), reflect_of_long (by omega)]

/-! ## Words -/

theorem getLsbD_foldr (u : Bytes) {k : Nat} (hk : k < wordBits) :
    (u.foldr (fun b (word : Word) => (word <<< 8) ||| b.toBitVec.setWidth 64) 0).getLsbD k =
      bitAt u k := by
  unfold wordBits at hk
  induction u generalizing k with
  | nil => simp [bitAt]
  | cons b u ih =>
    rw [List.foldr_cons, BitVec.getLsbD_or, BitVec.getLsbD_shiftLeft, BitVec.getLsbD_setWidth]
    by_cases h : k < 8
    · simp [h, hk, bitAt_cons_low]
    · rw [ih (k := k - 8) (by omega), bitAt_cons_high b u (by omega)]
      simp [h, hk, show 8 ≤ k by omega]

theorem getLsbD_readUnit (u : Bytes) {k : Nat} (hk : k < wordBits) :
    (readUnit u).getLsbD k = bitAt u k := by
  rw [readUnit, getLsbD_foldr _ hk, bitAt_take]
  simpa [wordBits, unitBytes] using hk

@[simp] theorem length_writeUnit (u : Bytes) (v : Word) : (writeUnit u v).length = u.length := by
  simp [writeUnit]

theorem bitAt_writeUnit {u : Bytes} {v : Word} {k : Nat} (hk : k < 8 * u.length) :
    bitAt (writeUnit u v) k = if k < wordBits then v.getLsbD k else bitAt u k := by
  have hi : k / 8 < u.length := by omega
  rw [bitAt, writeUnit, List.getElem?_mapIdx, List.getElem?_eq_getElem hi]
  by_cases h : k < 64
  · have h8 : k / 8 < 8 := by omega
    simp [unitBytes, wordBits, h, h8, show 8 * (k / 8) + k % 8 = k by omega,
      show k % 8 < 8 by omega]
  · have h8 : ¬ k / 8 < 8 := by omega
    simp [unitBytes, wordBits, h, h8, bitAt, List.getElem?_eq_getElem hi]

/-! ## Fields -/

theorem getLsbD_fieldMask (b : Nat) {i : Nat} (hi : i < wordBits) :
    (fieldMask b).getLsbD i = decide (i < b) := by
  unfold wordBits at hi
  rw [fieldMask, BitVec.getLsbD_ushiftRight, BitVec.getLsbD_allOnes, wordBits]
  congr 1
  exact propext ⟨fun h => by omega, fun h => by omega⟩

/-- The value of a field, bit by bit. -/
theorem getLsbD_fieldValue (u : Bytes) {s b i : Nat} (h : s + b ≤ wordBits) :
    (fieldValue u s b).getLsbD i = (decide (i < b) && bitAt u (s + i)) := by
  by_cases hi : i < b
  · rw [fieldValue, BitVec.getLsbD_and, BitVec.getLsbD_ushiftRight, getLsbD_readUnit _ (by omega),
      getLsbD_fieldMask _ (by omega), Bool.and_comm]
  · by_cases hw : i < wordBits
    · rw [fieldValue, BitVec.getLsbD_and, getLsbD_fieldMask _ hw]
      simp [hi]
    · simp [hi, BitVec.getLsbD_of_ge _ i (show 64 ≤ i by simpa [wordBits] using hw)]

@[simp] theorem length_withField (u : Bytes) (s b : Nat) (v : Word) :
    (withField u s b v).length = u.length := by
  simp [withField]

/-- Storing a value changes the bits of the field and no others. -/
theorem bitAt_withField {u : Bytes} {s b k : Nat} {v : Word} (h : s + b ≤ wordBits)
    (hk : k < 8 * u.length) :
    bitAt (withField u s b v) k = if s ≤ k ∧ k < s + b then v.getLsbD (k - s) else bitAt u k := by
  rw [withField, bitAt_writeUnit hk]
  by_cases hw : k < wordBits
  · rw [if_pos hw, BitVec.getLsbD_or, BitVec.getLsbD_and, BitVec.getLsbD_and, BitVec.getLsbD_not,
      BitVec.getLsbD_shiftLeft, BitVec.getLsbD_shiftLeft, getLsbD_readUnit _ hw]
    have hm : (fieldMask b).getLsbD (k - s) = decide (k - s < b) :=
      getLsbD_fieldMask b (by omega)
    have hw' : k < 64 := hw
    by_cases hs : k < s
    · simp [hs, hw', show ¬ (s ≤ k) by omega]
    · by_cases hb : k - s < b
      · simp [hs, hb, hm, hw', show s ≤ k by omega, show k < s + b by omega]
      · simp [hs, hb, hm, hw', show ¬ (k < s + b) by omega]
  · rw [if_neg hw, if_neg (by omega)]

/-- Mirroring turns the lowest bits of a word end for end. -/
theorem getLsbD_mirror (v : Word) {b i : Nat} (hb : b ≤ wordBits) (hi : i < b) :
    (mirror v b).getLsbD i = v.getLsbD (b - 1 - i) := by
  unfold wordBits at hb
  rw [mirror, if_neg (by omega), BitVec.getLsbD_ushiftRight, BitVec.getLsbD_reverse,
    BitVec.getMsbD_eq_getLsbD, wordBits, decide_eq_true (by omega), Bool.true_and]
  congr 1
  omega

/-- A unit with the bits of a field turned end for end, if the field lies inside a word. -/
def turnField (u : Bytes) (s b : Nat) : Bytes :=
  if b = 0 ∨ wordBits < s + b then u else withField u s b (mirror (fieldValue u s b) b)

theorem fieldFits_eq_ok {s b : Nat} (h : s + b < bitLimit) :
    fieldFits s b = .ok (decide (¬ (b = 0 ∨ wordBits < s + b))) := by
  by_cases hb : b = 0
  · simp [fieldFits, hb]
  · rw [fieldFits, if_neg hb, addBits_eq_ok.2 ⟨h, rfl⟩]
    simp [hb]

theorem extractField_eq_ok {u : Bytes} {s b : Nat} (h : s + b < bitLimit) :
    extractField u s b =
      .ok (if b = 0 ∨ wordBits < s + b then none else some (fieldValue u s b)) := by
  rw [extractField, fieldFits_eq_ok h]
  by_cases hb : b = 0 ∨ wordBits < s + b <;> simp [hb]

theorem mirrorField_eq_ok {u : Bytes} {s b : Nat} (h : s + b < bitLimit) :
    mirrorField u s b = .ok (turnField u s b) := by
  rw [mirrorField, extractField_eq_ok h, Checked.ok_bind, turnField]
  by_cases hb : b = 0 ∨ wordBits < s + b
  · simp [hb]
  · simp [hb, insertField, fieldFits_eq_ok h]

@[simp] theorem length_turnField (u : Bytes) (s b : Nat) : (turnField u s b).length = u.length := by
  unfold turnField
  split <;> simp

theorem turnField_of_not_fits {u : Bytes} {s b : Nat} (h : b = 0 ∨ wordBits < s + b) :
    turnField u s b = u :=
  if_pos h

/-- Where bit `k` of a unit comes from when the field of `b` bits at `s` is turned. -/
def turnIndex (s b k : Nat) : Nat := if s ≤ k ∧ k < s + b then 2 * s + b - 1 - k else k

theorem turnIndex_of_mem {s b k : Nat} (h : s ≤ k ∧ k < s + b) :
    turnIndex s b k = 2 * s + b - 1 - k :=
  if_pos h

theorem turnIndex_of_not_mem {s b k : Nat} (h : ¬ (s ≤ k ∧ k < s + b)) : turnIndex s b k = k :=
  if_neg h

theorem turnIndex_lt {s b k n : Nat} (h : s + b ≤ n) (hk : k < n) : turnIndex s b k < n := by
  unfold turnIndex
  split <;> omega

theorem turnIndex_turnIndex (s b k : Nat) : turnIndex s b (turnIndex s b k) = k := by
  by_cases h : s ≤ k ∧ k < s + b
  · rw [turnIndex_of_mem h, turnIndex_of_mem (by omega)]
    omega
  · rw [turnIndex_of_not_mem h, turnIndex_of_not_mem h]

theorem turnIndex_comm {s b s' b' : Nat} (hd : s + b ≤ s' ∨ s' + b' ≤ s) (k : Nat) :
    turnIndex s b (turnIndex s' b' k) = turnIndex s' b' (turnIndex s b k) := by
  by_cases h : s ≤ k ∧ k < s + b
  · rw [turnIndex_of_not_mem (s := s') (k := k) (by omega), turnIndex_of_mem h,
      turnIndex_of_not_mem (by omega)]
  · rw [turnIndex_of_not_mem h]
    by_cases h' : s' ≤ k ∧ k < s' + b'
    · rw [turnIndex_of_mem h', turnIndex_of_not_mem (by omega)]
    · rw [turnIndex_of_not_mem h', turnIndex_of_not_mem h]

/-- Turning a field that lies inside a word. -/
theorem bitAt_turnField {u : Bytes} {s b k : Nat} (h : s + b ≤ wordBits)
    (hk : k < 8 * u.length) :
    bitAt (turnField u s b) k = bitAt u (turnIndex s b k) := by
  by_cases hb : b = 0
  · rw [turnField_of_not_fits (.inl hb), turnIndex_of_not_mem (by omega)]
  · rw [turnField, if_neg (by omega), bitAt_withField h hk]
    by_cases hf : s ≤ k ∧ k < s + b
    · rw [if_pos hf, turnIndex_of_mem hf, getLsbD_mirror _ (by omega) (by omega),
        getLsbD_fieldValue _ h, decide_eq_true (by omega), Bool.true_and]
      congr 1
      omega
    · rw [if_neg hf, turnIndex_of_not_mem hf]

/-- A field inside a word lies inside a unit of `n` bytes. -/
def FieldInside (n s b : Nat) : Prop := s + b ≤ wordBits → s + b ≤ 8 * n

theorem turnField_turnField {u : Bytes} {s b : Nat} (hu : FieldInside u.length s b) :
    turnField (turnField u s b) s b = u := by
  by_cases h : s + b ≤ wordBits
  · have hu := hu h
    apply eq_of_bitAt (by simp)
    intro k hk
    simp only [length_turnField] at hk
    rw [bitAt_turnField h (by simpa using hk), bitAt_turnField h (turnIndex_lt hu hk),
      turnIndex_turnIndex]
  · rw [turnField_of_not_fits (u := u) (.inr (by omega)), turnField_of_not_fits (.inr (by omega))]

/-- Fields that have no bit in common can be turned in any order. -/
theorem turnField_comm {u : Bytes} {s b s' b' : Nat} (hu : FieldInside u.length s b)
    (hu' : FieldInside u.length s' b') (hd : s + b ≤ s' ∨ s' + b' ≤ s) :
    turnField (turnField u s b) s' b' = turnField (turnField u s' b') s b := by
  by_cases h : s + b ≤ wordBits ∧ s' + b' ≤ wordBits
  · have hu := hu h.1
    have hu' := hu' h.2
    apply eq_of_bitAt (by simp)
    intro k hk
    simp only [length_turnField] at hk
    rw [bitAt_turnField h.2 (by simpa using hk), bitAt_turnField h.1 (turnIndex_lt hu' hk),
      bitAt_turnField h.1 (by simpa using hk), bitAt_turnField h.2 (turnIndex_lt hu hk),
      turnIndex_comm hd]
  · by_cases h1 : s + b ≤ wordBits
    · have h2 : b' = 0 ∨ wordBits < s' + b' := .inr (by omega)
      rw [turnField_of_not_fits h2, turnField_of_not_fits h2]
    · have h2 : b = 0 ∨ wordBits < s + b := .inr (by omega)
      rw [turnField_of_not_fits h2, turnField_of_not_fits h2]

end RecordSwap
