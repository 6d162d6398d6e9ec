import RecordSwap.Proofs.Slots

/-!
# Packing bit-fields

What a packer answers to any sequence of calls, for all bit lengths and byte sizes.

* `Packer.Call`, `Packer.answers`: calls on a packer, and what it answers to them one after the
  other.
* `ExactUnit`: an open unit whose bits are counted without a word limit, with the calls answered
  from it (`ExactUnit.answers`).
* `ExactUnit.Fits`, `ExactUnit.Within`: the bit counts that a packer computes for a call, or for all
  calls, fit 32 bits.
* `Packer.answers_eq`: the answers are those of an exact unit as long as the counts fit. Otherwise
  the packer stops, or goes by the lower 32 bits of a byte size.
-/

namespace RecordSwap

/-! ## Calls -/

/-- A call on a packer. -/
inductive Packer.Call where
  | pack (dataType : String) (bits byteSize : Nat)
  | reset
  deriving DecidableEq, Repr

namespace Packer

/-- Carries out one call. The answer to a reset is empty. -/
def answer (p : Packer) : Call → Checked (Option PackStep × Packer)
  | .pack dataType bits byteSize => do
    let (step, p) ← p.pack dataType bits byteSize
    pure (some step, p)
  | .reset => pure (none, .empty)

/-- Carries out calls one after the other. -/
def answers (p : Packer) : List Call → Checked (List (Option PackStep))
  | [] => pure []
  | call :: rest => do
    let (step, p) ← p.answer call
    let steps ← p.answers rest
    pure (step :: steps)

/-- The call as a packer reads it: of a byte size only the lower 32 bits are taken. -/
def Call.truncated : Call → Call
  | pack dataType bits byteSize => pack dataType bits (byteSize % bitLimit)
  | reset => reset

end Packer

/-! ## Counting without limits -/

/-- An open unit with the widths of its bit-fields, the latest first. -/
structure ExactUnit where
  dataType : String
  /-- Byte size that was given when the unit was opened. -/
  byteSize : Nat
  widths : List Nat
  deriving DecidableEq, Repr

namespace ExactUnit

/-- Bits taken so far. -/
def filled (u : ExactUnit) : Nat := u.widths.sum

/-- Bits in all. -/
def capacity (u : ExactUnit) : Nat := 8 * u.byteSize

/-- A bit-field joins a unit of its type that has room for it. -/
def Joins (u : ExactUnit) (dataType : String) (bits : Nat) : Prop :=
  u.dataType = dataType ∧ u.filled + bits ≤ u.capacity

instance (u : ExactUnit) (dataType : String) (bits : Nat) : Decidable (u.Joins dataType bits) :=
  inferInstanceAs (Decidable (_ ∧ _))

/-- The answer to one call and the unit that is open after it. -/
def answer (unit : Option ExactUnit) : Packer.Call → Option PackStep × Option ExactUnit
  | .pack dataType bits byteSize =>
    match unit with
    | none => (some .opened, some ⟨dataType, byteSize, [bits]⟩)
    | some u =>
      if u.Joins dataType bits then
        (some (.merged u.filled), some { u with widths := bits :: u.widths })
      else (some .opened, some ⟨dataType, byteSize, [bits]⟩)
  | .reset => (none, none)

/-- The answers to calls that follow one another. -/
def answers (unit : Option ExactUnit) : List Packer.Call → List (Option PackStep)
  | [] => []
  | call :: rest => (answer unit call).1 :: answers (answer unit call).2 rest

/-- What a packer adds and multiplies for a call fits 32 bits: the bits of a unit of the same type,
even if the new bit-field finds no room in it, and the capacity of a unit that is opened. -/
def Fits (unit : Option ExactUnit) : Packer.Call → Prop
  | .pack dataType bits byteSize =>
    (∀ u ∈ unit, u.dataType = dataType → u.filled + bits < bitLimit) ∧
      ((∃ u ∈ unit, u.Joins dataType bits) ∨ 8 * byteSize < bitLimit)
  | .reset => True

instance (unit : Option ExactUnit) : (call : Packer.Call) → Decidable (Fits unit call)
  | .pack _ _ _ => inferInstanceAs (Decidable (_ ∧ _))
  | .reset => inferInstanceAs (Decidable True)

/-- All calls fit, each with the unit that the calls before it leave open. -/
def Within (unit : Option ExactUnit) : List Packer.Call → Prop
  | [] => True
  | call :: rest => Fits unit call ∧ Within (answer unit call).2 rest

instance decidableWithin :
    (unit : Option ExactUnit) → (calls : List Packer.Call) → Decidable (Within unit calls)
  | _, [] => inferInstanceAs (Decidable True)
  | unit, call :: rest =>
    have := decidableWithin (answer unit call).2 rest
    inferInstanceAs (Decidable (_ ∧ _))

/-- The unit as a packer keeps it. -/
def toOpen (u : ExactUnit) : OpenUnit := ⟨u.dataType, u.filled, u.capacity⟩

theorem filled_cons (u : ExactUnit) (bits : Nat) :
    filled { u with widths := bits :: u.widths } = u.filled + bits := by
  simp only [filled, List.sum_cons]
  exact Nat.add_comm _ _

theorem filled_singleton (dataType : String) (bits byteSize : Nat) :
    filled ⟨dataType, byteSize, [bits]⟩ = bits :=
  List.sum_singleton

/-! ## One call -/

theorem answer_joins {u : ExactUnit} {dataType : String} {bits : Nat} (h : u.Joins dataType bits)
    (byteSize : Nat) : answer (some u) (.pack dataType bits byteSize) =
      (some (.merged u.filled), some { u with widths := bits :: u.widths }) :=
  if_pos h

theorem answer_opens {unit : Option ExactUnit} {dataType : String} {bits : Nat}
    (h : ∀ u ∈ unit, ¬ u.Joins dataType bits) (byteSize : Nat) :
    answer unit (.pack dataType bits byteSize) =
      (some .opened, some ⟨dataType, byteSize, [bits]⟩) := by
  cases unit with
  | none => rfl
  | some u => exact if_neg (h u rfl)

theorem fits_joins {u : ExactUnit} {dataType : String} {bits byteSize : Nat}
    (h : u.Joins dataType bits) :
    Fits (some u) (.pack dataType bits byteSize) ↔ u.filled + bits < bitLimit := by
  refine ⟨fun hf => hf.1 u rfl h.1, fun hf => ⟨fun v hv _ => ?_, .inl ⟨u, rfl, h⟩⟩⟩
  obtain rfl : u = v := Option.some.inj hv
  exact hf

theorem fits_opens {unit : Option ExactUnit} {dataType : String} {bits byteSize : Nat}
    (h : ∀ u ∈ unit, ¬ u.Joins dataType bits) :
    Fits unit (.pack dataType bits byteSize) ↔
      (∀ u ∈ unit, u.dataType = dataType → u.filled + bits < bitLimit) ∧
        8 * byteSize < bitLimit :=
  and_congr_right fun _ => or_iff_right fun ⟨u, hu, hj⟩ => h u hu hj

/-- A call that fits is read as it stands. -/
theorem Fits.truncated {unit : Option ExactUnit} {call : Packer.Call} (h : Fits unit call) :
    Fits unit call.truncated ∧ answer unit call.truncated = answer unit call := by
  cases call with
  | reset => exact ⟨trivial, rfl⟩
  | pack dataType bits byteSize =>
    obtain ⟨hsum, ⟨u, hu, hj⟩ | hcap⟩ := h
    · obtain rfl : unit = some u := hu
      refine ⟨⟨hsum, .inl ⟨u, rfl, hj⟩⟩, ?_⟩
      rw [Packer.Call.truncated, answer_joins hj, answer_joins hj]
    · have hmod : byteSize % bitLimit = byteSize := Nat.mod_eq_of_lt (by omega)
      rw [Packer.Call.truncated, hmod]
      exact ⟨⟨hsum, .inr hcap⟩, rfl⟩

end ExactUnit

namespace Packer

/-- The packer that keeps an exact unit. -/
def ofExact (unit : Option ExactUnit) : Packer := ⟨unit.map ExactUnit.toOpen⟩

theorem unitCapacity_eq (byteSize : Nat) :
    unitCapacity byteSize = if 8 * (byteSize % bitLimit) < bitLimit
      then .ok (8 * (byteSize % bitLimit)) else .error .overflow := rfl

/-- A unit is opened if its capacity fits. -/
theorem openUnit_eq (dataType : String) (bits byteSize : Nat) :
    openUnit dataType bits byteSize = if 8 * (byteSize % bitLimit) < bitLimit
      then .ok (.opened, ofExact (some ⟨dataType, byteSize % bitLimit, [bits]⟩))
      else .error .overflow := by
  rw [openUnit, unitCapacity_eq]
  split
  · rw [Checked.ok_bind, ofExact, Option.map_some, ExactUnit.toOpen, ExactUnit.filled_singleton]
    rfl
  · rfl

/-- A bit-field with room in the open unit joins it, unless the sum overflows. -/
theorem pack_of_joins {u : ExactUnit} {dataType : String} {bits : Nat}
    (h : u.Joins dataType bits) (byteSize : Nat) :
    (ofExact (some u)).pack dataType bits byteSize =
      if u.filled + bits < bitLimit
      then .ok (.merged u.filled, ofExact (some { u with widths := bits :: u.widths }))
      else .error .overflow := by
  obtain ⟨ht, hroom⟩ := h
  simp only [pack, ofExact, Option.map_some, ExactUnit.toOpen, if_pos ht, addBits, fit,
    ExactUnit.filled_cons]
  split
  · rw [Checked.pure_eq_ok, Checked.ok_bind, if_pos hroom]
    rfl
  · rfl

/-- A bit-field without room opens a unit, unless the sum overflows that shows there is none. -/
theorem pack_of_opens {unit : Option ExactUnit} {dataType : String} {bits : Nat}
    (h : ∀ u ∈ unit, ¬ u.Joins dataType bits) (byteSize : Nat) :
    (ofExact unit).pack dataType bits byteSize =
      if ∀ u ∈ unit, u.dataType = dataType → u.filled + bits < bitLimit
      then openUnit dataType bits byteSize else .error .overflow := by
  cases unit with
  | none => exact (if_pos fun u hu => nomatch hu).symm
  | some u =>
    have hu : ∀ v ∈ some u, v = u := fun v hv => (Option.some.inj hv).symm
    by_cases ht : u.dataType = dataType
    · have hroom : ¬ u.filled + bits ≤ u.capacity := fun hc => h u rfl ⟨ht, hc⟩
      by_cases hf : u.filled + bits < bitLimit
      · rw [if_pos fun v hv _ => hu v hv ▸ hf]
        simp only [pack, ofExact, Option.map_some, ExactUnit.toOpen, if_pos ht, addBits, fit,
          if_pos hf, Checked.pure_eq_ok, Checked.ok_bind, if_neg hroom]
      · rw [if_neg fun hall => hf (hall u rfl ht)]
        simp only [pack, ofExact, Option.map_some, ExactUnit.toOpen, if_pos ht, addBits, fit,
          if_neg hf, Checked.throw_eq_error, Checked.error_bind]
    · rw [if_pos fun v hv hvt => absurd (hu v hv ▸ hvt) ht]
      simp only [pack, ofExact, Option.map_some, ExactUnit.toOpen, if_neg ht]

/-- A packer answers a call, as it reads it, from the exact unit, unless a count overflows. -/
theorem answer_ofExact (unit : Option ExactUnit) (call : Call) :
    (ofExact unit).answer call =
      if ExactUnit.Fits unit call.truncated
      then .ok ((ExactUnit.answer unit call.truncated).1,
        ofExact (ExactUnit.answer unit call.truncated).2)
      else .error .overflow := by
  cases call with
  | reset => exact (if_pos trivial).symm
  | pack dataType bits byteSize =>
    by_cases hj : ∃ u ∈ unit, u.Joins dataType bits
    · obtain ⟨u, hu, hj⟩ := hj
      obtain rfl : unit = some u := hu
      rw [answer, pack_of_joins hj, Call.truncated, ExactUnit.answer_joins hj]
      simp only [ExactUnit.fits_joins hj]
      split <;> rfl
    · have hj : ∀ u ∈ unit, ¬ u.Joins dataType bits := fun u hu h => hj ⟨u, hu, h⟩
      rw [answer, pack_of_opens hj, openUnit_eq, Call.truncated, ExactUnit.answer_opens hj]
      simp only [ExactUnit.fits_opens hj]
      by_cases hsum : ∀ u ∈ unit, u.dataType = dataType → u.filled + bits < bitLimit
      · rw [if_pos hsum]
        by_cases hcap : 8 * (byteSize % bitLimit) < bitLimit
        · rw [if_pos hcap, if_pos ⟨hsum, hcap⟩]
          rfl
        · rw [if_neg hcap, if_neg fun h => hcap h.2]
          rfl
      · rw [if_neg hsum, if_neg fun h => hsum h.1]
        rfl

/-! ## All calls -/

/-- The answers to calls as a packer reads them. -/
theorem answers_ofExact (unit : Option ExactUnit) (calls : List Call) :
    (ofExact unit).answers calls =
      if ExactUnit.Within unit (calls.map Call.truncated)
      then .ok (ExactUnit.answers unit (calls.map Call.truncated)) else .error .overflow := by
  induction calls generalizing unit with
  | nil => exact (if_pos trivial).symm
  | cons call rest ih =>
    rw [answers, answer_ofExact, List.map_cons, ExactUnit.answers]
    by_cases hfits : ExactUnit.Fits unit call.truncated
    · rw [if_pos hfits, Checked.ok_bind]
      simp only [ih]
      by_cases hrest : ExactUnit.Within (ExactUnit.answer unit call.truncated).2
          (rest.map Call.truncated)
      · rw [if_pos hrest, if_pos ⟨hfits, hrest⟩]
        rfl
      · rw [if_neg hrest, if_neg fun h => hrest h.2]
        rfl
    · rw [if_neg hfits, if_neg fun h => hfits h.1]
      rfl

end Packer

/-- Calls that fit are read as they stand. -/
theorem ExactUnit.Within.truncated {unit : Option ExactUnit} {calls : List Packer.Call}
    (h : Within unit calls) :
    Within unit (calls.map Packer.Call.truncated) ∧
      answers unit (calls.map Packer.Call.truncated) = answers unit calls := by
  induction calls generalizing unit with
  | nil => exact ⟨trivial, rfl⟩
  | cons call rest ih =>
    obtain ⟨hfits, heq⟩ := h.1.truncated
    obtain ⟨hwithin, hanswers⟩ := ih h.2
    simp only [List.map_cons, Within, answers, heq, hanswers]
    exact ⟨⟨hfits, hwithin⟩, trivial⟩

/-- **Packing.** As long as the bit counts fit 32 bits, a new packer never stops and answers any
sequence of calls as if it counted without a limit: a bit-field joins the unit that is open since
the last reset, at the exact sum of the widths in it, if the unit has its type and room for it, and
opens a unit otherwise. In general it does so for byte sizes of which only the lower 32 bits are
taken, and stops at the first count that does not fit. -/
theorem Packer.answers_eq (calls : List Packer.Call) :
    (ExactUnit.Within none calls →
      Packer.empty.answers calls = .ok (ExactUnit.answers none calls)) ∧
    Packer.empty.answers calls =
      if ExactUnit.Within none (calls.map Packer.Call.truncated)
      then .ok (ExactUnit.answers none (calls.map Packer.Call.truncated))
      else .error .overflow := by
  refine ⟨fun h => ?_, Packer.answers_ofExact none calls⟩
  obtain ⟨hwithin, hanswers⟩ := h.truncated
  rw [← hanswers]
  exact (Packer.answers_ofExact none calls).trans (if_pos hwithin)

/-- A unit is filled to its last bit, the next bit-field opens another, and a bit-field of the
greatest width fits no unit but opens one. -/
theorem Packer.answers_eq_sample :
    let calls := [.pack "uint16" 4 2, .pack "uint16" 12 2, .pack "uint16" 1 2, .reset,
      .pack "uint8" 4294967295 1]
    ExactUnit.Within none calls ∧ Packer.empty.answers calls =
      .ok [some .opened, some (.merged 4), some .opened, none, some .opened] := by
  intro calls
  have hwithin : ExactUnit.Within none calls := by decide +kernel
  exact ⟨hwithin, (Packer.answers_eq calls).1 hwithin⟩

/-- Beyond 32 bits a packer does not count exactly: the sum that shows that there is no room stops
it, so does the capacity of a unit of half a gigabyte, and a unit that is larger by four gigabytes
than a byte takes no second bit-field. -/
theorem Packer.answers_inexact :
    let wide := [.pack "uint32" 4294967295 4, .pack "uint32" 1 4]
    let half := [.pack "page" 3 536870912]
    let large := [.pack "page" 5 4294967297, .pack "page" 5 4294967297]
    (Packer.empty.answers wide = .error .overflow ∧
      ExactUnit.answers none wide = [some .opened, some .opened]) ∧
    (Packer.empty.answers half = .error .overflow ∧
      ExactUnit.answers none half = [some .opened]) ∧
    Packer.empty.answers large = .ok [some .opened, some .opened] ∧
      ExactUnit.answers none large = [some .opened, some (.merged 5)] :=
  ⟨⟨rfl, rfl⟩, ⟨rfl, rfl⟩, rfl, rfl⟩

end RecordSwap
