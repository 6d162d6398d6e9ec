import RecordSwap.Layout
import RecordSwap.Proofs.Slots
import RecordSwap.Proofs.Span

/-!
# The pieces of a layout

The members of a layout, in order, fall into plain members and storage units with their bit-fields.

* `Piece`, `Layout.Consists`: the pieces of a layout, with what holds of each (`Piece.Sound`): sizes
  are those of the type table, the bit-fields of a unit share its offset and take its bits one after
  the other (`BitRun`), and all pieces end within the layout.
* `Layout.spans`, `Layout.SpansDisjoint`: the bytes that plain members and units take
  (`Layout.Consists.pairwise_iff`).
-/

namespace RecordSwap

/-- A plain member, or a storage unit with its bit-fields. -/
inductive Piece where
  | member (field : FieldLayout)
  | unit (layout : UnitLayout) (fields : List FieldLayout)

/-- The bytes of a member. -/
def FieldLayout.span (f : FieldLayout) : Span := ⟨f.offset, f.size⟩

/-- The bytes of a storage unit. -/
def UnitLayout.span (u : UnitLayout) : Span := ⟨u.offset, u.byteSize⟩

/-- Bit-fields that take the bits from the first to the second number, one after the other. -/
inductive BitRun : Nat → Nat → List FieldLayout → Prop
  | nil (n : Nat) : BitRun n n []
  | cons {n bits stop : Nat} {f : FieldLayout} {rest : List FieldLayout} : f.shift = n →
      f.bitLength = some bits → BitRun (n + bits) stop rest → BitRun n stop (f :: rest)

namespace Piece

def fields : Piece → List FieldLayout
  | member f => [f]
  | unit _ fs => fs

def unit? : Piece → Option UnitLayout
  | member _ => none
  | unit u _ => some u

/-- The bytes that a piece takes. -/
def span : Piece → Span
  | member f => f.span
  | unit u _ => u.span

/-- What holds of a plain member. -/
structure MemberSound (sizeOf : String → Nat) (f : FieldLayout) : Prop where
  bitLength : f.bitLength = none
  elementSize : f.elementSize = sizeOf f.dataType
  count : product f.extents = .ok (arrayLength f.extents)
  size : f.size = f.elementSize * arrayLength f.extents

/-- What holds of a storage unit and its bit-fields. Only a single bit-field can be too wide. -/
structure UnitSound (sizeOf : String → Nat) (u : UnitLayout) (fs : List FieldLayout) : Prop where
  ne_nil : fs ≠ []
  run : BitRun 0 u.filledBits fs
  fits : u.filledBits ≤ u.capacity ∨ fs.length = 1
  capacity : unitCapacity u.byteSize = .ok u.capacity
  byteSize : u.byteSize = sizeOf u.dataType
  fields : ∀ f ∈ fs, f.dataType = u.dataType ∧ f.offset = u.offset ∧ f.elementSize = u.byteSize ∧
    f.extents = []

/-- What holds of a piece. -/
def Sound (sizeOf : String → Nat) : Piece → Prop
  | member f => MemberSound sizeOf f
  | unit u fs => UnitSound sizeOf u fs

/-- The fields refer to their units, which are numbered from `n` on. -/
inductive Numbered : Nat → List Piece → Prop
  | nil (n : Nat) : Numbered n []
  | member {n : Nat} {f : FieldLayout} {rest : List Piece} : f.group = none → Numbered n rest →
      Numbered n (member f :: rest)
  | unit {n : Nat} {u : UnitLayout} {fs : List FieldLayout} {rest : List Piece} :
      (∀ f ∈ fs, f.group = some n) → Numbered (n + 1) rest → Numbered n (unit u fs :: rest)

end Piece

namespace Layout

/-- Bytes of the protocol header in front of the members. -/
def headerSize (l : Layout) : Nat :=
  if l.header then primaryHeaderSize + secondaryHeaderSize else 0

/-- The protocol header lies inside the record and in front of all members. -/
structure HeaderFirst (l : Layout) : Prop where
  inside : l.headerSize ≤ l.totalSize
  before : ∀ f ∈ l.fields, l.headerSize ≤ f.offset

/-- The bytes of the plain members. -/
def memberSpans (l : Layout) : List Span :=
  (l.fields.filter (·.bitLength.isNone)).map FieldLayout.span

/-- The bytes of the storage units. -/
def unitSpans (l : Layout) : List Span := l.groups.map UnitLayout.span

/-- The bytes of the plain members and of the storage units. -/
def spans (l : Layout) : List Span := l.memberSpans ++ l.unitSpans

/-- No two plain members or storage units share a byte. -/
def SpansDisjoint (l : Layout) : Prop := l.spans.Pairwise Span.Disjoint

instance (l : Layout) : Decidable l.SpansDisjoint :=
  inferInstanceAs (Decidable (l.spans.Pairwise Span.Disjoint))

/-- A layout and its pieces. -/
structure Consists (sizeOf : String → Nat) (l : Layout) (pieces : List Piece) : Prop where
  fields : l.fields = pieces.flatMap Piece.fields
  groups : l.groups = pieces.filterMap Piece.unit?
  numbered : Piece.Numbered 0 pieces
  sound : ∀ q ∈ pieces, q.Sound sizeOf
  inside : ∀ q ∈ pieces, q.span.start + q.span.size ≤ l.totalSize

end Layout

theorem BitRun.le {a b : Nat} {fs : List FieldLayout} (h : BitRun a b fs) : a ≤ b := by
  induction h with
  | nil => exact Nat.le_refl _
  | cons _ _ _ ih => omega

theorem BitRun.isSome {a b : Nat} {fs : List FieldLayout} (h : BitRun a b fs) :
    ∀ f ∈ fs, ∃ bits, f.bitLength = some bits ∧ a ≤ f.shift ∧ f.shift + bits ≤ b := by
  induction h with
  | nil => simp
  | @cons n bits stop f rest hs hb hrun ih =>
    have hle := hrun.le
    intro g hg
    rcases List.mem_cons.1 hg with rfl | hg
    · exact ⟨bits, hb, by omega, by omega⟩
    · obtain ⟨bits', hb', h1, h2⟩ := ih g hg
      exact ⟨bits', hb', by omega, h2⟩

theorem BitRun.head_shift {a b : Nat} {f : FieldLayout} {rest : List FieldLayout}
    (h : BitRun a b (f :: rest)) : f.shift = a := by
  cases h with
  | cons hs _ _ => exact hs

/-- A bit-field fits its unit, unless it is too wide and has the unit to itself. -/
theorem Piece.UnitSound.field_cases {sizeOf : String → Nat} {u : UnitLayout}
    {fs : List FieldLayout} (h : UnitSound sizeOf u fs) {f : FieldLayout} (hf : f ∈ fs)
    {bits : Nat} (hb : f.bitLength = some bits) :
    f.shift + bits ≤ u.capacity ∨ f.shift = 0 ∧ fs = [f] := by
  rcases h.fits with hle | hone
  · obtain ⟨bits', hb', -, hr⟩ := h.run.isSome f hf
    rw [hb, Option.some.injEq] at hb'
    exact .inl (by omega)
  · obtain ⟨g, rfl⟩ := List.length_eq_one_iff.1 hone
    rw [List.mem_singleton] at hf
    subst hf
    exact .inr ⟨h.run.head_shift, rfl⟩

/-- A bit-field belongs to the unit that its number refers to. -/
theorem Piece.Numbered.unit_of_group {n g : Nat} {pieces : List Piece} (h : Numbered n pieces)
    {f : FieldLayout} (hf : f ∈ pieces.flatMap Piece.fields) (hg : f.group = some g) :
    n ≤ g ∧ ∃ u fs, .unit u fs ∈ pieces ∧ f ∈ fs ∧
      (pieces.filterMap Piece.unit?)[g - n]? = some u := by
  induction h with
  | nil => simp at hf
  | @member n f' rest hnone _ ih =>
    rw [List.flatMap_cons, List.mem_append] at hf
    rcases hf with hf | hf
    · rw [fields, List.mem_singleton] at hf
      subst hf
      simp [hnone] at hg
    · obtain ⟨hle, u, fs, hm, hfs, hu⟩ := ih hf
      exact ⟨hle, u, fs, .tail _ hm, hfs, by rwa [List.filterMap_cons, unit?]⟩
  | @unit n u fs rest hfs _ ih =>
    rw [List.flatMap_cons, List.mem_append] at hf
    rcases hf with hf | hf
    · obtain rfl := Option.some.inj ((hfs f hf).symm.trans hg)
      exact ⟨Nat.le_refl _, u, fs, .head _, hf, by simp [unit?]⟩
    · obtain ⟨hle, v, gs, hm, hgs, hv⟩ := ih hf
      refine ⟨by omega, v, gs, .tail _ hm, hgs, ?_⟩
      rw [List.filterMap_cons, unit?, show g - n = g - (n + 1) + 1 by omega]
      simpa using hv

/-- The bit-fields are the members that belong to a unit. -/
theorem Piece.Numbered.isSome_group {sizeOf : String → Nat} {n : Nat} {pieces : List Piece}
    (h : Numbered n pieces) (hs : ∀ q ∈ pieces, q.Sound sizeOf) :
    ∀ f ∈ pieces.flatMap Piece.fields, f.group.isSome = f.bitLength.isSome := by
  induction h with
  | nil => simp
  | @member n f rest hnone _ ih =>
    have ih := ih fun q hq => hs q (.tail _ hq)
    have hm : MemberSound sizeOf f := hs _ (.head _)
    intro f' hf
    rcases List.mem_append.1 hf with hf | hf
    · obtain rfl := List.mem_singleton.1 hf
      rw [hnone, hm.bitLength]
    · exact ih f' hf
  | @unit n u fs rest hfs _ ih =>
    have ih := ih fun q hq => hs q (.tail _ hq)
    have hu : UnitSound sizeOf u fs := hs _ (.head _)
    intro f hf
    rcases List.mem_append.1 hf with hf | hf
    · obtain ⟨bits, hb, -⟩ := hu.run.isSome f hf
      rw [hfs f hf, hb]
      rfl
    · exact ih f hf

namespace Layout.Consists

variable {sizeOf : String → Nat} {l : Layout} {pieces : List Piece}

theorem memberSpans_perm (h : ∀ q ∈ pieces, q.Sound sizeOf) :
    (((pieces.flatMap Piece.fields).filter (·.bitLength.isNone)).map FieldLayout.span ++
      (pieces.filterMap Piece.unit?).map UnitLayout.span).Perm (pieces.map Piece.span) := by
  induction pieces with
  | nil => exact .nil
  | cons q pieces ih =>
    have ih := ih fun q hq => h q (.tail _ hq)
    have hq := h q (.head _)
    rw [List.flatMap_cons, List.filter_append, List.map_append, List.map_cons]
    cases q with
    | member f =>
      have hf : [f].filter (·.bitLength.isNone) = [f] := by simp [hq.bitLength]
      simp only [Piece.fields, hf, Piece.span, List.map_cons, List.map_nil, List.filterMap_cons,
        Piece.unit?, List.cons_append, List.nil_append]
      exact ih.cons _
    | unit u fs =>
      have hf : fs.filter (·.bitLength.isNone) = [] := by
        rw [List.filter_eq_nil_iff]
        intro f hf
        obtain ⟨bits, hb, -⟩ := hq.run.isSome f hf
        simp [hb]
      simp only [Piece.fields, hf, Piece.span, List.map_nil, List.nil_append, List.filterMap_cons,
        Piece.unit?, List.map_cons]
      exact List.perm_middle.trans (ih.cons _)

theorem spans_perm (h : l.Consists sizeOf pieces) : l.spans.Perm (pieces.map Piece.span) := by
  rw [spans, memberSpans, unitSpans, h.fields, h.groups]
  exact memberSpans_perm h.sound

theorem pairwise_iff (h : l.Consists sizeOf pieces) :
    l.SpansDisjoint ↔ pieces.Pairwise fun q q' => q.span.Disjoint q'.span := by
  rw [SpansDisjoint, h.spans_perm.pairwise_iff fun h => h.symm, List.pairwise_map]

theorem span_sub (h : l.Consists sizeOf pieces) {q : Piece} (hq : q ∈ pieces) :
    q.span.Sub ⟨0, l.totalSize⟩ :=
  Span.sub_of_le (Nat.zero_le _) (by simpa using h.inside q hq)

theorem member_mem (h : l.Consists sizeOf pieces) {f : FieldLayout} (hf : f ∈ l.fields)
    (hb : f.bitLength = none) : Piece.member f ∈ pieces := by
  rw [h.fields] at hf
  obtain ⟨q, hq, hf⟩ := List.mem_flatMap.1 hf
  have hs := h.sound q hq
  cases q with
  | member g => exact List.mem_singleton.1 hf ▸ hq
  | unit u fs =>
    obtain ⟨bits, hbits, -⟩ := hs.run.isSome f hf
    simp [hb] at hbits

theorem elementSize_eq (h : l.Consists sizeOf pieces) {f : FieldLayout} (hf : f ∈ l.fields) :
    f.elementSize = sizeOf f.dataType := by
  rw [h.fields] at hf
  obtain ⟨q, hq, hf⟩ := List.mem_flatMap.1 hf
  have hs := h.sound q hq
  cases q with
  | member g =>
    obtain rfl := List.mem_singleton.1 hf
    exact hs.elementSize
  | unit u fs =>
    obtain ⟨htype, -, hsize, -⟩ := hs.fields f hf
    rw [hsize, htype, hs.byteSize]

/-- A bit-field has the offset of its unit. -/
theorem offset_eq (h : l.Consists sizeOf pieces) {f : FieldLayout} (hf : f ∈ l.fields)
    (hb : f.bitLength.isSome) :
    ∃ g u, f.group = some g ∧ l.groups[g]? = some u ∧ f.offset = u.offset := by
  rw [h.fields] at hf
  have hgroup := h.numbered.isSome_group h.sound f hf
  rw [hb] at hgroup
  obtain ⟨g, hg⟩ := Option.isSome_iff_exists.1 hgroup
  obtain ⟨-, u, fs, hm, hfs, hu⟩ := h.numbered.unit_of_group hf hg
  have hunit : Piece.UnitSound sizeOf u fs := h.sound _ hm
  exact ⟨g, u, hg, h.groups ▸ hu, (hunit.fields f hfs).2.1⟩

/-- An element of a plain member ends within the layout. -/
theorem element_le (h : l.Consists sizeOf pieces) {f : FieldLayout} (hq : .member f ∈ pieces)
    {e : Nat} (he : e < arrayLength f.extents) :
    f.offset + e * f.elementSize + f.elementSize ≤ l.totalSize := by
  have hs : Piece.MemberSound sizeOf f := h.sound _ hq
  have hin := h.inside _ hq
  have hm := Nat.mul_le_mul_right f.elementSize (show e + 1 ≤ arrayLength f.extents from he)
  rw [Nat.succ_mul, Nat.mul_comm (arrayLength f.extents), ← hs.size] at hm
  simp only [Piece.span, FieldLayout.span] at hin
  omega

end Layout.Consists

end RecordSwap
