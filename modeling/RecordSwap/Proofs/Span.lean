import RecordSwap.Image

/-!
# Spans

A span is a run of byte positions of an image.

* `Span.Disjoint`: no byte in common; an empty span is disjoint from every span.
* `Image.part`: the bytes of an image on a span.
* `Image.Agree`: two images have the same bytes on a span. Images that agree on a span have the same
  part there (`Agree.part_eq`), and images that agree everywhere are equal (`eq_of_agree`).
-/

namespace RecordSwap

/-- A run of byte positions. -/
structure Span where
  start : Nat
  size : Nat
  deriving DecidableEq, Repr

namespace Span

/-- The first position after a span. -/
def stop (s : Span) : Nat := s.start + s.size

instance : Membership Nat Span := ⟨fun s k => s.start ≤ k ∧ k < s.stop⟩

theorem mem_def {s : Span} {k : Nat} : k ∈ s ↔ s.start ≤ k ∧ k < s.start + s.size := Iff.rfl

theorem mem_mk_zero {n k : Nat} : k ∈ (⟨0, n⟩ : Span) ↔ k < n := by simp [mem_def]

/-- The positions of one span are among those of another. -/
def Sub (a b : Span) : Prop := ∀ k, k ∈ a → k ∈ b

/-- Two spans have no position in common. -/
def Disjoint (a b : Span) : Prop := ∀ k, k ∈ a → k ∉ b

/-- A span moved towards the end by `n` bytes. -/
def shift (n : Nat) (s : Span) : Span := ⟨n + s.start, s.size⟩

@[simp] theorem shift_zero (s : Span) : s.shift 0 = s := by simp [shift]

variable {a b c : Span}

theorem Sub.refl (a : Span) : Sub a a := fun _ h => h

theorem Sub.trans (h : Sub a b) (h' : Sub b c) : Sub a c := fun k hk => h' k (h k hk)

theorem sub_of_le (h : b.start ≤ a.start) (h' : a.start + a.size ≤ b.start + b.size) : Sub a b :=
  fun k hk => by
    rw [mem_def] at hk ⊢
    omega

theorem Sub.shift (h : Sub a b) (n : Nat) : Sub (a.shift n) (b.shift n) := fun k hk => by
  have hk' := h (k - n)
  simp only [mem_def, Span.shift] at hk hk' ⊢
  omega

theorem Disjoint.symm (h : Disjoint a b) : Disjoint b a := fun k hb ha => h k ha hb

theorem disjoint_iff :
    Disjoint a b ↔ a.size = 0 ∨ b.size = 0 ∨ a.start + a.size ≤ b.start ∨
      b.start + b.size ≤ a.start := by
  simp only [Disjoint, mem_def]
  constructor
  · intro h
    have hk := h (max a.start b.start)
    omega
  · intro h k
    omega

instance (a b : Span) : Decidable (Disjoint a b) := decidable_of_iff _ disjoint_iff.symm

end Span

namespace Image

/-- The bytes of an image on a span, as far as the image reaches. -/
def part (image : Image) (s : Span) : Bytes := (image.drop s.start).take s.size

theorem getElem?_part (image : Image) (s : Span) (i : Nat) :
    (image.part s)[i]? = if i < s.size then image[s.start + i]? else none := by
  rw [part, List.getElem?_take, List.getElem?_drop]

theorem length_part {image : Image} {s : Span} (h : s.start + s.size ≤ image.length) :
    (image.part s).length = s.size := by
  simp only [part, List.length_take, List.length_drop]
  omega

theorem part_self {image : Image} {n : Nat} (h : image.length = n) : image.part ⟨0, n⟩ = image :=
  List.take_of_length_le (by simp [h])

theorem part_part (image : Image) {a n b m : Nat} (h : b + m ≤ n) :
    part (image.part ⟨a, n⟩) ⟨b, m⟩ = image.part ⟨a + b, m⟩ := by
  apply List.ext_getElem?
  intro i
  rw [getElem?_part, getElem?_part, getElem?_part, Nat.add_assoc]
  by_cases hi : i < m
  · rw [if_pos hi, if_pos hi, if_pos (show b + i < n by omega)]
  · rw [if_neg hi, if_neg hi]

/-- Two images have the same bytes on a span. -/
def Agree (s : Span) (a b : Image) : Prop := ∀ k, k ∈ s → a[k]? = b[k]?

variable {s t : Span} {a b c : Image}

theorem Agree.symm (h : Agree s a b) : Agree s b a := fun k hk => (h k hk).symm

theorem Agree.trans (h : Agree s a b) (h' : Agree s b c) : Agree s a c :=
  fun k hk => (h k hk).trans (h' k hk)

theorem Agree.mono (h : Agree t a b) (hs : s.Sub t) : Agree s a b := fun k hk => h k (hs k hk)

theorem Agree.part_eq (h : Agree s a b) : a.part s = b.part s := by
  apply List.ext_getElem?
  intro i
  rw [getElem?_part, getElem?_part]
  split
  · next hi => exact h _ (Span.mem_def.2 (by omega))
  · rfl

theorem agree_of_part_eq (h : a.part s = b.part s) : Agree s a b := by
  intro k hk
  rw [Span.mem_def] at hk
  have hi := congrArg (fun l => l[k - s.start]?) h
  simp only [getElem?_part, if_pos (show k - s.start < s.size by omega)] at hi
  rwa [show s.start + (k - s.start) = k by omega] at hi

/-- Images that agree on a span and off it are equal. -/
theorem eq_of_agree (h : Agree s a b) (h' : ∀ k, k ∉ s → a[k]? = b[k]?) : a = b := by
  apply List.ext_getElem?
  intro k
  by_cases hk : k ∈ s
  · exact h k hk
  · exact h' k hk

/-- Images that agree on a span reach equally far into it. -/
theorem Agree.stop_le (h : Agree s a b) (hs : s.size ≠ 0) (ha : s.start + s.size ≤ a.length) :
    s.start + s.size ≤ b.length := by
  have hl := h (s.start + s.size - 1) (Span.mem_def.2 (by omega))
  rw [List.getElem?_eq_getElem (by omega), eq_comm, List.getElem?_eq_some_iff] at hl
  obtain ⟨hb, -⟩ := hl
  omega

end Image

end RecordSwap
