import Mathlib.Data.List.Pairwise
import RecordSwap.Proofs.Steps

/-!
# Blocks of steps

A list of steps that falls into blocks, one for each member of a record or each element of an array,
where the blocks keep to pairwise disjoint spans.

* `runSteps_flatMap_agree`: on the span of one block only that block counts.
* `leftInverse_flatMap`, `commute_flatMap`: runs of blocks are inverse to each other, or commute, if
  those of the single blocks do.
* `runSteps_flatMap_append`: two runs over all blocks are one run in which each block goes twice.
* `elements`: the blocks of an array, with the same statements (`part_elements`,
  `leftInverse_elements`, `commute_elements`, `runSteps_elements_append`).
-/

namespace RecordSwap

open Function (Commute LeftInverse)

section
variable {α : Type} {S : α → Span} {l : List α} {f g : α → List Step}

/-- A byte on the span of no block keeps its value. -/
theorem getElem?_runSteps_flatMap (hf : ∀ x ∈ l, Inside (S x) (f x)) (image : Image) {k : Nat}
    (hk : ∀ x ∈ l, k ∉ S x) : (runSteps (l.flatMap f) image)[k]? = image[k]? := by
  apply getElem?_runSteps_of_not_mem
  intro s hs hm
  obtain ⟨x, hx, hs⟩ := List.mem_flatMap.1 hs
  exact hk x hx (hf x hx s hs k hm)

/-- On the span of one block, a run of blocks does what that block does. -/
theorem runSteps_flatMap_agree (hd : l.Pairwise fun x y => (S x).Disjoint (S y))
    (hf : ∀ x ∈ l, Inside (S x) (f x)) {x : α} (hx : x ∈ l) (image : Image) :
    Image.Agree (S x) (runSteps (l.flatMap f) image) (runSteps (f x) image) := by
  obtain ⟨pre, post, rfl⟩ := List.append_of_mem hx
  obtain ⟨-, hpost, hpre⟩ := List.pairwise_append.1 hd
  have hbefore : Image.Agree (S x) (runSteps (pre.flatMap f) image) image := fun k hk =>
    getElem?_runSteps_flatMap (fun y hy => hf y (by simp [hy])) image
      fun y hy hm => hpre y hy x (.head _) k hm hk
  have hafter : ∀ image, Image.Agree (S x) (runSteps (post.flatMap f) image) image :=
    fun image k hk => getElem?_runSteps_flatMap (fun y hy => hf y (by simp [hy])) image
      fun y hy hm => (List.pairwise_cons.1 hpost).1 y hy k hk hm
  rw [List.flatMap_append, List.flatMap_cons, runSteps_append, runSteps_append]
  exact (hafter _).trans (runSteps_agree (hf x hx) hbefore)

theorem commute_flatMap_right {steps : List Step}
    (h : ∀ x ∈ l, Commute (runSteps steps) (runSteps (g x))) :
    Commute (runSteps steps) (runSteps (l.flatMap g)) := by
  induction l with
  | nil => exact fun _ => rfl
  | cons x l ih =>
    intro image
    simp only [List.flatMap_cons, runSteps_append]
    rw [ih (fun y hy => h y (.tail _ hy)), h x (.head _)]

theorem commute_flatMap_apart {T : Span} {steps : List Step} (h : Inside T steps)
    (hf : ∀ x ∈ l, Inside (S x) (f x)) (hd : ∀ x ∈ l, T.Disjoint (S x)) :
    Commute (runSteps steps) (runSteps (l.flatMap f)) :=
  commute_flatMap_right fun x hx => runSteps_comm h (hf x hx) (hd x hx)

/-- Runs of blocks commute if the two blocks on each span do. -/
theorem commute_flatMap (hd : l.Pairwise fun x y => (S x).Disjoint (S y))
    (hf : ∀ x ∈ l, Inside (S x) (f x)) (hg : ∀ x ∈ l, Inside (S x) (g x))
    (h : ∀ x ∈ l, Commute (runSteps (f x)) (runSteps (g x))) :
    Commute (runSteps (l.flatMap f)) (runSteps (l.flatMap g)) := by
  have : Std.Symm fun x y => (S x).Disjoint (S y) := ⟨fun _ _ => Span.Disjoint.symm⟩
  refine (commute_flatMap_right fun x hx => ?_)
  refine (commute_flatMap_right fun y hy => ?_).symm
  by_cases hxy : x = y
  · subst hxy
    exact (h x hx).symm
  · exact runSteps_comm (hg x hx) (hf y hy) (hd.forall hx hy hxy)

/-- Two runs over all blocks are one run over blocks that each do both. -/
theorem runSteps_flatMap_append (hd : l.Pairwise fun x y => (S x).Disjoint (S y))
    (hf : ∀ x ∈ l, Inside (S x) (f x)) (hg : ∀ x ∈ l, Inside (S x) (g x)) :
    runSteps (l.flatMap f ++ l.flatMap g) = runSteps (l.flatMap fun x => f x ++ g x) := by
  induction l with
  | nil => rfl
  | cons x l ih =>
    obtain ⟨hx, hl⟩ := List.pairwise_cons.1 hd
    have ih := ih hl (fun y hy => hf y (.tail _ hy)) (fun y hy => hg y (.tail _ hy))
    -- the second block at the front moves past the first blocks of the others
    have hcomm := commute_flatMap_apart (hg x (.head _)) (fun y hy => hf y (.tail _ hy)) hx
    funext image
    simp only [List.flatMap_cons, runSteps_append]
    rw [hcomm, ← ih, runSteps_append]

/-- A run of blocks is undone by a run of the blocks that undo them. -/
theorem leftInverse_flatMap (hd : l.Pairwise fun x y => (S x).Disjoint (S y))
    (hf : ∀ x ∈ l, Inside (S x) (f x)) (hg : ∀ x ∈ l, Inside (S x) (g x))
    (h : ∀ x ∈ l, LeftInverse (runSteps (g x)) (runSteps (f x))) :
    LeftInverse (runSteps (l.flatMap g)) (runSteps (l.flatMap f)) := by
  induction l with
  | nil => exact fun _ => rfl
  | cons x l ih =>
    obtain ⟨hx, hl⟩ := List.pairwise_cons.1 hd
    have hinv := ih hl (fun y hy => hf y (.tail _ hy)) (fun y hy => hg y (.tail _ hy))
      (fun y hy => h y (.tail _ hy))
    -- undoing the first block does not interfere with the other blocks
    have hcomm := commute_flatMap_apart (hg x (.head _)) (fun y hy => hf y (.tail _ hy)) hx
    intro image
    simp only [List.flatMap_cons, runSteps_append]
    rw [hcomm, h x (.head _), hinv]

end

/-! ## Arrays -/

/-- The steps of `count` elements that lie `stride` bytes apart from `offset` on. -/
def elements (offset stride count : Nat) (steps : List Step) : List Step :=
  (List.range count).flatMap fun e => steps.map (Step.shift (offset + e * stride))

/-- The span of one element. -/
def elementSpan (offset stride e : Nat) : Span := ⟨offset + e * stride, stride⟩

section
variable {offset stride count : Nat} {steps back : List Step}

@[simp] theorem elements_nil (offset stride count : Nat) :
    elements offset stride count [] = [] := by
  simp [elements]

theorem mem_elements {s : Step} : s ∈ elements offset stride count steps ↔
    ∃ e < count, ∃ t ∈ steps, s = t.shift (offset + e * stride) := by
  simp only [elements, List.mem_flatMap, List.mem_range, List.mem_map, eq_comm]

theorem shift_shift (n m : Nat) (steps : List Step) :
    (steps.map (Step.shift n)).map (Step.shift m) = steps.map (Step.shift (m + n)) := by
  simp [Step.shift, Span.shift, Function.comp_def, Nat.add_assoc]

theorem elements_shift (n offset stride count : Nat) (steps : List Step) :
    (elements offset stride count steps).map (Step.shift n) =
      elements (n + offset) stride count steps := by
  simp only [elements, List.map_flatMap, shift_shift, Nat.add_assoc]

/-- The first element, and the others one stride further. -/
theorem elements_succ (stride count : Nat) (steps : List Step) :
    elements 0 stride (count + 1) steps =
      steps ++ (elements 0 stride count steps).map (Step.shift stride) := by
  have h0 : steps.map (Step.shift 0) = steps :=
    (List.map_congr_left fun s _ => s.shift_zero).trans (List.map_id _)
  rw [elements_shift]
  simp only [elements, List.range_succ_eq_map, List.flatMap_cons, List.flatMap_map, Nat.zero_mul,
    Nat.zero_add, h0, Nat.succ_mul, Nat.add_comm stride]

theorem elementSpan_sub {e : Nat} (he : e < count) :
    (elementSpan offset stride e).Sub ⟨offset, count * stride⟩ := by
  have h := Nat.mul_le_mul_right stride (show e + 1 ≤ count by omega)
  rw [Nat.succ_mul] at h
  exact Span.sub_of_le (by simp [elementSpan]) (by simp only [elementSpan]; omega)

theorem elementSpan_pairwise (offset stride count : Nat) :
    (List.range count).Pairwise fun e e' =>
      (elementSpan offset stride e).Disjoint (elementSpan offset stride e') := by
  refine List.pairwise_lt_range.imp fun {e e'} h => ?_
  have hm := Nat.mul_le_mul_right stride (show e + 1 ≤ e' by omega)
  rw [Nat.succ_mul] at hm
  rw [Span.disjoint_iff]
  simp only [elementSpan]
  omega

theorem inside_element (h : Inside ⟨0, stride⟩ steps) (e : Nat) :
    Inside (elementSpan offset stride e) (steps.map (Step.shift (offset + e * stride))) := by
  have hs := h.shift (offset + e * stride)
  simpa [elementSpan, Span.shift] using hs

theorem inside_elements (h : Inside ⟨0, stride⟩ steps) :
    Inside ⟨offset, count * stride⟩ (elements offset stride count steps) :=
  Inside.flatMap fun e he => (inside_element h e).mono (elementSpan_sub (List.mem_range.1 he))

/-- On one element, a run over the array does what the element's own run does. -/
theorem part_elements (h : Inside ⟨0, stride⟩ steps) {e : Nat} (he : e < count) {image : Image}
    (hl : offset + count * stride ≤ image.length) :
    (runSteps (elements offset stride count steps) image).part (elementSpan offset stride e) =
      runSteps steps (image.part (elementSpan offset stride e)) := by
  have hm := Nat.mul_le_mul_right stride (show e + 1 ≤ count by omega)
  rw [Nat.succ_mul] at hm
  rw [elements, (runSteps_flatMap_agree (elementSpan_pairwise offset stride count)
    (fun e _ => inside_element h e) (List.mem_range.2 he) image).part_eq]
  exact part_runSteps_shift h (by omega)

theorem runSteps_elements_append {rest : List Step} (hs : Inside ⟨0, stride⟩ steps)
    (hr : Inside ⟨0, stride⟩ rest) :
    runSteps (elements offset stride count steps ++ elements offset stride count rest) =
      runSteps (elements offset stride count (steps ++ rest)) := by
  unfold elements
  rw [runSteps_flatMap_append (elementSpan_pairwise offset stride count)
    (fun e _ => inside_element hs e) fun e _ => inside_element hr e]
  simp only [List.map_append]

theorem leftInverse_shift (h : LeftInverse (runSteps back) (runSteps steps)) (n : Nat) :
    LeftInverse (runSteps (back.map (Step.shift n))) (runSteps (steps.map (Step.shift n))) := by
  intro image
  rw [runSteps_shift, length_runSteps, runSteps_shift]
  by_cases hn : n ≤ image.length
  · have hl : (image.take n).length = n := by simp [hn]
    rw [if_pos hn, if_pos hn, List.take_left' hl, List.drop_left' hl, h, List.take_append_drop]
  · rw [if_neg hn, if_neg hn]

theorem commute_shift (h : Commute (runSteps back) (runSteps steps)) (n : Nat) :
    Commute (runSteps (back.map (Step.shift n))) (runSteps (steps.map (Step.shift n))) := by
  intro image
  by_cases hn : n ≤ image.length
  · have hl : (image.take n).length = n := by simp [hn]
    simp only [runSteps_shift, hn, if_true, List.length_append, hl, length_runSteps,
      List.length_drop, List.take_left' hl, List.drop_left' hl, Nat.le_add_right]
    rw [h]
  · simp only [runSteps_shift, hn, if_false]

theorem leftInverse_elements (hs : Inside ⟨0, stride⟩ steps) (hb : Inside ⟨0, stride⟩ back)
    (h : LeftInverse (runSteps back) (runSteps steps)) :
    LeftInverse (runSteps (elements offset stride count back))
      (runSteps (elements offset stride count steps)) :=
  leftInverse_flatMap (elementSpan_pairwise offset stride count) (fun e _ => inside_element hs e)
    (fun e _ => inside_element hb e) fun _ _ => leftInverse_shift h _

theorem commute_elements (hs : Inside ⟨0, stride⟩ steps) (hb : Inside ⟨0, stride⟩ back)
    (h : Commute (runSteps back) (runSteps steps)) :
    Commute (runSteps (elements offset stride count back))
      (runSteps (elements offset stride count steps)) :=
  commute_flatMap (elementSpan_pairwise offset stride count) (fun e _ => inside_element hb e)
    (fun e _ => inside_element hs e) fun _ _ => commute_shift h _

end

end RecordSwap
