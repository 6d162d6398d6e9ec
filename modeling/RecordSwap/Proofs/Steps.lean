import Mathlib.Logic.Function.Conjugate
import RecordSwap.Proofs.Span
import RecordSwap.Proofs.UnitBits

/-!
# Steps

What a swap function does to an image, as a list of steps: each step turns the bytes of one span,
and leaves the image as it is when the span does not lie in it.

* `Turn`, `Step`, `runSteps`: the three turns, one step, and a run of steps.
* `Inside S steps`: the steps keep to the span `S`. Then a run changes nothing off `S`
  (`getElem?_runSteps`) and depends on nothing off `S` (`runSteps_agree`), so runs on disjoint
  spans commute (`runSteps_comm`).
* `runSteps_shift`: a run of shifted steps is a run on the tail of the image.
-/

namespace RecordSwap

/-- What a step does to its span. -/
inductive Turn where
  /-- Turns the bytes end for end. -/
  | reverse
  /-- Turns the bits end for end. -/
  | reflect
  /-- Turns the bits of one field end for end. -/
  | mirror (shift bits : Nat)
  deriving DecidableEq, Repr

namespace Turn

/-- The bytes of a span after a turn. -/
def apply : Turn → Bytes → Bytes
  | reverse, u => u.reverse
  | reflect, u => RecordSwap.reflect u
  | mirror shift bits, u => turnField u shift bits

@[simp] theorem length_apply (t : Turn) (u : Bytes) : (t.apply u).length = u.length := by
  cases t <;> simp [apply]

end Turn

/-- A turn of one span. -/
structure Step where
  span : Span
  turn : Turn
  deriving DecidableEq, Repr

namespace Step

/-- Carries out a step, if its span lies in the image. -/
def run (s : Step) (image : Image) : Image := image.onSpan s.span.start s.span.size s.turn.apply

/-- The step on an image that has `n` more bytes in front. -/
def shift (n : Nat) (s : Step) : Step := { s with span := s.span.shift n }

@[simp] theorem shift_zero (s : Step) : s.shift 0 = s := by simp [shift]

theorem run_of_le {s : Step} {image : Image} (h : s.span.start + s.span.size ≤ image.length) :
    s.run image = image.take s.span.start ++ s.turn.apply (image.part s.span) ++
      image.drop (s.span.start + s.span.size) := by
  rw [run, Image.onSpan]
  exact if_pos (Image.length_part h)

/-- A step whose span does not lie in the image, or is empty, changes nothing. -/
theorem run_of_not_le {s : Step} {image : Image}
    (h : s.span.size = 0 ∨ ¬ s.span.start + s.span.size ≤ image.length) : s.run image = image := by
  rw [run, Image.onSpan]
  by_cases hl : ((image.drop s.span.start).take s.span.size).length = s.span.size
  · have hz : s.span.size = 0 := by
      simp only [List.length_take, List.length_drop] at hl
      omega
    have ha : s.turn.apply [] = [] := List.eq_nil_of_length_eq_zero (Turn.length_apply _ _)
    simp [hz, ha]
  · exact if_neg hl

@[simp] theorem length_run (s : Step) (image : Image) : (s.run image).length = image.length := by
  by_cases h : s.span.start + s.span.size ≤ image.length
  · rw [run_of_le h]
    simp only [List.length_append, List.length_take, Turn.length_apply, Image.length_part h,
      List.length_drop]
    omega
  · rw [run_of_not_le (.inr h)]

theorem getElem?_run_of_mem {s : Step} {image : Image} {k : Nat} (hk : k ∈ s.span)
    (h : s.span.start + s.span.size ≤ image.length) :
    (s.run image)[k]? = (s.turn.apply (image.part s.span))[k - s.span.start]? := by
  rw [Span.mem_def] at hk
  have hp := Image.length_part h
  rw [run_of_le h, List.append_assoc, List.getElem?_append_right (by simp; omega),
    List.getElem?_append_left (by simp; omega)]
  simp [Nat.min_eq_left (show s.span.start ≤ image.length by omega)]

theorem getElem?_run_of_not_mem {s : Step} {image : Image} {k : Nat} (hk : k ∉ s.span) :
    (s.run image)[k]? = image[k]? := by
  by_cases h : s.span.start + s.span.size ≤ image.length
  · rw [Span.mem_def] at hk
    have hp := Image.length_part h
    rw [run_of_le h]
    by_cases hl : k < s.span.start
    · rw [List.append_assoc, List.getElem?_append_left (by simp; omega), List.getElem?_take,
        if_pos hl]
    · rw [List.getElem?_append_right (by simp; omega), List.getElem?_drop]
      congr 1
      simp
      omega
  · rw [run_of_not_le (.inr h)]

/-- The part that a step turns. -/
theorem part_run {s : Step} {image : Image} (h : s.span.start + s.span.size ≤ image.length) :
    (s.run image).part s.span = s.turn.apply (image.part s.span) := by
  have hp := Image.length_part h
  apply List.ext_getElem?
  intro i
  rw [Image.getElem?_part]
  by_cases hi : i < s.span.size
  · rw [if_pos hi, getElem?_run_of_mem (Span.mem_def.2 (by omega)) h]
    congr 1
    omega
  · rw [if_neg hi, List.getElem?_eq_none (by simp; omega)]

theorem run_agree {s : Step} {S : Span} {a b : Image} (hs : s.span.Sub S)
    (h : Image.Agree S a b) : Image.Agree S (s.run a) (s.run b) := by
  have hp := (h.mono hs)
  by_cases hz : s.span.size = 0
  · rwa [run_of_not_le (.inl hz), run_of_not_le (.inl hz)]
  · intro k hk
    by_cases hm : k ∈ s.span
    · by_cases ha : s.span.start + s.span.size ≤ a.length
      · rw [getElem?_run_of_mem hm ha, getElem?_run_of_mem hm (hp.stop_le hz ha), hp.part_eq]
      · have hb : ¬ s.span.start + s.span.size ≤ b.length :=
          fun hb => ha (hp.symm.stop_le hz hb)
        rw [run_of_not_le (.inr ha), run_of_not_le (.inr hb)]
        exact h k hk
    · rw [getElem?_run_of_not_mem hm, getElem?_run_of_not_mem hm]
      exact h k hk

theorem run_shift (s : Step) (n : Nat) (image : Image) :
    (s.shift n).run image =
      if n ≤ image.length then image.take n ++ s.run (image.drop n) else image := by
  by_cases hn : n ≤ image.length
  · rw [if_pos hn]
    have hd : (image.drop n).length = image.length - n := List.length_drop
    by_cases h : s.span.start + s.span.size ≤ (image.drop n).length
    · have h' : (s.shift n).span.start + (s.shift n).span.size ≤ image.length := by
        simp only [shift, Span.shift]
        omega
      rw [run_of_le h, run_of_le h']
      simp only [shift, Span.shift, Image.part, List.take_add, List.drop_drop, List.append_assoc,
        Nat.add_assoc]
    · have h' : ¬ (s.shift n).span.start + (s.shift n).span.size ≤ image.length := by
        simp only [shift, Span.shift]
        omega
      rw [run_of_not_le (.inr h), run_of_not_le (.inr h'), List.take_append_drop]
  · rw [if_neg hn, run_of_not_le (.inr _)]
    simp only [shift, Span.shift]
    omega

end Step

/-! ## Runs -/

/-- Carries out steps one after the other. -/
def runSteps (steps : List Step) (image : Image) : Image :=
  steps.foldl (fun image s => s.run image) image

@[simp] theorem runSteps_nil (image : Image) : runSteps [] image = image := rfl

@[simp] theorem runSteps_cons (s : Step) (steps : List Step) (image : Image) :
    runSteps (s :: steps) image = runSteps steps (s.run image) := rfl

theorem runSteps_append (steps rest : List Step) (image : Image) :
    runSteps (steps ++ rest) image = runSteps rest (runSteps steps image) :=
  List.foldl_append

@[simp] theorem length_runSteps (steps : List Step) (image : Image) :
    (runSteps steps image).length = image.length := by
  induction steps generalizing image with
  | nil => rfl
  | cons s steps ih => rw [runSteps_cons, ih, Step.length_run]

@[simp] theorem runSteps_empty (steps : List Step) : runSteps steps [] = [] :=
  List.eq_nil_of_length_eq_zero (length_runSteps steps [])

/-- The steps keep to a span. -/
def Inside (S : Span) (steps : List Step) : Prop := ∀ s ∈ steps, s.span.Sub S

namespace Inside

variable {S T : Span} {steps rest : List Step}

theorem nil (S : Span) : Inside S [] := fun _ h => absurd h List.not_mem_nil

theorem single {s : Step} (h : s.span.Sub S) : Inside S [s] := fun _ hs => by
  rwa [List.mem_singleton.1 hs]

theorem append (h : Inside S steps) (h' : Inside S rest) : Inside S (steps ++ rest) :=
  fun s hs => (List.mem_append.1 hs).elim (h s) (h' s)

theorem flatMap {α : Type} {l : List α} {f : α → List Step} (h : ∀ x ∈ l, Inside S (f x)) :
    Inside S (l.flatMap f) := fun s hs => by
  obtain ⟨x, hx, hs⟩ := List.mem_flatMap.1 hs
  exact h x hx s hs

theorem mono (h : Inside S steps) (hs : S.Sub T) : Inside T steps :=
  fun s hm => (h s hm).trans hs

theorem shift (h : Inside S steps) (n : Nat) : Inside (S.shift n) (steps.map (Step.shift n)) :=
  fun s hs => by
    obtain ⟨t, ht, rfl⟩ := List.mem_map.1 hs
    exact (h t ht).shift n

end Inside

section
variable {S T : Span} {steps rest : List Step}

/-- A byte that lies in no span of a step keeps its value. -/
theorem getElem?_runSteps_of_not_mem (image : Image) {k : Nat} (h : ∀ s ∈ steps, k ∉ s.span) :
    (runSteps steps image)[k]? = image[k]? := by
  induction steps generalizing image with
  | nil => rfl
  | cons s steps ih =>
    rw [runSteps_cons, ih _ (fun t ht => h t (.tail _ ht)),
      Step.getElem?_run_of_not_mem (h s (.head _))]

theorem getElem?_runSteps (h : Inside S steps) (image : Image) {k : Nat} (hk : k ∉ S) :
    (runSteps steps image)[k]? = image[k]? :=
  getElem?_runSteps_of_not_mem image fun s hs hm => hk (h s hs k hm)

/-- A run reads nothing off its span. -/
theorem runSteps_agree (h : Inside S steps) {a b : Image} (hab : Image.Agree S a b) :
    Image.Agree S (runSteps steps a) (runSteps steps b) := by
  induction steps generalizing a b with
  | nil => exact hab
  | cons s steps ih =>
    exact ih (fun t ht => h t (.tail _ ht)) (Step.run_agree (h s (.head _)) hab)

theorem runSteps_apart (h : Inside S steps) (hd : S.Disjoint T) (image : Image) :
    Image.Agree T (runSteps steps image) image :=
  fun k hk => getElem?_runSteps h image fun hs => hd k hs hk

/-- Runs on disjoint spans commute. -/
theorem runSteps_comm (h : Inside S steps) (h' : Inside T rest) (hd : S.Disjoint T) :
    Function.Commute (runSteps steps) (runSteps rest) := by
  intro image
  apply Image.eq_of_agree (s := S)
  · -- on `S` the run of `rest` makes no difference, before or after the other one
    have h1 := runSteps_agree h (runSteps_apart h' hd.symm image)
    exact h1.trans (runSteps_apart h' hd.symm _).symm
  · intro k hk
    rw [getElem?_runSteps h _ hk]
    by_cases hT : k ∈ T
    · exact (runSteps_agree h' (runSteps_apart h hd image) k hT).symm
    · rw [getElem?_runSteps h' _ hT, getElem?_runSteps h' _ hT, getElem?_runSteps h _ hk]

/-- A run of shifted steps works on the tail of the image. -/
theorem runSteps_shift (steps : List Step) (n : Nat) (image : Image) :
    runSteps (steps.map (Step.shift n)) image =
      if n ≤ image.length then image.take n ++ runSteps steps (image.drop n) else image := by
  by_cases hn : n ≤ image.length
  · rw [if_pos hn]
    induction steps generalizing image with
    | nil => simp
    | cons s steps ih =>
      have hl : (image.take n).length = n := by simp [hn]
      rw [List.map_cons, runSteps_cons, Step.run_shift, if_pos hn, ih _ (by simp [hn]),
        List.take_left' hl, List.drop_left' hl, runSteps_cons]
  · rw [if_neg hn]
    induction steps generalizing image with
    | nil => rfl
    | cons s steps ih =>
      rw [List.map_cons, runSteps_cons, Step.run_shift, if_neg hn, ih _ hn]

theorem part_runSteps {size : Nat} (h : Inside ⟨0, size⟩ steps) {image : Image}
    (hs : size ≤ image.length) :
    (runSteps steps image).part ⟨0, size⟩ = runSteps steps (image.part ⟨0, size⟩) := by
  have hl : (image.part ⟨0, size⟩).length = size :=
    Image.length_part (s := ⟨0, size⟩) (by rwa [Nat.zero_add])
  have hag : Image.Agree ⟨0, size⟩ image (image.part ⟨0, size⟩) := by
    intro k hk
    rw [Image.getElem?_part, if_pos (Span.mem_mk_zero.1 hk), Nat.zero_add]
  rw [(runSteps_agree h hag).part_eq, Image.part_self (by rw [length_runSteps, hl])]

/-- A run on part of an image, seen from that part alone. -/
theorem part_runSteps_shift {n size : Nat} (h : Inside ⟨0, size⟩ steps) {image : Image}
    (hn : n + size ≤ image.length) :
    (runSteps (steps.map (Step.shift n)) image).part ⟨n, size⟩ =
      runSteps steps (image.part ⟨n, size⟩) := by
  have hl : (image.take n).length = n := by rw [List.length_take]; omega
  have hd : size ≤ (image.drop n).length := by rw [List.length_drop]; omega
  have hfront := part_runSteps h hd
  rw [runSteps_shift, if_pos (by omega)]
  simp only [Image.part, List.drop_zero] at hfront ⊢
  rw [List.drop_left' hl, hfront]

/-- Bytes after the span of a run stay as they are and make no difference. -/
theorem runSteps_tail {image : Image} (h : Inside ⟨0, image.length⟩ steps) (tail : Image) :
    runSteps steps (image ++ tail) = runSteps steps image ++ tail := by
  have hag : Image.Agree ⟨0, image.length⟩ (image ++ tail) image := by
    intro k hk
    exact List.getElem?_append_left (Span.mem_mk_zero.1 hk)
  have hr := runSteps_agree h hag
  apply List.ext_getElem?
  intro k
  by_cases hk : k < image.length
  · rw [List.getElem?_append_left (by simpa using hk)]
    exact hr k (Span.mem_mk_zero.2 hk)
  · rw [getElem?_runSteps h _ (by rwa [Span.mem_mk_zero]),
      List.getElem?_append_right (by omega), List.getElem?_append_right (by simp; omega),
      length_runSteps]

end

end RecordSwap
