/-!
# Checked arithmetic

Sizes and offsets are counted in 64-bit words, bit lengths and bit positions in 32-bit words. All of
them are kept as natural numbers here, and every sum or product that has to fit its word goes
through an operation of this module, which stops with `Fault.overflow` when it does not.

* `addSize`, `mulSize`, `product`: sums and products of sizes.
* `addBits`, `mulBits`: sums and products of bit counts.
* `addSize_eq_ok`, `mulSize_eq_ok`, `addBits_eq_ok`, `mulBits_eq_ok`: an operation succeeds exactly
  when the mathematical result fits, and then it is that result.
* `product_eq_ok`: what a product of extents is, if all partial products fit.
-/

namespace RecordSwap

/-- Why a computation on sizes, plans or text columns cannot go on. -/
inductive Fault where
  /-- A size, an offset or a bit count does not fit its word. -/
  | overflow
  /-- A member embeds a record that does not stand before its container. -/
  | forwardEmbedding
  /-- A text column is wider than a line can be padded to. -/
  | columnLimit
  deriving DecidableEq, Repr

/-- A computation that may stop with a fault. -/
abbrev Checked (α : Type) : Type := Except Fault α

/-- Sizes and offsets lie below this bound, `2 ^ 64`. -/
def sizeLimit : Nat := 0x10000000000000000

/-- Bit lengths and bit positions lie below this bound, `2 ^ 32`. -/
def bitLimit : Nat := 0x100000000

/-- A sequence of two computations succeeds exactly when both do. -/
theorem bind_eq_ok_iff {ε α β : Type} {x : Except ε α} {f : α → Except ε β} {b : β} :
    x >>= f = .ok b ↔ ∃ a, x = .ok a ∧ f a = .ok b := by
  cases x <;> simp [bind, Except.bind]

namespace Checked

variable {α β : Type}

@[simp] theorem ok_bind (a : α) (f : α → Checked β) : (Except.ok a >>= f : Checked β) = f a := rfl

@[simp] theorem error_bind (e : Fault) (f : α → Checked β) :
    (Except.error e >>= f : Checked β) = Except.error e := rfl

@[simp] theorem pure_eq_ok (a : α) : (pure a : Checked α) = Except.ok a := rfl

@[simp] theorem throw_eq_error (e : Fault) : (throw e : Checked α) = Except.error e := rfl

theorem bind_eq_ok {x : Checked α} {f : α → Checked β} {b : β} :
    x >>= f = .ok b ↔ ∃ a, x = .ok a ∧ f a = .ok b :=
  bind_eq_ok_iff

end Checked

/-- A list of computations that all succeed. -/
theorem Checked.mapM_eq_ok {α β : Type} {l : List α} {f : α → Checked β} {g : α → β}
    (h : ∀ x ∈ l, f x = .ok (g x)) : l.mapM f = .ok (l.map g) := by
  induction l with
  | nil => rfl
  | cons x l ih =>
    rw [List.mapM_cons, h x (.head _), Checked.ok_bind, ih fun y hy => h y (.tail _ hy)]
    rfl

/-- The result `n`, if it lies below `limit`. -/
def fit (limit n : Nat) : Checked Nat :=
  if n < limit then pure n else throw .overflow

theorem fit_eq_ok {limit n r : Nat} : fit limit n = .ok r ↔ n < limit ∧ r = n := by
  by_cases h : n < limit
  · simp [fit, h, eq_comm]
  · simp [fit, h]

/-! ## Sizes -/

/-- Sum of two sizes. -/
def addSize (a b : Nat) : Checked Nat := fit sizeLimit (a + b)

/-- Product of two sizes. -/
def mulSize (a b : Nat) : Checked Nat := fit sizeLimit (a * b)

/-- Product of a list of extents, taken from the left; each partial product has to fit, whatever
factors follow. -/
def product (extents : List Nat) : Checked Nat := extents.foldlM mulSize 1

/-- Number of elements of an array with these extents, one for a scalar. -/
def arrayLength (extents : List Nat) : Nat := extents.foldl (· * ·) 1

theorem addSize_eq_ok {a b r : Nat} : addSize a b = .ok r ↔ a + b < sizeLimit ∧ r = a + b :=
  fit_eq_ok

theorem mulSize_eq_ok {a b r : Nat} : mulSize a b = .ok r ↔ a * b < sizeLimit ∧ r = a * b :=
  fit_eq_ok

theorem foldlM_mulSize {extents : List Nat} {a n : Nat}
    (h : extents.foldlM mulSize a = .ok n) : n = extents.foldl (· * ·) a := by
  induction extents generalizing a with
  | nil =>
    cases h
    rfl
  | cons e extents ih =>
    rw [List.foldlM_cons, Checked.bind_eq_ok] at h
    obtain ⟨b, hb, h⟩ := h
    obtain ⟨-, rfl⟩ := mulSize_eq_ok.1 hb
    exact ih h

/-- A product of extents that fits is the product of the numbers. -/
theorem product_eq_ok {extents : List Nat} {n : Nat} (h : product extents = .ok n) :
    n = arrayLength extents :=
  foldlM_mulSize h

/-! ## Bit counts -/

/-- Sum of two bit counts. -/
def addBits (a b : Nat) : Checked Nat := fit bitLimit (a + b)

/-- Product of two bit counts. -/
def mulBits (a b : Nat) : Checked Nat := fit bitLimit (a * b)

theorem addBits_eq_ok {a b r : Nat} : addBits a b = .ok r ↔ a + b < bitLimit ∧ r = a + b :=
  fit_eq_ok

theorem mulBits_eq_ok {a b r : Nat} : mulBits a b = .ok r ↔ a * b < bitLimit ∧ r = a * b :=
  fit_eq_ok

end RecordSwap
