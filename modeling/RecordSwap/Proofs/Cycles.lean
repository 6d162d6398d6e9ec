import Mathlib.Control.Monad.Basic
import Mathlib.Logic.Relation
import RecordSwap.Proofs.Order

/-!
# Cycles

Records can be ordered exactly when no record refers to itself, directly or through others.

* `Dependency.Needs`: the relation that a walk follows. A sorted order has no cycle
  (`Sorted.not_cycle`), and the node at which a visit stops lies on a cycle unless it is being
  visited (`visit_error`). Together they say when nodes can be sorted (`sort_isOk_iff`).
* `Record.Refers`, `Record.RefersIn`, `Record.OnCycle`: a record refers to those that are the types
  of its declared rows.
* `Record.transGen_refersIn`, `Record.transGen_needs`: with distinct names, walks along indices are
  walks along records.
* `Record.order_correct`: the statement about lists of records.
-/

namespace RecordSwap

open Relation (TransGen ReflTransGen)

theorem bind_eq_error_iff {ε α β : Type} {x : Except ε α} {f : α → Except ε β} {e : ε} :
    x >>= f = .error e ↔ x = .error e ∨ ∃ a, x = .ok a ∧ f a = .error e := by
  cases x <;> simp [bind, Except.bind]

theorem foldlM_eq_error {ε α β : Type} {f : β → α → Except ε β} {l : List α} {b : β} {e : ε}
    (h : l.foldlM f b = .error e) : ∃ x ∈ l, ∃ b, f b x = .error e := by
  induction l generalizing b with
  | nil => cases h
  | cons x l ih =>
    rw [List.foldlM_cons, bind_eq_error_iff] at h
    rcases h with h | ⟨c, -, h⟩
    · exact ⟨x, .head _, b, h⟩
    · obtain ⟨y, hy, hf⟩ := ih h
      exact ⟨y, .tail _ hy, hf⟩

/-- The first failure counts. -/
theorem mapM_eq_error_iff {ε α β : Type} {l : List α} {f : α → Except ε β} {e : ε} :
    l.mapM f = .error e ↔ ∃ good bad rest, l = good ++ bad :: rest ∧
      (∀ x ∈ good, ∃ y, f x = .ok y) ∧ f bad = .error e := by
  constructor
  · intro h
    induction l with
    | nil => cases h
    | cons x l ih =>
      rw [List.mapM_cons, bind_eq_error_iff] at h
      rcases h with h | ⟨y, hy, h⟩
      · exact ⟨[], x, l, rfl, by simp, h⟩
      · rcases bind_eq_error_iff.1 h with h | ⟨ys, -, h⟩
        · obtain ⟨good, bad, rest, rfl, hgood, hbad⟩ := ih h
          exact ⟨x :: good, bad, rest, rfl, List.forall_mem_cons.2 ⟨⟨y, hy⟩, hgood⟩, hbad⟩
        · cases h
  · rintro ⟨good, bad, rest, rfl, hgood, hbad⟩
    induction good with
    | nil =>
      rw [List.nil_append, List.mapM_cons, hbad]
      rfl
    | cons x good ih =>
      obtain ⟨⟨y, hy⟩, hgood⟩ := List.forall_mem_cons.1 hgood
      rw [List.cons_append, List.mapM_cons, bind_eq_error_iff]
      exact .inr ⟨y, hy, bind_eq_error_iff.2 (.inl (ih hgood))⟩

namespace Dependency

/-- The first node needs the second one directly. -/
def Needs (needs : Nat → List Nat) (x y : Nat) : Prop := y ∈ needs x

variable {needs : Nat → List Nat} {idle order : List Nat} {count x y : Nat}

theorem Sorted.earlier_transGen (h : Sorted needs order) (hxy : TransGen (Needs needs) x y)
    {i : Nat} (hx : order[i]? = some x) : ∃ j < i, order[j]? = some y := by
  induction hxy with
  | single hy => exact h.earlier hx hy
  | tail _ hz ih =>
    obtain ⟨j, hj, hy⟩ := ih
    obtain ⟨k, hk, hz⟩ := h.earlier hy hz
    exact ⟨k, by omega, hz⟩

theorem Sorted.not_cycle (h : Sorted needs order) (hx : x ∈ order) :
    ¬ TransGen (Needs needs) x x := by
  intro hc
  obtain ⟨i, hi⟩ := List.mem_iff_getElem?.1 hx
  obtain ⟨j, hj, hjx⟩ := h.earlier_transGen hc hi
  have := (List.getElem?_inj (List.getElem?_eq_some_iff.1 hi).1 h.nodup).1 (hi.trans hjx.symm)
  omega

/-- The node at which a visit stops is reached from the visited one. If the visit found it idle,
it lies on a cycle. -/
theorem visit_error {node : Nat} (h : visit needs idle order node = .error x) :
    ReflTransGen (Needs needs) node x ∧ (x ∈ idle → TransGen (Needs needs) x x) := by
  induction hn : idle.length using Nat.strongRecOn generalizing idle order node with
  | ind n ih =>
    rw [visit] at h
    split at h
    · cases h
    · split at h
      · next hi =>
        rcases bind_eq_error_iff.1 h with h | ⟨_, -, h⟩
        · obtain ⟨next, hnext, order', hv⟩ := foldlM_eq_error h
          have hl : (idle.erase node).length < n := by
            have := List.length_pos_of_mem hi
            rw [List.length_erase_of_mem hi]
            omega
          obtain ⟨hreach, hcycle⟩ := ih _ hl hv rfl
          have hstep : Needs needs node next := hnext
          refine ⟨.head hstep hreach, fun hx => ?_⟩
          by_cases hxn : x = node
          · -- the walk has come back to the node that is being visited
            subst hxn
            exact .head' hstep hreach
          · exact hcycle ((List.mem_erase_of_ne hxn).2 hx)
        · cases h
      · next hi =>
        cases h
        exact ⟨.refl, fun hx => absurd hx hi⟩

theorem lt_of_reflTransGen (hb : ∀ x < count, ∀ y ∈ needs x, y < count)
    (h : ReflTransGen (Needs needs) x y) (hx : x < count) : y < count := by
  induction h with
  | refl => exact hx
  | tail _ hz ih => exact hb _ ih _ hz

theorem sort_error (hb : ∀ x < count, ∀ y ∈ needs x, y < count)
    (h : sort needs count = .error x) : x < count ∧ TransGen (Needs needs) x x := by
  obtain ⟨node, hnode, order, hv⟩ := foldlM_eq_error h
  obtain ⟨hreach, hcycle⟩ := visit_error hv
  have hx := lt_of_reflTransGen hb hreach (List.mem_range.1 hnode)
  exact ⟨hx, hcycle (List.mem_range.2 hx)⟩

/-- Nodes can be sorted exactly when there is no cycle. -/
theorem sort_isOk_iff (hb : ∀ x < count, ∀ y ∈ needs x, y < count) :
    (∃ order, sort needs count = .ok order) ↔
      ∀ x < count, ¬ TransGen (Needs needs) x x := by
  constructor
  · rintro ⟨order, h⟩ x hx
    obtain ⟨hs, hp⟩ := sort_ok h
    exact hs.not_cycle (hp.symm.subset (List.mem_range.2 hx))
  · intro hacyclic
    cases h : sort needs count with
    | ok order => exact ⟨order, rfl⟩
    | error x =>
      obtain ⟨hx, hcycle⟩ := sort_error hb h
      exact absurd hcycle (hacyclic x hx)

end Dependency

namespace Record

/-- A declared row of the first record has the name of the second one as its type. -/
def Refers (s t : Record) : Prop := ∃ r ∈ s.declared, r.dataType = t.name

/-- The references between the records of a list. -/
def RefersIn (records : List Record) (s t : Record) : Prop :=
  s ∈ records ∧ t ∈ records ∧ s.Refers t

/-- The record refers to itself, directly or through other records of the list. -/
def OnCycle (records : List Record) (s : Record) : Prop := TransGen (RefersIn records) s s

/-- No record is lost or repeated, and each stands after all records that it refers to. -/
structure Ordered (records out : List Record) : Prop where
  perm : out.Perm records
  earlier : ∀ {i j : Nat} {s t : Record}, out[i]? = some s → out[j]? = some t → s.Refers t → j < i

variable {records : List Record} {i j : Nat} {s t : Record}

theorem exists_of_mem_needs (hi : records[i]? = some s) (h : j ∈ needs records i) :
    ∃ t, records[j]? = some t ∧ s.Refers t := by
  simp only [needs, hi, List.mem_filterMap] at h
  obtain ⟨r, hr, hj⟩ := h
  obtain ⟨t, ht, htn⟩ := lastIndex?_eq_some hj
  exact ⟨t, ht, r, hr, htn.symm⟩

theorem mem_needs (hd : (records.map Record.name).Nodup) (hi : records[i]? = some s)
    (hj : records[j]? = some t) (h : s.Refers t) : j ∈ needs records i := by
  obtain ⟨r, hr, hrt⟩ := h
  obtain ⟨k, u, hk, hu, hun⟩ := lastIndex?_isSome hj hrt.symm
  obtain rfl : k = j := index_unique hd hu hj (hun.trans hrt)
  simp only [needs, hi, List.mem_filterMap]
  exact ⟨r, hr, hk⟩

theorem needs_lt (records : List Record) :
    ∀ i < records.length, ∀ j ∈ needs records i, j < records.length := by
  intro i hi j hj
  obtain ⟨t, ht, -⟩ := exists_of_mem_needs (List.getElem?_eq_getElem hi) hj
  exact (List.getElem?_eq_some_iff.1 ht).1

/-- A walk along indices is a walk along records. -/
theorem transGen_refersIn (hi : records[i]? = some s)
    (h : TransGen (Dependency.Needs (needs records)) i j) :
    ∃ t, records[j]? = some t ∧ TransGen (RefersIn records) s t := by
  induction h with
  | single hj =>
    obtain ⟨t, ht, hst⟩ := exists_of_mem_needs hi hj
    exact ⟨t, ht, .single ⟨List.mem_of_getElem? hi, List.mem_of_getElem? ht, hst⟩⟩
  | tail _ hk ih =>
    obtain ⟨t, ht, hst⟩ := ih
    obtain ⟨u, hu, htu⟩ := exists_of_mem_needs ht hk
    exact ⟨u, hu, hst.tail ⟨List.mem_of_getElem? ht, List.mem_of_getElem? hu, htu⟩⟩

/-- With distinct names, a walk along records is a walk along indices. -/
theorem transGen_needs (hd : (records.map Record.name).Nodup) (hi : records[i]? = some s)
    (h : TransGen (RefersIn records) s t) :
    ∃ j, records[j]? = some t ∧ TransGen (Dependency.Needs (needs records)) i j := by
  induction h with
  | single hst =>
    obtain ⟨-, ht, hst⟩ := hst
    obtain ⟨j, hj⟩ := List.mem_iff_getElem?.1 ht
    exact ⟨j, hj, .single (mem_needs hd hi hj hst)⟩
  | tail _ htu ih =>
    obtain ⟨j, hj, hij⟩ := ih
    obtain ⟨-, hu, htu⟩ := htu
    obtain ⟨k, hk⟩ := List.mem_iff_getElem?.1 hu
    exact ⟨k, hk, hij.tail (mem_needs hd hj hk htu)⟩

theorem onCycle_iff (hd : (records.map Record.name).Nodup) (hi : records[i]? = some s) :
    OnCycle records s ↔ TransGen (Dependency.Needs (needs records)) i i := by
  constructor
  · intro h
    obtain ⟨j, hj, hij⟩ := transGen_needs hd hi h
    obtain rfl := index_unique hd hi hj rfl
    exact hij
  · intro h
    obtain ⟨t, ht, hst⟩ := transGen_refersIn hi h
    obtain rfl := Option.some.inj (hi.symm.trans ht)
    exact hst

theorem OnCycle.mem (h : OnCycle records s) : s ∈ records := by
  obtain ⟨t, hst, -⟩ := TransGen.head'_iff.1 h
  exact hst.1

theorem order_ordered {out : List Record} (hd : (records.map Record.name).Nodup)
    (h : order records = .ok out) : Ordered records out := by
  have hp := order_perm h
  refine ⟨hp, fun {i j s t} hi hj hst => ?_⟩
  obtain ⟨r, hr, hrt⟩ := hst
  exact order_earlier h ((hp.map Record.name).nodup_iff.2 hd) hi hr hj hrt

theorem order_isOk_iff (hd : (records.map Record.name).Nodup) :
    (∃ out, order records = .ok out) ↔ ∀ s, ¬ OnCycle records s := by
  have hsort : (∃ out, order records = .ok out) ↔
      ∃ nodes, Dependency.sort (needs records) records.length = .ok nodes := by
    unfold order
    cases Dependency.sort (needs records) records.length <;> simp
  rw [hsort, Dependency.sort_isOk_iff (needs_lt records)]
  constructor
  · intro hacyclic s hs
    obtain ⟨i, hi⟩ := List.mem_iff_getElem?.1 hs.mem
    exact hacyclic i (List.getElem?_eq_some_iff.1 hi).1 ((onCycle_iff hd hi).1 hs)
  · intro hacyclic i hi hc
    exact hacyclic _ ((onCycle_iff hd (List.getElem?_eq_getElem hi)).2 hc)

theorem order_error {name : String} (hd : (records.map Record.name).Nodup)
    (h : order records = .error name) : ∃ s, OnCycle records s ∧ s.name = name := by
  unfold order at h
  split at h
  · cases h
  · next i hsort =>
    cases h
    obtain ⟨hi, hc⟩ := Dependency.sort_error (needs_lt records) hsort
    have hs := List.getElem?_eq_getElem hi
    exact ⟨records[i], (onCycle_iff hd hs).2 hc, by simp [hs]⟩

/-- **The dependency order is sound and complete.** Records with distinct names can be ordered
exactly when none of them refers to itself, directly or through others. Then the result has all of
them, each after those it refers to; otherwise the error names a record on a cycle. -/
theorem order_correct (hd : (records.map Record.name).Nodup) :
    ((∃ out, order records = .ok out) ↔ ∀ s, ¬ OnCycle records s) ∧
      (∀ out, order records = .ok out → Ordered records out) ∧
      (∀ name, order records = .error name → ∃ s, OnCycle records s ∧ s.name = name) :=
  ⟨order_isOk_iff hd, fun _ h => order_ordered hd h, fun _ h => order_error hd h⟩

end Record

namespace Sample

/-- A record with one member of each of the given types. -/
def embedding (name : String) (types : List String) : Record where
  name := name
  rows := types.zipIdx.map fun (type, i) => { name := s!"m{i}", dataType := type }

def leaf : Record := embedding "Leaf" ["uint8"]

def left : Record := embedding "Left" ["Leaf", "uint16", "Leaf"]

def right : Record := embedding "Right" ["Leaf"]

def frame : Record := embedding "Frame" ["Left", "Right"]

/-- A record outside a cycle of two others. -/
def looped : List Record :=
  [embedding "Frame" ["Left"], embedding "Left" ["uint8", "Right"], embedding "Right" ["Left"]]

end Sample

/-- The order of records of which two share a third one, and the record at which a cycle is
noticed. -/
theorem Record.order_correct_sample :
    Ordered [Sample.frame, Sample.left, Sample.right, Sample.leaf]
      [Sample.leaf, Sample.left, Sample.right, Sample.frame] ∧
    (∀ s, ¬ OnCycle [Sample.frame, Sample.left, Sample.right, Sample.leaf] s) ∧
    ∃ s, OnCycle Sample.looped s ∧ s.name = "Left" := by
  have hnames : ([Sample.frame, Sample.left, Sample.right, Sample.leaf].map Record.name).Nodup := by
    decide
  have hlooped : (Sample.looped.map Record.name).Nodup := by decide
  obtain ⟨hiff, hok, -⟩ := order_correct hnames
  obtain ⟨-, -, herror⟩ := order_correct hlooped
  have horder : order [Sample.frame, Sample.left, Sample.right, Sample.leaf] =
      .ok [Sample.leaf, Sample.left, Sample.right, Sample.frame] := by decide +kernel
  exact ⟨hok _ horder, hiff.1 ⟨_, horder⟩, herror "Left" (by decide +kernel)⟩

end RecordSwap
