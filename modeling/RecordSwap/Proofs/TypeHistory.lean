import Mathlib.Data.List.Induction
import RecordSwap.Proofs.Members
import RecordSwap.Proofs.PrimitiveIndex

/-!
# What a type table remembers

A type table is the result of the definitions that were made in it, and answers by the last one of
each name. Primitives and records are kept apart, and a primitive hides a record of its name whether
it is defined before the record or after it.

* `TypeTable.Call`, `TypeTable.after`: definitions, one after the other.
* `IsLast`: the last element of a list with a property.
* `TypeTable.Holds`: the slots of the primitives and the sizes of the records, for the definitions
  that were made. One more call keeps them (`Holds.apply`), and so do all (`Holds.after`).
* `TypeTable.Answers`: the answers of a table that holds definitions.
* `TypeTable.after_answers`: the statement about the tables that one can start from.
-/

namespace RecordSwap

/-! ## Lists with repetitions -/

/-- The last element of a list with the property `P`. -/
def IsLast {α : Type} (l : List α) (P : α → Prop) (x : α) : Prop :=
  ∃ before after, l = before ++ x :: after ∧ P x ∧ ∀ y ∈ after, ¬ P y

theorem isLast_iff_find? {α : Type} {l : List α} {P : α → Prop} [DecidablePred P] {x : α} :
    IsLast l P x ↔ l.reverse.find? (fun y => decide (P y)) = some x := by
  rw [List.find?_eq_some_iff_append]
  constructor
  · rintro ⟨before, after, rfl, hx, hafter⟩
    refine ⟨decide_eq_true hx, after.reverse, before.reverse, by simp, fun y hy => ?_⟩
    simpa using hafter y (List.mem_reverse.1 hy)
  · rintro ⟨hx, after, before, hl, hafter⟩
    refine ⟨before.reverse, after.reverse, ?_, of_decide_eq_true hx, fun y hy => ?_⟩
    · rw [← List.reverse_reverse l, hl]
      simp
    · simpa using hafter y (List.mem_reverse.1 hy)

theorem eraseDups_concat (names : List String) (name : String) :
    (names ++ [name]).eraseDups =
      if name ∈ names then names.eraseDups else names.eraseDups ++ [name] := by
  rw [List.eraseDups_append]
  split
  · next h => simp [List.removeAll, h]
  · next h => simp [List.removeAll, h, List.eraseDups_cons]

theorem nodup_eraseDups (names : List String) : names.eraseDups.Nodup := by
  induction names using List.reverseRecOn with
  | nil => exact List.nodup_nil
  | append_singleton names name ih =>
    rw [eraseDups_concat]
    split
    · exact ih
    · next h =>
      rw [← List.concat_eq_append]
      exact ih.concat fun hm => h (List.mem_eraseDups.1 hm)

namespace TypeTable

/-! ## Definitions -/

/-- A definition in a type table. -/
inductive Call where
  | insert (p : Primitive)
  | defineRecord (name : String) (size : Nat)
  deriving DecidableEq, Repr

def Call.apply (t : TypeTable) : Call → TypeTable
  | insert p => t.insert p
  | defineRecord name size => t.defineRecord name size

/-- The table after some calls. -/
def after (t : TypeTable) (calls : List Call) : TypeTable := calls.foldl Call.apply t

def Call.primitive? : Call → Option Primitive
  | insert p => some p
  | defineRecord .. => none

def Call.size? : Call → Option (String × Nat)
  | insert _ => none
  | defineRecord name size => some (name, size)

/-! ## All definitions -/

/-- A table that holds primitives and record sizes, which were defined in the order of the lists. -/
structure Holds (t : TypeTable) (ps : List Primitive) (sizes : List (String × Nat)) : Prop where
  indexed : t.primitives.Indexed
  /-- Every name has one slot, in the order of first definitions. -/
  names : t.primitives.names = (ps.map Primitive.name).eraseDups
  found : ∀ name, t.primitive? name = ps.reverse.find? (·.name = name)
  records : t.records = sizes.reverse

theorem holds_empty : empty.Holds [] [] :=
  ⟨PrimitiveTable.indexed_empty, rfl, fun _ => rfl, rfl⟩

section
variable {t : TypeTable} {ps : List Primitive} {sizes : List (String × Nat)}

theorem Holds.apply (h : t.Holds ps sizes) (c : Call) :
    (c.apply t).Holds (ps ++ c.primitive?.toList) (sizes ++ c.size?.toList) := by
  cases c with
  | insert p =>
    refine ⟨h.indexed.insert p, ?_, fun name => ?_, h.records.trans (by simp [Call.size?])⟩
    · change (t.primitives.insert p).names = _
      rw [h.indexed.names_insert, h.names, Call.primitive?, Option.toList_some, List.map_append,
        List.map_singleton, eraseDups_concat]
      simp only [List.mem_eraseDups]
    · change (t.primitives.insert p).find? name = _
      have hold : t.primitives.find? name = _ := h.found name
      rw [h.indexed.find?_insert, hold, Call.primitive?, Option.toList_some, List.reverse_append,
        List.reverse_singleton, List.singleton_append, List.find?_cons]
      by_cases hp : p.name = name <;> simp [hp]
  | defineRecord name size =>
    refine ⟨h.indexed, h.names.trans (by simp [Call.primitive?]),
      fun other => (h.found other).trans (by simp [Call.primitive?]), ?_⟩
    · change (name, size) :: t.records = _
      rw [h.records, Call.size?, Option.toList_some, List.reverse_append, List.reverse_singleton]
      rfl

theorem Holds.after (h : t.Holds ps sizes) (calls : List Call) :
    (t.after calls).Holds (ps ++ calls.filterMap Call.primitive?)
      (sizes ++ calls.filterMap Call.size?) := by
  unfold TypeTable.after
  induction calls generalizing t ps sizes with
  | nil => simpa using h
  | cons c calls ih =>
    have hrest := ih (h.apply c)
    have hcons {α : Type} (f : Call → Option α) :
        (c :: calls).filterMap f = (f c).toList ++ calls.filterMap f := by
      rw [List.filterMap_cons]
      cases f c <;> rfl
    rwa [List.foldl_cons, hcons, hcons, ← List.append_assoc, ← List.append_assoc]

/-- The built-in types have been defined one after the other. -/
theorem holds_builtin : builtin.Holds builtinPrimitives [] :=
  holds_empty.after (builtinPrimitives.map .insert)

end

/-! ## Answers -/

/-- What a table answers when the primitives `ps` and the record sizes `sizes` have been defined in
it, in the order of the lists. -/
structure Answers (t : TypeTable) (ps : List Primitive) (sizes : List (String × Nat)) : Prop where
  /-- The names that have been defined, each one once, in the order in which they came up, are those
  of the slots; and each is indexed at exactly the slot that holds it. -/
  slots : t.primitives.names = (ps.map Primitive.name).eraseDups ∧ t.primitives.Indexed
  primitive : ∀ {name : String} {p : Primitive},
    t.primitive? name = some p ↔ IsLast ps (·.name = name) p
  /-- A primitive of the name counts, whatever records have it. -/
  size : ∀ {name : String} {n : Nat}, t.sizeOf? name = some n ↔
    (∃ p, IsLast ps (·.name = name) p ∧ p.size = n) ∨
      name ∉ ps.map Primitive.name ∧ IsLast sizes (·.1 = name) (name, n)
  category : ∀ {name : String} {c : Category}, t.category? name = some c ↔
    (∃ p, IsLast ps (·.name = name) p ∧ p.category = c) ∨
      name ∉ ps.map Primitive.name ∧ name ∈ sizes.map Prod.fst ∧ c = .record
  aliased : ∀ {name cName : String}, (name, cName) ∈ t.aliases ↔
    (∃ p, IsLast ps (·.name = name) p ∧ p.cName = cName) ∧
      name ≠ "" ∧ cName ≠ "" ∧ name ≠ cName
  /-- Aliases stand in the order in which their names were first defined. -/
  aliasOrder : (t.aliases.map Prod.fst).Sublist (ps.map Primitive.name).eraseDups
  aliasOnce : (t.aliases.map Prod.fst).Nodup

namespace Holds

variable {t : TypeTable} {ps : List Primitive} {sizes : List (String × Nat)}
  (h : t.Holds ps sizes)
include h

theorem primitive?_eq_some {name : String} {p : Primitive} :
    t.primitive? name = some p ↔ IsLast ps (·.name = name) p := by
  rw [h.found, isLast_iff_find?]

theorem primitive?_eq_none {name : String} :
    t.primitive? name = none ↔ name ∉ ps.map Primitive.name := by
  rw [h.found]
  simp

theorem recordSize?_eq_some {name : String} {n : Nat} :
    t.recordSize? name = some n ↔ IsLast sizes (·.1 = name) (name, n) := by
  rw [recordSize?, h.records, isLast_iff_find?, List.lookup_eq_some_iff,
    List.find?_eq_some_iff_append]
  simp only [bne_iff_ne, decide_true, true_and, Bool.not_eq_true', decide_eq_false_iff_not,
    ne_comm, ne_eq]

theorem mem_aliases {name cName : String} : (name, cName) ∈ t.aliases ↔
    (∃ p, t.primitive? name = some p ∧ p.cName = cName) ∧
      name ≠ "" ∧ cName ≠ "" ∧ name ≠ cName := by
  unfold aliases
  rw [List.mem_filterMap]
  constructor
  · rintro ⟨p, hp, halias⟩
    obtain ⟨hdiffer, hpair⟩ := Option.ite_none_right_eq_some.1 halias
    cases hpair
    exact ⟨⟨p, h.indexed.find?_eq_some.2 ⟨hp, rfl⟩, rfl⟩, hdiffer⟩
  · rintro ⟨⟨p, hp, rfl⟩, hdiffer⟩
    obtain ⟨hslot, rfl⟩ := h.indexed.find?_eq_some.1 hp
    exact ⟨p, hslot, if_pos hdiffer⟩

theorem aliases_sublist : (t.aliases.map Prod.fst).Sublist (ps.map Primitive.name).eraseDups := by
  rw [← h.names]
  refine sublist_map_filterMap (fun p pair halias => ?_) t.primitives.slots
  obtain ⟨-, hpair⟩ := Option.ite_none_right_eq_some.1 halias
  cases hpair
  rfl

theorem answers : t.Answers ps sizes where
  slots := ⟨h.names, h.indexed⟩
  primitive := h.primitive?_eq_some
  size {name n} := by
    simp only [sizeOf?, ← h.primitive?_eq_some, ← h.primitive?_eq_none, ← h.recordSize?_eq_some]
    cases t.primitive? name <;> simp
  category {name c} := by
    have hnoted : name ∈ sizes.map Prod.fst ↔ ∃ n, t.recordSize? name = some n := by
      rw [← Option.isSome_iff_exists, ← Option.ne_none_iff_isSome, recordSize?, h.records, Ne,
        List.lookup_eq_none_iff]
      simp
    simp only [category?, ← h.primitive?_eq_some, ← h.primitive?_eq_none, hnoted]
    cases t.primitive? name with
    | none => cases t.recordSize? name <;> simp [eq_comm]
    | some p => simp
  aliased := by
    simp only [← h.primitive?_eq_some]
    exact h.mem_aliases
  aliasOrder := h.aliases_sublist
  aliasOnce := h.aliases_sublist.nodup (nodup_eraseDups _)

end Holds

/-- **A type table answers by the last definitions.** This holds after any calls, from the empty
table as well as from the table of the built-in types, which count as definitions before the
calls. -/
theorem after_answers (calls : List Call) :
    (empty.after calls).Answers (calls.filterMap Call.primitive?) (calls.filterMap Call.size?) ∧
      (builtin.after calls).Answers (builtinPrimitives ++ calls.filterMap Call.primitive?)
        (calls.filterMap Call.size?) :=
  ⟨(holds_empty.after calls).answers, (holds_builtin.after calls).answers⟩

/-- A primitive that is defined again keeps its place, and hides a record that is defined later. -/
example :
    let t := builtin.after [.defineRecord "Cell" 3, .insert ⟨"address", "void *", 8, .pointer⟩,
      .defineRecord "uint8" 9, .insert ⟨"byte", "", 1, .character⟩]
    t.sizeOf? "Cell" = some 3 ∧ t.sizeOf? "uint8" = some 1 ∧
      t.aliases.getLast? = some ("address", "void *") := by
  decide

end TypeTable

end RecordSwap
