import RecordSwap.Types

/-!
# Slots of primitives

A table of primitives keeps its definitions in slots, and beside them the slot of each name. Both
are changed together.

* `PrimitiveTable.Indexed`: each name is indexed at exactly the slot that holds it. One definition
  more keeps this (`Indexed.insert`).
* `PrimitiveTable.Indexed.find?_eq_some`: so the names lead to all the definitions of the table, and
  to no other slot.
* `PrimitiveTable.Indexed.find?_insert`, `Indexed.names_insert`: what one definition more changes.
-/

namespace RecordSwap.PrimitiveTable

/-- Names of the definitions, slot by slot. -/
def names (t : PrimitiveTable) : List String := t.slots.map Primitive.name

/-- A name is indexed at a slot just if the slot holds a definition of it. No two slots hold
definitions of one name then, and no index lies beyond the slots. -/
def Indexed (t : PrimitiveTable) : Prop :=
  ∀ name slot, t.slot? name = some slot ↔ t.names[slot]? = some name

theorem indexed_empty : Indexed {} := fun _ _ => by simp [slot?, names]

variable {t : PrimitiveTable} {p : Primitive} {name : String} {slot : Nat}

/-! ## One definition more -/

theorem insert_of_some (h : t.slot? p.name = some slot) :
    t.insert p = { t with slots := t.slots.set slot p } := by
  rw [insert, h]

theorem insert_of_none (h : t.slot? p.name = none) :
    t.insert p = { slots := t.slots ++ [p], index := (p.name, t.slots.length) :: t.index } := by
  rw [insert, h]

theorem slot?_insert_of_none (h : t.slot? p.name = none) :
    (t.insert p).slot? name = if name = p.name then some t.slots.length else t.slot? name := by
  rw [insert_of_none h, slot?, slot?, List.lookup_cons]
  by_cases hn : name = p.name
  · simp [hn]
  · rw [if_neg hn, beq_eq_false_iff_ne.2 hn]

namespace Indexed

variable (h : t.Indexed)
include h

theorem slot_lt (hs : t.slot? name = some slot) : slot < t.slots.length := by
  obtain ⟨hlt, -⟩ := List.getElem?_eq_some_iff.1 ((h _ _).1 hs)
  rwa [names, List.length_map] at hlt

theorem slot?_eq_none : t.slot? name = none ↔ name ∉ t.names := by
  rw [Option.eq_none_iff_forall_ne_some, List.mem_iff_getElem?, not_exists]
  exact forall_congr' fun slot => not_congr (h name slot)

/-- A name keeps its slot, or gets one at the end. -/
theorem names_insert : (t.insert p).names =
    if p.name ∈ t.names then t.names else t.names ++ [p.name] := by
  cases hs : t.slot? p.name with
  | some slot =>
    have hslot := (h _ _).1 hs
    rw [if_pos (List.mem_of_getElem? hslot), insert_of_some hs, names, List.map_set]
    obtain ⟨hlt, hname⟩ := List.getElem?_eq_some_iff.1 hslot
    rw [← hname]
    exact List.set_getElem_self hlt
  | none =>
    rw [if_neg (h.slot?_eq_none.1 hs), insert_of_none hs, names, List.map_append]
    rfl

/-- Definitions are found as they were, but for the name that is defined. -/
theorem find?_insert : (t.insert p).find? name = if p.name = name then some p else t.find? name := by
  cases hs : t.slot? p.name with
  | some slot =>
    rw [insert_of_some hs, find?, find?]
    change (t.slot? name).bind _ = _
    by_cases hn : p.name = name
    · rw [if_pos hn, ← hn, hs, Option.bind_some, List.getElem?_set_self (h.slot_lt hs)]
    · rw [if_neg hn]
      refine Option.bind_congr fun other hother => List.getElem?_set_ne fun he => hn ?_
      exact Option.some.inj (((h _ _).1 hs).symm.trans (he ▸ (h _ _).1 hother))
  | none =>
    rw [find?, find?, slot?_insert_of_none hs, insert_of_none hs]
    by_cases hn : p.name = name
    · rw [if_pos hn, if_pos hn.symm, Option.bind_some, List.getElem?_concat_length]
    · rw [if_neg hn, if_neg (Ne.symm hn)]
      exact Option.bind_congr fun other hother => List.getElem?_append_left (h.slot_lt hother)

theorem insert (p : Primitive) : (t.insert p).Indexed := by
  intro name slot
  rw [h.names_insert]
  cases hs : t.slot? p.name with
  | some place =>
    rw [if_pos (List.mem_of_getElem? ((h _ _).1 hs)), insert_of_some hs]
    exact h name slot
  | none =>
    have hnew := h.slot?_eq_none.1 hs
    rw [if_neg hnew, slot?_insert_of_none hs, List.getElem?_append]
    have hlength : t.names.length = t.slots.length := List.length_map _
    by_cases hlt : slot < t.names.length
    · rw [if_pos hlt]
      by_cases hn : name = p.name
      · have hmem : ¬ t.names[slot]? = some p.name := fun hm => hnew (List.mem_of_getElem? hm)
        rw [if_pos hn, hn]
        refine iff_of_false (fun hl => ?_) hmem
        exact absurd (Option.some.inj hl) (by omega)
      · rw [if_neg hn]
        exact h name slot
    · rw [if_neg hlt]
      by_cases hn : name = p.name
      · rw [if_pos hn, hn, List.getElem?_singleton, Option.some_inj]
        split <;> simp <;> omega
      · rw [if_neg hn]
        refine iff_of_false (fun hl => absurd (h.slot_lt hl) (by omega)) fun hl => hn ?_
        exact (List.mem_singleton.1 (List.mem_of_getElem? hl))

/-! ## Definitions of a table -/

/-- The definition that is found under a name is the one of the table that has it. -/
theorem find?_eq_some : t.find? name = some p ↔ p ∈ t.slots ∧ p.name = name := by
  rw [find?, Option.bind_eq_some_iff]
  constructor
  · rintro ⟨slot, hslot, hp⟩
    have hname := (h _ _).1 hslot
    rw [names, List.getElem?_map, hp] at hname
    exact ⟨List.mem_of_getElem? hp, Option.some.inj hname⟩
  · rintro ⟨hp, rfl⟩
    obtain ⟨slot, hslot⟩ := List.mem_iff_getElem?.1 hp
    refine ⟨slot, (h _ _).2 ?_, hslot⟩
    rw [names, List.getElem?_map, hslot]
    rfl

end Indexed

end RecordSwap.PrimitiveTable
