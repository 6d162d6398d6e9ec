import RecordSwap.Record

/-!
# Dependency order

Records ordered so that each one stands after the records it embeds.

* `Dependency.visit`: depth-first walk from one node. A node that is met again while it is still
  being visited lies on a cycle.
* `Record.order`: the ordered records, or the name of a record on a cycle. Records keep their order
  unless an embedded one has to move forward.
-/

namespace RecordSwap

namespace Dependency

/-- Visits `node` and appends to `order` the nodes it needs, itself last. The nodes of `idle` are
not being visited; a node that is neither ordered nor idle closes a cycle and is the error.
`needs` gives the nodes that a node needs directly. -/
def visit (needs : Nat → List Nat) (idle order : List Nat) (node : Nat) : Except Nat (List Nat) :=
  if node ∈ order then pure order
  else if _h : node ∈ idle then do
    let order ← (needs node).foldlM (fun order next =>
      visit needs (idle.erase node) order next) order
    pure (order ++ [node])
  else throw node
termination_by idle.length
decreasing_by
  rw [List.length_erase_of_mem _h]
  have := List.length_pos_of_mem _h
  omega

/-- Visits the nodes `0, …, count - 1` one after the other. -/
def sort (needs : Nat → List Nat) (count : Nat) : Except Nat (List Nat) :=
  (List.range count).foldlM (fun order node => visit needs (List.range count) order node) []

end Dependency

namespace Record

/-- Index of the last record of a name. -/
def lastIndex? (records : List Record) (name : String) : Option Nat :=
  ((List.range records.length).zip records).reverse.findSome? fun (i, s) =>
    if s.name = name then some i else none

/-- Indices of the records that the record at `index` embeds. Where a name is borne by several
records, the last one is meant. -/
def needs (records : List Record) (index : Nat) : List Nat :=
  match records[index]? with
  | some s => s.declared.filterMap fun r => lastIndex? records r.dataType
  | none => []

/-- The records, each after those it embeds; the error is the name of a record on a cycle. -/
def order (records : List Record) : Except String (List Record) :=
  match Dependency.sort (needs records) records.length with
  | .ok nodes => .ok (nodes.filterMap fun node => records[node]?)
  | .error node => .error ((records[node]?.map Record.name).getD "")

end Record

end RecordSwap
