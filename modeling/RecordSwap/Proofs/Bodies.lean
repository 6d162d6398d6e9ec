import RecordSwap.Proofs.Calls
import RecordSwap.Proofs.StatementText

/-!
# Bodies of swap functions

The bodies of the swap functions follow the plans, statement by statement.

* `SwapEntry.Swaps`: the assignment or call that swaps an element of a member.
* `SwapEntry.Renders`, `BitSwapOp.Renders`: the statements for a member, and for an operation of a
  bit swap.
* `SwapPlan.Renders`, `BitSwapPlan.Renders`: the functions of a record. The texts that are printed
  for its plans are theirs (`SwapPlan.exists_functionText`, `BitSwapPlan.exists_functionText`).
-/

namespace RecordSwap

open C

namespace C

/-- A statement for each element of a member whose elements can be counted. -/
theorem Statement.forEach_eq {extents : List Nat} (s : Simple)
    (hcount : product extents = .ok (arrayLength extents)) :
    forEach extents s =
      .ok (if extents = [] then .plain s else .loop (arrayLength extents) s) := by
  unfold forEach
  cases extents with
  | nil => rfl
  | cons n rest =>
    rw [hcount]
    rfl

end C

/-! ## Byte swap functions -/

/-- What swaps an element of a member that takes more than a copy. -/
inductive SwapEntry.Swaps (p : Project) (e : SwapEntry) : Simple → Prop
  | word16 : e.strategy = .word16 → Swaps p e (.word "bswap_16" ⟨e.name, e.extents.length⟩)
  | word32 : e.strategy = .word32 → Swaps p e (.word "bswap_32" ⟨e.name, e.extents.length⟩)
  | word64 : e.strategy = .word64 → Swaps p e (.word "bswap_64" ⟨e.name, e.extents.length⟩)
  | float32 : e.strategy = .float32 → Swaps p e (.object "swap_float" ⟨e.name, e.extents.length⟩)
  | double64 : e.strategy = .double64 →
      Swaps p e (.object "swap_double" ⟨e.name, e.extents.length⟩)
  | pointer32 : e.strategy = .pointer32 →
      Swaps p e (.object "swap_pointer_4" ⟨e.name, e.extents.length⟩)
  | pointer64 : e.strategy = .pointer64 →
      Swaps p e (.object "swap_pointer_8" ⟨e.name, e.extents.length⟩)
  | nested {target : Nat} : e.strategy = .nested target →
      Swaps p e (.call .byte (p.nameAt target) ⟨e.name, e.extents.length⟩)

/-- The statements for one member: none for a bit-field, one that copies single bytes whole, and
otherwise one that swaps the member, in a loop over its elements if it is an array. -/
inductive SwapEntry.Renders (p : Project) (e : SwapEntry) : List Statement → Prop
  | bitField : e.strategy = .bitField → Renders p e []
  | copied : e.strategy = .singleByte → e.extents = [] → Renders p e [.plain (.copy e.name)]
  | moved : e.strategy = .singleByte → e.extents ≠ [] → Renders p e [.plain (.move e.name)]
  | swapped {s : Simple} : e.Swaps p s → e.extents = [] → Renders p e [.plain s]
  | looped {s : Simple} : e.Swaps p s → e.extents ≠ [] →
      Renders p e [.loop (arrayLength e.extents) s]

namespace SwapEntry

variable {p : Project} {e : SwapEntry} {body : List Statement} {s : Statement}

theorem swaps_of_simple? {x : Simple} (h : e.simple? p = some x) : e.Swaps p x := by
  unfold simple? at h
  split at h <;> cases h
  all_goals
    constructor
    assumption

theorem exists_statements (p : Project)
    (hcount : product e.extents = .ok (arrayLength e.extents)) :
    ∃ body, e.statements p = .ok body ∧ e.Renders p body := by
  have hswap (x : Simple) (hx : e.simple? p = some x) :
      ∃ body, (do return [← Statement.forEach e.extents x] : Checked (List Statement)) = .ok body ∧
        e.Renders p body := by
    rw [Statement.forEach_eq x hcount]
    by_cases he : e.extents = []
    · rw [if_pos he]
      exact ⟨_, rfl, .swapped (swaps_of_simple? hx) he⟩
    · rw [if_neg he]
      exact ⟨_, rfl, .looped (swaps_of_simple? hx) he⟩
  unfold statements
  cases hs : e.strategy with
  | bitField => exact ⟨[], rfl, .bitField hs⟩
  | singleByte =>
    cases he : e.extents with
    | nil => exact ⟨_, by simp [isArray, he], .copied hs he⟩
    | cons n rest => exact ⟨_, by simp [isArray, he], .moved hs (by simp [he])⟩
  | _ =>
    have hx : ∃ x, e.simple? p = some x := by
      unfold simple?
      rw [hs]
      exact ⟨_, rfl⟩
    obtain ⟨x, hx⟩ := hx
    simpa [hx] using hswap x hx

theorem Renders.simple_of_mem (h : e.Renders p body) (hs : s ∈ body) :
    s.simple = .copy e.name ∨ s.simple = .move e.name ∨ e.Swaps p s.simple := by
  cases h with
  | bitField => cases hs
  | copied =>
    obtain rfl := List.mem_singleton.1 hs
    exact .inl rfl
  | moved =>
    obtain rfl := List.mem_singleton.1 hs
    exact .inr (.inl rfl)
  | swapped hx | looped hx =>
    obtain rfl := List.mem_singleton.1 hs
    exact .inr (.inr hx)

/-- The only function of a record that is called for a member is the byte swap of the record that it
embeds. -/
theorem Renders.call (h : e.Renders p body) (hs : s ∈ body) {kind : SwapKind} {record : String}
    {element : Element} (hcall : s.simple = .call kind record element) :
    kind = .byte ∧ ∃ target, e.strategy = .nested target ∧ record = p.nameAt target := by
  rcases h.simple_of_mem hs with hx | hx | hx <;> rw [hcall] at hx
  · cases hx
  · cases hx
  · cases hx with
    | nested htarget => exact ⟨rfl, _, htarget, rfl⟩

theorem Renders.callsOwn (h : e.Renders p body) (hs : s ∈ body) : s.callsOwn = false := by
  unfold Statement.callsOwn
  generalize hsimple : s.simple = x
  rcases h.simple_of_mem hs with hx | hx | hx <;> rw [hsimple] at hx
  · rw [hx]
  · rw [hx]
  · cases hx <;> rfl

end SwapEntry

/-- The byte swap function of a record: the statements for its members in their order, and at the
end the call of its bit swap function, if there is one. -/
structure SwapPlan.Renders (p : Project) (plan : SwapPlan) (f : SwapFunction) : Prop where
  kind : f.kind = .byte
  record : f.record = plan.name
  body : ∃ parts, List.Forall₂ (SwapEntry.Renders p) plan.entries parts ∧
    f.body = parts.flatten ++ if plan.callsBitSwap then [.plain (.callOwn plan.name)] else []
  once : f.body.countP Statement.callsOwn = if plan.callsBitSwap then 1 else 0

namespace SwapPlan

variable {p : Project} {plan : SwapPlan}

theorem exists_functionText (p : Project)
    (hcount : ∀ e ∈ plan.entries, product e.extents = .ok (arrayLength e.extents)) :
    ∃ (f : SwapFunction) (text : String),
      plan.functionText p = .ok text ∧ f.Reads text ∧ plan.Renders p f := by
  obtain ⟨parts, hread, hparts⟩ :=
    exists_mapM fun e he => SwapEntry.exists_statements p (hcount e he)
  have hown : parts.flatten.countP Statement.callsOwn = 0 := by
    rw [List.countP_eq_zero]
    intro s hs
    obtain ⟨part, hpart, hs⟩ := List.mem_flatten.1 hs
    obtain ⟨e, -, he⟩ := exists_of_forall₂ hparts hpart
    simp [he.callsOwn hs]
  refine ⟨⟨.byte, plan.name, _⟩, _, ?_,
    SwapFunction.functionText_reads _ SwapKind.byteSwapComment_reads, rfl, rfl,
    ⟨parts, hparts, rfl⟩, ?_⟩
  · unfold functionText statements
    rw [hread]
    rfl
  · rw [List.countP_append, hown]
    cases plan.callsBitSwap <;> rfl

/-- What a byte swap function calls: the byte swaps of embedded records, and its own bit swap. -/
theorem Renders.mem_body {f : SwapFunction} (h : plan.Renders p f) {s : Statement}
    (hs : s ∈ f.body) :
    (∃ e ∈ plan.entries, ∃ part, e.Renders p part ∧ s ∈ part) ∨
      plan.callsBitSwap = true ∧ s = .plain (.callOwn plan.name) := by
  obtain ⟨parts, hparts, hbody⟩ := h.body
  rw [hbody, List.mem_append] at hs
  rcases hs with hs | hs
  · obtain ⟨part, hpart, hs⟩ := List.mem_flatten.1 hs
    obtain ⟨e, he, hrenders⟩ := exists_of_forall₂ hparts hpart
    exact .inl ⟨e, he, part, hrenders, hs⟩
  · cases hown : plan.callsBitSwap <;> rw [hown] at hs
    · cases hs
    · exact .inr ⟨rfl, List.mem_singleton.1 hs⟩

end SwapPlan

/-! ## Bit swap functions -/

/-- The statement for one operation: a reflection in one direction only, and the swap of an embedded
record in a loop over its elements if it is an array. -/
inductive BitSwapOp.Renders (p : Project) : BitSwapOp → Statement → Prop
  | reflectInput (offset size : Nat) : Renders p (.reflectInput offset size)
      (.guarded .foreignToLocal (.reflect "inPtr" offset size))
  | reflectOutput (offset size : Nat) : Renders p (.reflectOutput offset size)
      (.guarded .localToForeign (.reflect "outPtr" offset size))
  | mirror (field : String) (bits groupOffset groupSize shift : Nat) :
      Renders p (.mirror field bits groupOffset groupSize shift) (.plain (.mirror field bits))
  | copy (field : String) : Renders p (.copy field) (.plain (.copy field))
  | nested (field : String) (target offset elementSize : Nat) :
      Renders p (.nested field target [] offset elementSize)
        (.plain (.call .bit (p.nameAt target) ⟨field, 0⟩))
  | looped {field : String} {target : Nat} {extents : List Nat} {offset elementSize : Nat} :
      extents ≠ [] → Renders p (.nested field target extents offset elementSize)
        (.loop (arrayLength extents) (.call .bit (p.nameAt target) ⟨field, extents.length⟩))

theorem BitSwapOp.exists_statement (p : Project) {op : BitSwapOp}
    (hcount : ∀ c ∈ op.call?, product c.extents = .ok (arrayLength c.extents)) :
    ∃ s, op.statement p = .ok s ∧ op.Renders p s := by
  cases op with
  | reflectInput offset size => exact ⟨_, rfl, .reflectInput offset size⟩
  | reflectOutput offset size => exact ⟨_, rfl, .reflectOutput offset size⟩
  | mirror field bits groupOffset groupSize shift => exact ⟨_, rfl, .mirror ..⟩
  | copy field => exact ⟨_, rfl, .copy field⟩
  | nested field target extents offset elementSize =>
    have hcount : product extents = .ok (arrayLength extents) := hcount _ rfl
    rw [statement, Statement.forEach_eq _ hcount]
    by_cases he : extents = []
    · subst he
      exact ⟨_, rfl, .nested ..⟩
    · rw [if_neg he]
      exact ⟨_, rfl, .looped he⟩

/-- The only function of a record that an operation calls is the bit swap of the record that the
member embeds. -/
theorem BitSwapOp.Renders.call {p : Project} {op : BitSwapOp} {s : Statement} (h : op.Renders p s)
    {kind : SwapKind} {record : String} {element : Element}
    (hcall : s.simple = .call kind record element) :
    kind = .bit ∧ ∃ c ∈ op.call?, record = p.nameAt c.target := by
  cases h with
  | nested | looped =>
    cases hcall
    exact ⟨rfl, _, rfl, rfl⟩
  | _ => cases hcall

/-- The bit swap function of a record: one statement for each operation, in their order. -/
structure BitSwapPlan.Renders (p : Project) (plan : BitSwapPlan) (f : SwapFunction) : Prop where
  kind : f.kind = .bit
  record : f.record = plan.name
  body : List.Forall₂ (BitSwapOp.Renders p) plan.ops f.body

theorem BitSwapPlan.exists_functionText (p : Project) {plan : BitSwapPlan}
    (hcount : ∀ c ∈ plan.calls, product c.extents = .ok (arrayLength c.extents)) :
    ∃ (f : SwapFunction) (text : String),
      plan.functionText p = .ok text ∧ f.Reads text ∧ plan.Renders p f := by
  obtain ⟨body, hread, hbody⟩ := exists_mapM fun op hop =>
    BitSwapOp.exists_statement p fun c hc => hcount c (List.mem_filterMap.2 ⟨op, hop, hc⟩)
  refine ⟨⟨.bit, plan.name, body⟩, _, ?_,
    SwapFunction.functionText_reads _ SwapKind.bitSwapComment_reads, rfl, rfl, hbody⟩
  unfold functionText statements
  rw [hread]
  rfl

end RecordSwap
