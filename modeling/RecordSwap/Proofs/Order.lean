import RecordSwap.Dependency

/-!
# The dependency order

A successful ordering is sound:

* `Dependency.Sorted`: every node comes once and after all nodes it needs. It is what a visit keeps
  (`visit_ok`), so that `Dependency.sort` ends with a sorted permutation of all nodes (`sort_ok`).
* `Record.order_perm`: no record is lost or repeated.
* `Record.order_before`: before a record stands one of each name that a declared row has as its
  type. With distinct names it is the record of that name (`Record.order_earlier`).
* `Record.Sequenced`: what is known of ordered records with distinct names.
-/

namespace RecordSwap

namespace Dependency

/-- Orders in which every node comes once and after all nodes it needs. -/
inductive Sorted (needs : Nat → List Nat) : List Nat → Prop
  | nil : Sorted needs []
  | snoc {order : List Nat} {node : Nat} : Sorted needs order → node ∉ order →
      (∀ x ∈ needs node, x ∈ order) → Sorted needs (order ++ [node])

variable {needs : Nat → List Nat} {idle order order' : List Nat}

theorem Sorted.nodup (h : Sorted needs order) : order.Nodup := by
  induction h with
  | nil => exact List.nodup_nil
  | @snoc order node _ hn _ ih =>
    refine List.nodup_append.2 ⟨ih, by simp, fun x hx y hy hxy => ?_⟩
    rw [List.mem_singleton] at hy
    subst hy hxy
    exact hn hx

/-- What a node needs stands before it. -/
theorem Sorted.earlier (h : Sorted needs order) {i x y : Nat} (hx : order[i]? = some x)
    (hy : y ∈ needs x) : ∃ j < i, order[j]? = some y := by
  induction h with
  | nil => simp at hx
  | @snoc order node _ _ hneeds ih =>
    rcases Nat.lt_or_ge i order.length with hi | hi
    · rw [List.getElem?_append_left hi] at hx
      obtain ⟨j, hj, hjy⟩ := ih hx
      exact ⟨j, hj, by rw [List.getElem?_append_left (by omega), hjy]⟩
    · rw [List.getElem?_append_right hi] at hx
      obtain ⟨hlt, rfl⟩ := List.getElem?_eq_some_iff.1 hx
      simp only [List.length_cons, List.length_nil] at hlt
      obtain ⟨j, hj⟩ := List.mem_iff_getElem?.1 (hneeds y (by simpa using hy))
      have hjl := (List.getElem?_eq_some_iff.1 hj).1
      exact ⟨j, by omega, by rw [List.getElem?_append_left hjl, hj]⟩

/-- What a visit, or a sequence of visits, makes of an order. -/
structure Extends (needs : Nat → List Nat) (idle order order' : List Nat) : Prop where
  sorted : Sorted needs order'
  grows : ∀ x ∈ order, x ∈ order'
  fresh : ∀ x ∈ order', x ∈ order ∨ x ∈ idle

/-- Visits one after the other, each of which extends the order and ends with its node in it. -/
theorem foldlM_visit (idle : List Nat) {f : List Nat → Nat → Except Nat (List Nat)}
    (hf : ∀ {order order' node}, Sorted needs order → f order node = .ok order' →
      Extends needs idle order order' ∧ node ∈ order')
    {nodes : List Nat} (hs : Sorted needs order) (h : nodes.foldlM f order = .ok order') :
    Extends needs idle order order' ∧ ∀ x ∈ nodes, x ∈ order' := by
  induction nodes generalizing order with
  | nil =>
    cases h
    exact ⟨⟨hs, fun _ hx => hx, fun _ hx => .inl hx⟩, fun _ hx => absurd hx List.not_mem_nil⟩
  | cons node nodes ih =>
    rw [List.foldlM_cons, bind_eq_ok_iff] at h
    obtain ⟨mid, hmid, h⟩ := h
    obtain ⟨hext, hnode⟩ := hf hs hmid
    obtain ⟨hext', hnodes⟩ := ih hext.sorted h
    refine ⟨⟨hext'.sorted, fun x hx => hext'.grows x (hext.grows x hx), fun x hx => ?_⟩,
      fun x hx => ?_⟩
    · rcases hext'.fresh x hx with hx | hx
      · exact hext.fresh x hx
      · exact .inr hx
    · rcases List.mem_cons.1 hx with rfl | hx
      · exact hext'.grows x hnode
      · exact hnodes x hx

/-- A visit keeps the order sorted and puts its node into it. -/
theorem visit_ok {node : Nat} (hd : idle.Nodup) (hs : Sorted needs order)
    (h : visit needs idle order node = .ok order') :
    Extends needs idle order order' ∧ node ∈ order' := by
  induction hn : idle.length using Nat.strongRecOn generalizing idle order order' node with
  | ind n ih =>
    rw [visit] at h
    split at h
    · next hm =>
      cases h
      exact ⟨⟨hs, fun _ hx => hx, fun _ hx => .inl hx⟩, hm⟩
    · next hm =>
      split at h
      · next hi =>
        obtain ⟨mid, hmid, h⟩ := bind_eq_ok_iff.1 h
        cases h
        have hl : (idle.erase node).length < n := by
          have := List.length_pos_of_mem hi
          rw [List.length_erase_of_mem hi]
          omega
        obtain ⟨hext, hneeds⟩ := foldlM_visit (idle.erase node)
          (fun hs h => ih _ hl (hd.erase node) hs h rfl) hs hmid
        -- the node cannot have been ordered while it was being visited
        have hmid : node ∉ mid := fun hx =>
          (hext.fresh node hx).elim hm (hd.not_mem_erase)
        refine ⟨⟨.snoc hext.sorted hmid hneeds, fun x hx => ?_, fun x hx => ?_⟩, by simp⟩
        · exact List.mem_append_left _ (hext.grows x hx)
        · rcases List.mem_append.1 hx with hx | hx
          · exact (hext.fresh x hx).imp_right List.mem_of_mem_erase
          · rw [List.mem_singleton] at hx
            exact .inr (hx ▸ hi)
      · cases h

theorem sort_ok {count : Nat} (h : sort needs count = .ok order) :
    Sorted needs order ∧ order.Perm (List.range count) := by
  obtain ⟨hext, hall⟩ := foldlM_visit (List.range count)
    (fun hs h => visit_ok List.nodup_range hs h) .nil h
  refine ⟨hext.sorted, (List.perm_ext_iff_of_nodup hext.sorted.nodup List.nodup_range).2
    fun x => ⟨fun hx => ?_, hall x⟩⟩
  exact (hext.fresh x hx).resolve_left List.not_mem_nil

end Dependency

namespace Record

variable {records out : List Record}

theorem filterMap_range (records : List Record) :
    (List.range records.length).filterMap (records[·]?) = records := by
  induction records with
  | nil => rfl
  | cons s records ih =>
    rw [List.length_cons, List.range_succ_eq_map, List.filterMap_cons, List.filterMap_map]
    simpa [Function.comp_def] using ih

/-- The record that is found bears the name. -/
theorem lastIndex?_eq_some {name : String} {j : Nat} (h : lastIndex? records name = some j) :
    ∃ t, records[j]? = some t ∧ t.name = name := by
  obtain ⟨⟨i, t⟩, ht, hj⟩ := List.exists_of_findSome?_eq_some h
  obtain ⟨k, hk⟩ := List.mem_iff_getElem?.1 (List.mem_reverse.1 ht)
  rw [List.getElem?_zip_eq_some] at hk
  simp only at hk hj
  split at hj
  · next hn =>
    cases hj
    obtain ⟨_, hjk⟩ := List.getElem?_eq_some_iff.1 hk.1
    rw [List.getElem_range] at hjk
    exact ⟨t, hjk ▸ hk.2, hn⟩
  · cases hj

/-- A node that a record with the given name has as its index is found. -/
theorem lastIndex?_isSome {name : String} {i : Nat} {s : Record} (hi : records[i]? = some s)
    (hs : s.name = name) :
    ∃ j t, lastIndex? records name = some j ∧ records[j]? = some t ∧ t.name = name := by
  have hmem : (i, s) ∈ (List.range records.length).zip records := by
    refine List.mem_iff_getElem?.2 ⟨i, ?_⟩
    rw [List.getElem?_zip_eq_some]
    exact ⟨List.getElem?_range (List.getElem?_eq_some_iff.1 hi).1, hi⟩
  cases hl : lastIndex? records name with
  | none =>
    have := List.findSome?_eq_none_iff.1 hl (i, s) (List.mem_reverse.2 hmem)
    simp [hs] at this
  | some j =>
    obtain ⟨t, ht, htn⟩ := lastIndex?_eq_some hl
    exact ⟨j, t, rfl, ht, htn⟩

theorem order_eq_ok (h : order records = .ok out) :
    ∃ nodes, Dependency.sort (needs records) records.length = .ok nodes ∧
      out = nodes.filterMap (records[·]?) := by
  unfold order at h
  split at h
  · next nodes hn =>
    cases h
    exact ⟨nodes, hn, rfl⟩
  · cases h

/-- Ordering neither loses nor repeats a record. -/
theorem order_perm (h : order records = .ok out) : out.Perm records := by
  obtain ⟨nodes, hn, rfl⟩ := order_eq_ok h
  have hp := (Dependency.sort_ok hn).2.filterMap (records[·]?)
  rwa [filterMap_range] at hp

theorem order_getElem? (h : order records = .ok out) :
    ∃ nodes, Dependency.sort (needs records) records.length = .ok nodes ∧ ∀ i : Nat,
      out[i]? = nodes[i]?.bind (records[·]?) := by
  obtain ⟨nodes, hn, rfl⟩ := order_eq_ok h
  obtain ⟨hs, hp⟩ := Dependency.sort_ok hn
  refine ⟨nodes, hn, fun i => ?_⟩
  have hsome : ∀ x ∈ nodes, (records[x]?).isSome := fun x hx => by
    have hx := List.mem_range.1 (hp.subset hx)
    simp [hx]
  clear hp hs hn h
  induction nodes generalizing i with
  | nil => simp
  | cons x nodes ih =>
    obtain ⟨s, hs⟩ := Option.isSome_iff_exists.1 (hsome x (.head _))
    rw [List.filterMap_cons, hs]
    cases i with
    | zero => simp [hs]
    | succ i => simpa using ih i fun y hy => hsome y (.tail _ hy)

theorem index_unique (hd : (records.map Record.name).Nodup) {i j : Nat} {s t : Record}
    (hi : records[i]? = some s) (hj : records[j]? = some t) (h : s.name = t.name) : i = j := by
  have hi' : (records.map Record.name)[i]? = some s.name := by rw [List.getElem?_map, hi]; rfl
  have hj' : (records.map Record.name)[j]? = some s.name := by rw [List.getElem?_map, hj, h]; rfl
  exact (List.getElem?_inj (List.getElem?_eq_some_iff.1 hi').1 hd).1 (hi'.trans hj'.symm)

/-- Some record that bears the name of a declared row's type stands before the row's record. -/
theorem order_before (h : order records = .ok out) {i : Nat} {s t : Record} {r : Row}
    (hi : out[i]? = some s) (hr : r ∈ s.declared) (ht : t ∈ out) (hrt : r.dataType = t.name) :
    ∃ k < i, ∃ u, out[k]? = some u ∧ u.name = t.name := by
  obtain ⟨nodes, hsort, hout⟩ := order_getElem? h
  have hs := (Dependency.sort_ok hsort).1
  obtain ⟨j, hj⟩ := List.mem_iff_getElem?.1 ht
  rw [hout, Option.bind_eq_some_iff] at hi hj
  obtain ⟨x, hx, hxs⟩ := hi
  obtain ⟨y, hy, hyt⟩ := hj
  obtain ⟨z, u, hz, hu, hun⟩ := lastIndex?_isSome hyt hrt.symm
  have hneed : z ∈ needs records x := by
    simp only [needs, hxs, List.mem_filterMap]
    exact ⟨r, hr, hz⟩
  obtain ⟨k, hk, hkz⟩ := hs.earlier hx hneed
  exact ⟨k, hk, u, by rw [hout, hkz]; exact hu, hun.trans hrt⟩

/-- A record stands after the records that its declared rows have as their types. -/
theorem order_earlier (h : order records = .ok out) (hd : (out.map Record.name).Nodup)
    {i j : Nat} {s t : Record} {r : Row} (hi : out[i]? = some s) (hr : r ∈ s.declared)
    (hj : out[j]? = some t) (hrt : r.dataType = t.name) : j < i := by
  obtain ⟨k, hk, u, hu, hun⟩ := order_before h hi hr (List.mem_of_getElem? hj) hrt
  -- the record of that name which the search found is the one at `j`
  obtain rfl : k = j := index_unique hd hu hj hun
  exact hk

/-- Records with distinct names, each of which stands after those it embeds. -/
structure Sequenced (records : List Record) : Prop where
  nodup : (records.map Record.name).Nodup
  earlier : ∀ {i j : Nat} {s t : Record} {r : Row}, records[i]? = some s → r ∈ s.declared →
    records[j]? = some t → r.dataType = t.name → j < i

theorem order_sequenced (h : order records = .ok out) (hd : (out.map Record.name).Nodup) :
    Sequenced out :=
  ⟨hd, order_earlier h hd⟩

namespace Sequenced

theorem tail {s : Record} (h : Sequenced (s :: records)) : Sequenced records := by
  refine ⟨(List.nodup_cons.1 h.nodup).2, fun {i j _ _ _} hi hr hj hrt => ?_⟩
  have hlt : j + 1 < i + 1 := h.earlier (i := i + 1) (j := j + 1) hi hr hj hrt
  omega

/-- The type of a declared row is neither its own record nor a later one. -/
theorem type_not_mem (h : Sequenced records) {i : Nat} {s : Record} (hi : records[i]? = some s)
    {r : Row} (hr : r ∈ s.declared) :
    r.dataType ∉ (s :: records.drop (i + 1)).map Record.name := by
  intro hm
  obtain ⟨t, ht, htn⟩ := List.mem_map.1 hm
  have hdrop : s :: records.drop (i + 1) = records.drop i := by
    obtain ⟨hlt, rfl⟩ := List.getElem?_eq_some_iff.1 hi
    exact (List.drop_eq_getElem_cons hlt).symm
  rw [hdrop] at ht
  obtain ⟨k, hk⟩ := List.mem_iff_getElem?.1 ht
  rw [List.getElem?_drop] at hk
  have := h.earlier hi hr hk htn.symm
  omega

end Sequenced

end Record

end RecordSwap
