import RecordSwap.Proofs.Cycles

/-!
# Stability of the dependency order

Ordering moves a record forward only where something at or before the record that it passes needs
it.

* `Dependency.Appends`: a visit only appends, and what it appends is reached from the visited node
  (`visit_appends`). So the nodes up to `i` stand in a part of the sorted nodes in which everything
  is reached from these nodes (`sort_upTo`), and a greater node comes before `i` only if one of them
  needs it (`sort_forward`).
* `Record.Precedes`: the order in which records stand in a list. It decides the list
  (`eq_of_precedes`).
* `Record.Stable`: what ordering keeps of the order of the records.
* `Record.order_stable`: the statement about lists of records.
-/

namespace RecordSwap

open Relation (TransGen ReflTransGen)

namespace Dependency

variable {needs : Nat → List Nat} {idle order order' : List Nat}

/-- What visits of the nodes `roots` append to an order: nodes that one of them leads to. -/
structure Appends (needs : Nat → List Nat) (roots order order' : List Nat) : Prop where
  grows : order <+: order'
  reached : ∀ x ∈ order', x ∈ order ∨ ∃ root ∈ roots, ReflTransGen (Needs needs) root x

theorem foldlM_appends {f : List Nat → Nat → Except Nat (List Nat)}
    (hf : ∀ {order order' node}, f order node = .ok order' → Appends needs [node] order order')
    {nodes : List Nat} (h : nodes.foldlM f order = .ok order') :
    Appends needs nodes order order' := by
  induction nodes generalizing order with
  | nil =>
    cases h
    exact ⟨List.prefix_rfl, fun x hx => .inl hx⟩
  | cons node nodes ih =>
    rw [List.foldlM_cons] at h
    obtain ⟨mid, hmid, h⟩ := bind_eq_ok_iff.1 h
    obtain ⟨hgrows, hreached⟩ := hf hmid
    obtain ⟨hgrows', hreached'⟩ := ih h
    refine ⟨hgrows.trans hgrows', fun x hx => ?_⟩
    rcases hreached' x hx with hx | ⟨root, hroot, hx⟩
    · rcases hreached x hx with hx | ⟨root, hroot, hx⟩
      · exact .inl hx
      · rw [List.mem_singleton] at hroot
        exact .inr ⟨node, .head _, hroot ▸ hx⟩
    · exact .inr ⟨root, .tail _ hroot, hx⟩

/-- A visit appends nodes that the visited node leads to. -/
theorem visit_appends {node : Nat} (h : visit needs idle order node = .ok order') :
    Appends needs [node] order order' := by
  induction hn : idle.length using Nat.strongRecOn generalizing idle order order' node with
  | ind n ih =>
    rw [visit] at h
    split at h
    · cases h
      exact ⟨List.prefix_rfl, fun x hx => .inl hx⟩
    · split at h
      · next hi =>
        obtain ⟨mid, hmid, h⟩ := bind_eq_ok_iff.1 h
        cases h
        have hl : (idle.erase node).length < n := by
          have := List.length_pos_of_mem hi
          rw [List.length_erase_of_mem hi]
          omega
        obtain ⟨hgrows, hreached⟩ := foldlM_appends (fun h => ih _ hl h rfl) hmid
        refine ⟨hgrows.trans (List.prefix_append _ _), fun x hx => ?_⟩
        rcases List.mem_append.1 hx with hx | hx
        · rcases hreached x hx with hx | ⟨next, hnext, hx⟩
          · exact .inl hx
          · have hstep : Needs needs node next := hnext
            exact .inr ⟨node, .head _, .head hstep hx⟩
        · rw [List.mem_singleton] at hx
          exact .inr ⟨node, .head _, hx ▸ .refl⟩
      · cases h

/-- The nodes up to `i` stand in a first part of the order, and all of this part is reached from
them. -/
theorem sort_upTo {count i : Nat} (h : sort needs count = .ok order) (hi : i < count) :
    ∃ early, early <+: order ∧ i ∈ early ∧
      ∀ x ∈ early, ∃ root ≤ i, ReflTransGen (Needs needs) root x := by
  obtain ⟨later, hcount⟩ : ∃ later, count = i + 1 + later := ⟨count - (i + 1), by omega⟩
  change (List.range count).foldlM (visit needs (List.range count)) [] = .ok order at h
  generalize hstep : visit needs (List.range count) = step at h
  rw [hcount, List.range_add, List.foldlM_append] at h
  subst hstep
  obtain ⟨early, hearly, h⟩ := bind_eq_ok_iff.1 h
  obtain ⟨-, hall⟩ := foldlM_visit (List.range count)
    (fun hs h => visit_ok List.nodup_range hs h) .nil hearly
  obtain ⟨-, hreached⟩ := foldlM_appends visit_appends hearly
  obtain ⟨hgrows, -⟩ := foldlM_appends visit_appends h
  refine ⟨early, hgrows, hall i (List.mem_range.2 (Nat.lt_succ_self i)), fun x hx => ?_⟩
  rcases hreached x hx with hx | ⟨root, hroot, hx⟩
  · exact absurd hx List.not_mem_nil
  · exact ⟨root, Nat.le_of_lt_succ (List.mem_range.1 hroot), hx⟩

/-- A greater node stands before `i` only if a node up to `i` needs it, directly or through
others. -/
theorem sort_forward {count i j a b : Nat} (h : sort needs count = .ok order) (hij : i < j)
    (ha : order[a]? = some j) (hb : order[b]? = some i) (hab : a < b) :
    ∃ root ≤ i, TransGen (Needs needs) root j := by
  obtain ⟨hs, hp⟩ := sort_ok h
  have hi : i < count := List.mem_range.1 (hp.subset (List.mem_of_getElem? hb))
  obtain ⟨early, ⟨rest, rfl⟩, hmem, hreached⟩ := sort_upTo h hi
  -- `i` comes only once, so the place before it lies in the first part too
  obtain ⟨k, hk⟩ := List.mem_iff_getElem?.1 hmem
  have hkl : k < early.length := (List.getElem?_eq_some_iff.1 hk).1
  have hkb : (early ++ rest)[k]? = some i := by rw [List.getElem?_append_left hkl, hk]
  have hbl := (List.getElem?_eq_some_iff.1 hb).1
  obtain rfl : b = k := (List.getElem?_inj hbl hs.nodup).1 (hb.trans hkb.symm)
  rw [List.getElem?_append_left (by omega)] at ha
  obtain ⟨root, hroot, hreach⟩ := hreached j (List.mem_of_getElem? ha)
  rcases Relation.reflTransGen_iff_eq_or_transGen.1 hreach with hj | hreach
  · omega
  · exact ⟨root, hroot, hreach⟩

end Dependency

namespace Record

variable {records out : List Record} {x y z : Record}

/-! ## The order of a list -/

/-- The first record stands before the second one. -/
def Precedes (records : List Record) (x y : Record) : Prop :=
  ∃ i j : Nat, i < j ∧ records[i]? = some x ∧ records[j]? = some y

/-- Two records of a list are the same, or one of them stands before the other. -/
theorem precedes_total (hx : x ∈ records) (hy : y ∈ records) :
    Precedes records x y ∨ x = y ∨ Precedes records y x := by
  obtain ⟨i, hi⟩ := List.mem_iff_getElem?.1 hx
  obtain ⟨j, hj⟩ := List.mem_iff_getElem?.1 hy
  rcases Nat.lt_trichotomy i j with h | rfl | h
  · exact .inl ⟨i, j, h, hi, hj⟩
  · exact .inr (.inl (Option.some.inj (hi.symm.trans hj)))
  · exact .inr (.inr ⟨j, i, h, hj, hi⟩)

section
variable (hd : (records.map Record.name).Nodup)
include hd

theorem Precedes.trans (hxy : Precedes records x y) (hyz : Precedes records y z) :
    Precedes records x z := by
  obtain ⟨i, j, hij, hx, hy⟩ := hxy
  obtain ⟨j', k, hjk, hy', hz⟩ := hyz
  obtain rfl := index_unique hd hy hy' rfl
  exact ⟨i, k, by omega, hx, hz⟩

theorem Precedes.irrefl : ¬ Precedes records x x := by
  rintro ⟨i, j, hij, hi, hj⟩
  have := index_unique hd hi hj rfl
  omega

/-- Two lists with the same records are equal unless a record stands before another one in the one
and after it in the other. -/
theorem eq_of_precedes (hp : out.Perm records)
    (h : ∀ x y, Precedes records x y → ¬ Precedes out y x) : out = records := by
  have hpairs (l : List Record) : l.Pairwise (Precedes l) :=
    List.pairwise_iff_getElem.2 fun a b ha hb hab =>
      ⟨a, b, hab, List.getElem?_eq_getElem ha, List.getElem?_eq_getElem hb⟩
  have hout : out.Pairwise (Precedes records) := by
    refine (hpairs out).imp_of_mem fun {x y} hx hy hxy => ?_
    rcases precedes_total (hp.subset hx) (hp.subset hy) with hlt | rfl | hgt
    · exact hlt
    · exact absurd hxy (Precedes.irrefl ((hp.map Record.name).nodup_iff.2 hd))
    · exact absurd hxy (h _ _ hgt)
  refine List.Perm.eq_of_pairwise (fun x y _ _ hxy hyx => ?_) hout (hpairs records) hp
  exact absurd (hxy.trans hd hyx) (Precedes.irrefl hd)

/-- In ordered records, what a record refers to, directly or through others, stands before it. -/
theorem Ordered.precedes (ho : Ordered records out) (h : TransGen (RefersIn records) x y) :
    Precedes out y x := by
  have hout : (out.map Record.name).Nodup := (ho.perm.map Record.name).nodup_iff.2 hd
  have hstep : ∀ {s t : Record}, RefersIn records s t → Precedes out t s := by
    rintro s t ⟨hs, ht, hst⟩
    obtain ⟨i, hi⟩ := List.mem_iff_getElem?.1 (ho.perm.symm.subset hs)
    obtain ⟨j, hj⟩ := List.mem_iff_getElem?.1 (ho.perm.symm.subset ht)
    exact ⟨j, i, ho.earlier hi hj hst, hj, hi⟩
  induction h with
  | single hxy => exact hstep hxy
  | tail _ hyz ih => exact (hstep hyz).trans hout ih

/-! ## Stability -/

/-- A record comes before one that stood before it only if that one, or one that stood before that,
refers to it. -/
theorem order_forward (h : order records = .ok out) (hxy : Precedes records x y)
    (hyx : Precedes out y x) :
    ∃ z, (z = x ∨ Precedes records z x) ∧ TransGen (RefersIn records) z y := by
  obtain ⟨i, j, hij, hi, hj⟩ := hxy
  obtain ⟨a, b, hab, ha, hb⟩ := hyx
  obtain ⟨nodes, hsort, hout⟩ := order_getElem? h
  rw [hout, Option.bind_eq_some_iff] at ha hb
  obtain ⟨j', hja, hj'⟩ := ha
  obtain ⟨i', hib, hi'⟩ := hb
  obtain rfl := index_unique hd hj hj' rfl
  obtain rfl := index_unique hd hi hi' rfl
  obtain ⟨root, hroot, hreach⟩ := Dependency.sort_forward hsort hij hja hib hab
  have hlt : root < records.length := by
    have := (List.getElem?_eq_some_iff.1 hi).1
    omega
  have hz := List.getElem?_eq_getElem hlt
  obtain ⟨t, ht, hzt⟩ := transGen_refersIn hz hreach
  obtain rfl := Option.some.inj (hj.symm.trans ht)
  refine ⟨records[root], ?_, hzt⟩
  rcases Nat.lt_or_eq_of_le hroot with hlt' | rfl
  · exact .inr ⟨root, i, hlt', hz, hi⟩
  · exact .inl (Option.some.inj (hz.symm.trans hi))

/-- Records that are in order already are returned as they are. -/
theorem order_of_ordered (ho : Ordered records records) : order records = .ok records := by
  have hacyclic : ∀ s, ¬ OnCycle records s := fun s hs =>
    Precedes.irrefl hd (ho.precedes hd hs)
  obtain ⟨out, hout⟩ := (order_isOk_iff hd).2 hacyclic
  rw [hout, eq_of_precedes hd (order_perm hout) fun x y hxy hyx => ?_]
  obtain ⟨z, hz, hzy⟩ := order_forward hd hout hxy hyx
  -- `y` would stand before `z`, which stands no later than `x`
  have hyz := ho.precedes hd hzy
  rcases hz with rfl | hzx
  · exact Precedes.irrefl hd (hxy.trans hd hyz)
  · exact Precedes.irrefl hd ((hxy.trans hd hyz).trans hd hzx)

end

/-- What ordering keeps of the order of the records. -/
structure Stable (records out : List Record) : Prop where
  /-- A record comes before one that stood before it only if that one, or one that stood before
  that, refers to it, directly or through others. -/
  forward : ∀ {x y : Record}, Precedes records x y → Precedes out y x →
    ∃ z, (z = x ∨ Precedes records z x) ∧ TransGen (RefersIn records) z y
  /-- A record that no other one refers to stays behind those before it. -/
  behind : ∀ {x y : Record}, Precedes records x y → (∀ t ∈ records, t ≠ y → ¬ t.Refers y) →
    Precedes out x y
  again : order out = .ok out

/-- **The dependency order is stable.** Ordering moves a record forward only past records at or
before which it is needed. Records that no other one refers to keep their order, the result is
ordered as it is, and so is every list in which each record stands after those it refers to. -/
theorem order_stable (hd : (records.map Record.name).Nodup) :
    (∀ out, order records = .ok out → Stable records out) ∧
      (Ordered records records → order records = .ok records) := by
  refine ⟨fun out h => ?_, order_of_ordered hd⟩
  have ho := order_ordered hd h
  have hout : (out.map Record.name).Nodup := (ho.perm.map Record.name).nodup_iff.2 hd
  refine ⟨order_forward hd h, fun {x y} hxy hfree => ?_, order_of_ordered hout ⟨.rfl, ho.earlier⟩⟩
  have hx : x ∈ out := by
    obtain ⟨i, -, -, hi, -⟩ := hxy
    exact ho.perm.symm.subset (List.mem_of_getElem? hi)
  have hy : y ∈ out := by
    obtain ⟨-, j, -, -, hj⟩ := hxy
    exact ho.perm.symm.subset (List.mem_of_getElem? hj)
  rcases precedes_total hx hy with hlt | rfl | hgt
  · exact hlt
  · exact absurd hxy (Precedes.irrefl hd)
  · -- the last reference on the way to `y` is made by another record, or closes a cycle
    obtain ⟨z, -, hzy⟩ := order_forward hd h hxy hgt
    obtain ⟨t, -, ht, -, hty⟩ := TransGen.tail'_iff.1 hzy
    by_cases hne : t = y
    · subst hne
      exact absurd (.single ⟨ht, ht, hty⟩) ((order_isOk_iff hd).1 ⟨out, h⟩ t)
    · exact absurd hty (hfree t ht hne)

end Record

namespace Sample

/-- Records of which two have to move forward, and one that stands alone. -/
def unordered : List Record := [frame, embedding "Mark" ["uint16"], left, right, leaf]

/-- The records in dependency order. -/
def reordered : List Record := [leaf, left, right, frame, embedding "Mark" ["uint16"]]

end Sample

/-- Four records move past the one that stands alone, since the first of them needs the others. -/
theorem Record.order_stable_sample :
    order Sample.unordered = .ok Sample.reordered ∧
      Stable Sample.unordered Sample.reordered ∧
      order Sample.reordered = .ok Sample.reordered := by
  have hnames : (Sample.unordered.map Record.name).Nodup := by decide
  have horder : order Sample.unordered = .ok Sample.reordered := by decide +kernel
  obtain ⟨hstable, -⟩ := order_stable hnames
  exact ⟨horder, hstable _ horder, (hstable _ horder).again⟩

end RecordSwap
