import RecordSwap.Proofs.Projects

/-!
# The places of members and units

Where the plain members and the storage units of a record lie in its layout.

* `Layout.places`: the plain members and the storage units of a layout in the order of their first
  rows, with the offsets that those rows ask for. They are the places of the slots
  (`Layout.Arranged.places_eq`).
* `Layout.Place.Follow`: places that are taken one after the other. An invariant of `Slot.placeFrom`
  (`Layout.Frame.follow`), from which the start of each place (`Follow.start_eq`) and the end of all
  (`Follow.last_eq`) can be read off.
* `Span.Tile`: spans that fill a range without gap or overlap, as places do for which no row asks
  (`Follow.tile`).
* `Draft.layouts_placed`: the statement about built projects.
-/

namespace RecordSwap

/-- Spans that fill the positions from `lo` to `hi`, each of them once. -/
structure Span.Tile (lo hi : Nat) (spans : List Span) : Prop where
  cover : ∀ k, (∃ s ∈ spans, k ∈ s) ↔ lo ≤ k ∧ k < hi
  disjoint : spans.Pairwise Span.Disjoint
  size : hi = lo + (spans.map Span.size).sum

namespace Layout

/-- The bytes of a plain member or of a storage unit, and the offset that its first row asks for,
protocol header excluded. -/
structure Place where
  asked? : Option Nat
  span : Span
  deriving DecidableEq, Repr

/-- The largest end of the places, `base` if there are none. -/
def Place.lastStop (base : Nat) (places : List Place) : Nat :=
  ((places.map fun u => u.span.stop).max?).getD base

/-- The places of declared members: one for each plain member, and one for each storage unit that is
not in `seen`, at its first bit-field. -/
def placesFrom (groups : List UnitLayout) (seen : List Nat) :
    List (Row × FieldLayout) → List Place
  | [] => []
  | (row, f) :: rest =>
    match f.group with
    | none => ⟨row.offset, f.span⟩ :: placesFrom groups seen rest
    | some g =>
      if g ∈ seen then placesFrom groups seen rest
      else match groups[g]? with
        | none => placesFrom groups seen rest
        | some u => ⟨row.offset, u.span⟩ :: placesFrom groups (g :: seen) rest

/-- The places of the plain members and the storage units, in declaration order. -/
def places (l : Layout) (s : Record) : List Place := placesFrom l.groups [] (s.declared.zip l.fields)

/-- A layout in which the members and units of a record follow one another, unless rows give
offsets. -/
structure PlacedInOrder (types : TypeTable) (s : Record) (l : Layout) : Prop where
  shows : List.Forall₂ FieldLayout.Shows l.fields s.declared
  /-- Each plain member and each unit has one place. -/
  spans : ((l.places s).map Place.span).Perm l.spans
  elementSize : ∀ f ∈ l.fields, f.elementSize = types.sizeOf f.dataType
  memberSize : ∀ f ∈ l.fields, f.bitLength = none →
    f.size = f.elementSize * arrayLength f.extents
  asked : ∀ {k : Nat} {u : Place} {o : Nat}, (l.places s)[k]? = some u → u.asked? = some o →
    u.span.start = s.headerSize + o
  follows : ∀ {k : Nat} {u : Place}, (l.places s)[k]? = some u → u.asked? = none →
    u.span.start = Place.lastStop s.headerSize ((l.places s).take k)
  bitFields : ∀ f ∈ l.fields, f.bitLength.isSome → ∃ g u, f.group = some g ∧
    l.groups[g]? = some u ∧ f.offset = u.offset
  totalSize : l.totalSize = Place.lastStop s.headerSize (l.places s)
  recorded : types.primitive? s.name = none → types.sizeOf? s.name = some l.totalSize
  /-- A bit-field that joins a unit may give an offset; it is not looked at. -/
  tile : (∀ u ∈ l.places s, u.asked? = none) →
    Span.Tile s.headerSize l.totalSize ((l.places s).map Place.span)

/-! ## Places one after the other -/

namespace Place

/-- Places that are taken in order behind a header. The largest end so far is `cursor` before them
and `last` after them. -/
inductive Follow (header : Nat) : Nat → List Place → Nat → Prop
  | nil (cursor : Nat) : Follow header cursor [] cursor
  | cons {cursor last : Nat} {u : Place} {rest : List Place} :
      u.span.start = (u.asked?.map (header + ·)).getD cursor →
      Follow header (max cursor u.span.stop) rest last → Follow header cursor (u :: rest) last

/-- The largest of `cursor` and the ends of the places. -/
def reach (cursor : Nat) (places : List Place) : Nat :=
  places.foldl (fun m u => max m u.span.stop) cursor

theorem lastStop_eq_reach {base : Nat} {places : List Place}
    (h : ∀ u ∈ places, base ≤ u.span.stop) : lastStop base places = reach base places := by
  cases places with
  | nil => rfl
  | cons u rest =>
    rw [lastStop, List.map_cons, List.max?_cons', Option.getD_some, List.foldl_map, reach,
      List.foldl_cons, Nat.max_eq_right (h u (.head _))]

namespace Follow

variable {header cursor last : Nat} {places : List Place}

theorem last_eq (h : Follow header cursor places last) : last = reach cursor places := by
  induction h with
  | nil => rfl
  | cons _ _ ih => exact ih

theorem start_eq (h : Follow header cursor places last) {k : Nat} {u : Place}
    (hk : places[k]? = some u) :
    u.span.start = (u.asked?.map (header + ·)).getD (reach cursor (places.take k)) := by
  induction h generalizing k with
  | nil => simp at hk
  | cons hstart _ ih =>
    cases k with
    | zero =>
      cases hk
      exact hstart
    | succ k => exact ih hk

theorem header_le (h : Follow header cursor places last) (hc : header ≤ cursor) :
    ∀ u ∈ places, header ≤ u.span.stop := by
  induction h with
  | nil => simp
  | @cons cursor last u rest hstart _ ih =>
    intro v hv
    rcases List.mem_cons.1 hv with rfl | hv
    · have hle : header ≤ v.span.start := by
        rw [hstart]
        cases v.asked? with
        | none => exact hc
        | some o => exact Nat.le_add_right _ _
      exact Nat.le_trans hle (Nat.le_add_right _ _)
    · exact ih (Nat.le_trans hc (Nat.le_max_left _ _)) v hv

/-- Places of which none is asked for start where the one before them ends. -/
theorem tile (h : Follow header cursor places last) (hn : ∀ u ∈ places, u.asked? = none) :
    Span.Tile cursor last (places.map Place.span) := by
  induction h with
  | nil cursor => exact ⟨fun k => by simp, .nil, rfl⟩
  | @cons cursor last u rest hstart _ ih =>
    rw [hn u (.head _)] at hstart
    have hstart : u.span.start = cursor := hstart
    have hstop : max cursor u.span.stop = cursor + u.span.size := by
      rw [Span.stop, hstart]
      omega
    rw [hstop] at ih
    obtain ⟨hcover, hdisj, hsize⟩ := ih fun v hv => hn v (.tail _ hv)
    refine ⟨fun k => ?_, .cons (fun t ht k hk hkt => ?_) hdisj, ?_⟩
    · have hk := hcover k
      rw [List.map_cons, List.exists_mem_cons_iff, hk, Span.mem_def]
      omega
    · have := (hcover k).1 ⟨t, ht, hkt⟩
      rw [Span.mem_def] at hk
      omega
    · simp only [List.map_cons, List.sum_cons]
      omega

end Follow

end Place

/-! ## The places of slots -/

/-- The place of a slot, given its piece. -/
def Place.ofPiece : Slot × Piece → Place
  | (slot, q) => ⟨slot.firstRow.offset, q.span⟩

theorem placesFrom_append_of_seen {groups : List UnitLayout} {seen : List Nat} {g : Nat}
    (hg : g ∈ seen) {xs : List (Row × FieldLayout)} (h : ∀ x ∈ xs, x.2.group = some g)
    (rest : List (Row × FieldLayout)) :
    placesFrom groups seen (xs ++ rest) = placesFrom groups seen rest := by
  induction xs with
  | nil => rfl
  | cons x xs ih =>
    have hx := h x (.head _)
    simp only [List.cons_append, placesFrom, hx, if_pos hg]
    exact ih fun y hy => h y (.tail _ hy)

namespace Frame

variable {c : Frame} {R : Slot → Nat → Prop} {slots : List Slot} {starts : List Nat}

/-- A slot and its piece make one place. -/
theorem placesFrom_pieces (h : List.Forall₂ R slots starts) {groups : List UnitLayout}
    {seen : List Nat} {units : Nat} (hseen : ∀ g ∈ seen, g < units)
    (hgroups : groups.drop units = (c.pieces units slots starts).filterMap Piece.unit?) :
    placesFrom groups seen
        ((slots.flatMap Slot.rows).zip ((c.pieces units slots starts).flatMap Piece.fields)) =
      (slots.zip (c.pieces units slots starts)).map Place.ofPiece := by
  induction h generalizing seen units with
  | nil => rfl
  | @cons slot start slots starts _ _ ih =>
    cases slot with
    | member row size =>
      have ih := ih hseen hgroups
      simp only [pieces, piece, Slot.units, Slot.rows, Piece.fields, List.flatMap_cons,
        List.singleton_append, List.zip_cons_cons, placesFrom, fieldAt, List.map_cons,
        Place.ofPiece, Slot.firstRow, Piece.span, Nat.add_zero] at ih ⊢
      rw [ih]
    | unit size first others =>
      have hu : groups.drop units = c.unitAt start size first others ::
          (c.pieces (units + 1) slots starts).filterMap Piece.unit? := hgroups
      have hget : groups[units]? = some (c.unitAt start size first others) := by
        rw [← Nat.add_zero units, ← List.getElem?_drop, hu]
        rfl
      have hrest : groups.drop (units + 1) =
          (c.pieces (units + 1) slots starts).filterMap Piece.unit? := by
        rw [← List.drop_drop, hu]
        rfl
      have hnew : units ∉ seen := fun hm => Nat.lt_irrefl _ (hseen units hm)
      have hseen' : ∀ g ∈ units :: seen, g < units + 1 := by
        intro g hg
        rcases List.mem_cons.1 hg with rfl | hg
        · exact Nat.lt_succ_self _
        · exact Nat.lt_succ_of_lt (hseen g hg)
      have ih := ih hseen' hrest
      -- the first bit-field stands for the unit, those that join it are passed over
      simp only [pieces, piece, Slot.units, Slot.rows, Piece.fields, List.flatMap_cons,
        List.map_cons, List.cons_append, List.zip_cons_cons, placesFrom, fieldAt, if_neg hnew, hget]
      rw [List.zip_append (by simp), List.zip_map',
        placesFrom_append_of_seen (g := units) (.head _) (by simp)]
      exact congrArg _ ih

/-- The places of slots follow one another as the slots do. -/
theorem follow {cursor last : Nat} (h : Slot.placeFrom cursor slots = .ok (starts, last))
    (units : Nat) :
    Place.Follow c.headerSize (cursor + c.headerSize)
      ((slots.zip (c.pieces units slots starts)).map Place.ofPiece) (last + c.headerSize) := by
  induction slots generalizing cursor starts units with
  | nil =>
    cases h
    exact .nil _
  | cons slot rest ih =>
    simp only [Slot.placeFrom] at h
    obtain ⟨n, hsize, h⟩ := Checked.bind_eq_ok.1 h
    obtain ⟨stop, hstop, h⟩ := Checked.bind_eq_ok.1 h
    obtain ⟨⟨starts', last'⟩, hrest, h⟩ := Checked.bind_eq_ok.1 h
    cases h
    obtain ⟨-, rfl⟩ := addSize_eq_ok.1 hstop
    have ih := ih hrest (units + slot.units)
    rw [pieces, List.zip_cons_cons, List.map_cons, Place.ofPiece, piece_span hsize]
    refine .cons ?_ ?_
    · cases slot.firstRow.offset with
      | none => rfl
      | some o => exact Nat.add_comm _ _
    · have hcursor : max (cursor + c.headerSize)
          (slot.firstRow.offset.getD cursor + c.headerSize + n) =
            max cursor (slot.firstRow.offset.getD cursor + n) + c.headerSize := by omega
      rwa [Span.stop, hcursor]

end Frame

namespace Arranged

variable {sizeOf : String → Nat} {s : Record} {l : Layout} {c : Frame} {slots : List Slot}
  {starts : List Nat} (h : l.Arranged sizeOf s c slots starts)
include h

theorem places_eq :
    l.places s = (slots.zip (c.pieces 0 slots starts)).map Place.ofPiece := by
  rw [places, h.rows, h.fields]
  exact Frame.placesFrom_pieces h.fits (by simp) h.groups

theorem follow : Place.Follow s.headerSize s.headerSize (l.places s) l.totalSize := by
  have hf := Frame.follow (c := c) h.placed 0
  rwa [← h.places_eq, ← h.totalSize, Nat.zero_add, h.frame] at hf

theorem length_pieces : slots.length = (c.pieces 0 slots starts).length := by
  have hfits := h.fits
  clear h
  generalize 0 = units
  induction hfits generalizing units with
  | nil => rfl
  | cons _ _ ih => simp [Frame.pieces, ← ih]

theorem spans_perm : ((l.places s).map Place.span).Perm l.spans := by
  have hspans : (l.places s).map Place.span = (c.pieces 0 slots starts).map Piece.span := by
    have hspan : Place.span ∘ Place.ofPiece = Piece.span ∘ Prod.snd := rfl
    rw [h.places_eq, List.map_map, hspan, ← List.map_map,
      List.map_snd_zip (Nat.le_of_eq h.length_pieces.symm)]
  rw [hspans]
  exact h.consists.spans_perm.symm

end Arranged

theorem Arranged.placedInOrder {types : TypeTable} {s : Record} {l : Layout} {c : Frame}
    {slots : List Slot} {starts : List Nat} (h : l.Arranged types.sizeOf s c slots starts)
    (hnoted : types.recordSize? s.name = some l.totalSize) : l.PlacedInOrder types s := by
  have hfollow := h.follow
  have hle := hfollow.header_le (Nat.le_refl _)
  have htake : ∀ k, ∀ u ∈ (l.places s).take k, s.headerSize ≤ u.span.stop :=
    fun k u hu => hle u (List.mem_of_mem_take hu)
  refine ⟨h.describes.shows, h.spans_perm, fun f hf => h.consists.elementSize_eq hf,
    fun f hf hb => ?_, fun {k u o} hk ho => ?_, fun {k u} hk hn => ?_,
    fun f hf hb => h.consists.offset_eq hf hb, ?_, fun hprim => ?_, hfollow.tile⟩
  · exact Piece.MemberSound.size (h.consists.sound _ (h.consists.member_mem hf hb))
  · rw [hfollow.start_eq hk, ho]
    rfl
  · rw [hfollow.start_eq hk, hn, Place.lastStop_eq_reach (htake k)]
    rfl
  · rw [Place.lastStop_eq_reach hle]
    exact hfollow.last_eq
  · rw [TypeTable.sizeOf?, hprim]
    exact hnoted

end Layout

/-- **Placement.** Every built project whose records have distinct names has layouts. In each of
them a member or unit starts behind the header at the offset that its first row gives, otherwise
where the furthest one before it ends, and the record ends where the furthest of all does. Where no
row gives an offset, they fill the record behind its header without gap or overlap. -/
theorem Draft.layouts_placed {d : Draft} {p : Project} (h : d.build = .ok p)
    (hd : (p.records.map Record.name).Nodup) :
    ∃ layouts, p.layouts = .ok layouts ∧
      List.Forall₂ (Layout.PlacedInOrder p.types) p.records layouts := by
  obtain ⟨layouts, hlayouts, hall⟩ := exists_arranged h hd
  refine ⟨layouts, hlayouts, hall.imp fun s l hl => ?_⟩
  obtain ⟨hof, c, slots, starts, harr⟩ := hl
  exact harr.placedInOrder hof.noted

/-- Members that overlap, and units that follow the furthest of them. -/
theorem Draft.layouts_placed_sample :
    Sample.overlay.build = .ok Sample.overlaid ∧
      Sample.overlaid.layouts = .ok Sample.overlaidLayouts ∧
      ∃ l, Sample.overlaidLayouts[1]? = some l ∧
        l.PlacedInOrder Sample.overlaid.types Sample.panel ∧
        l.places Sample.panel =
          [⟨some 4, ⟨16, 4⟩⟩, ⟨some 6, ⟨18, 4⟩⟩, ⟨none, ⟨22, 2⟩⟩, ⟨none, ⟨24, 2⟩⟩] := by
  obtain ⟨layouts, hlayouts, hall⟩ :=
    layouts_placed Sample.overlay_build Sample.overlaid_wellNamed.nodup
  obtain rfl := Except.ok.inj (hlayouts.symm.trans Sample.overlaid_layouts)
  obtain ⟨l, hl, hplaced⟩ := getElem?_of_forall₂ hall (i := 1) (x := Sample.panel) rfl
  have hplaces : ∀ l ∈ Sample.overlaidLayouts[1]?, l.places Sample.panel =
      [⟨some 4, ⟨16, 4⟩⟩, ⟨some 6, ⟨18, 4⟩⟩, ⟨none, ⟨22, 2⟩⟩, ⟨none, ⟨24, 2⟩⟩] := by
    decide +kernel
  exact ⟨Sample.overlay_build, Sample.overlaid_layouts, l, hl, hplaced, hplaces l hl⟩

end RecordSwap
