import RecordSwap.Proofs.Rendering

/-!
# The column of the comments

The declarations of a record are padded to one width, so that their comments stand in one column. The
width is counted in bytes and the blanks in characters; a text has at least as many bytes as
characters, so that the blanks are never missing.

* `Text.LeavesBlank`: a width at which padding adds a blank to a text.
* `Commented`, `Layout.commented`: the declarations that are printed, with their comments.
* `Commented.PrintedAt`: a line with its comment at a column; `Layout.exists_commentLines` finds all
  lines of a layout in this form.
* `Layout.width_le_iff`: the width of a layout is the least one above the sizes of all declarations.
* `Layout.comments_aligned`: the statement about the layouts of records.
-/

namespace RecordSwap

/-! ## Padded texts -/

namespace Text

variable {width : Nat} {s : String}

theorem length_blanks (n : Nat) : (blanks n).length = n := by
  rw [blanks, String.length_ofList, List.length_replicate]

theorem blanks_succ (n : Nat) : blanks (n + 1) = blanks n ++ " " := by
  rw [blanks, List.replicate_succ', String.ofList_append]
  rfl

/-- Padding to the width leaves a blank behind the text. -/
def LeavesBlank (width : Nat) (s : String) : Prop :=
  ∃ gap, 0 < gap ∧ padRight width s = s ++ blanks gap

theorem leavesBlank_iff : LeavesBlank width s ↔ s.length < width := by
  constructor
  · rintro ⟨gap, hgap, hpad⟩
    have hlength := congrArg String.length hpad
    simp only [padRight, String.length_append, length_blanks] at hlength
    omega
  · intro h
    exact ⟨width - s.length, Nat.sub_pos_of_lt h, rfl⟩

/-- A text of characters that take one byte each. -/
def IsAscii (s : String) : Prop := ∀ c ∈ s.toList, c.toNat < 128

theorem IsAscii.utf8ByteSize_eq (h : IsAscii s) : s.utf8ByteSize = s.length := by
  induction s using String.push_induction with
  | empty => rfl
  | push s c ih =>
    simp only [IsAscii, String.toList_push, List.forall_mem_append, List.forall_mem_singleton] at h
    have hc : c.utf8Size = 1 := by
      rw [Char.utf8Size_eq_one_iff, UInt32.le_iff_toNat_le]
      exact Nat.le_of_lt_succ h.2
    rw [String.utf8ByteSize_push, String.length_push, ih h.1, hc]

end Text

/-! ## Declarations with comments -/

/-- A declaration with the text of its comment. -/
structure Commented where
  declaration : String
  comment : String

namespace Commented

/-- A line in which the comment starts behind `column` characters: the declaration, at least one
blank, and the comment. -/
def PrintedAt (column : Nat) (c : Commented) (line : String) : Prop :=
  ∃ gap, 0 < gap ∧ (c.declaration ++ Text.blanks gap).length = column ∧
    line = c.declaration ++ Text.blanks gap ++ "/* " ++ c.comment ++ " */"

/-- The line with the declaration padded to a width. -/
def line (width : Nat) (c : Commented) : String :=
  Text.padRight width c.declaration ++ " /* " ++ c.comment ++ " */"

theorem printedAt_line {width : Nat} {c : Commented} (h : Text.LeavesBlank width c.declaration) :
    c.PrintedAt (width + 1) (c.line width) := by
  have hlength := Text.leavesBlank_iff.1 h
  refine ⟨width - c.declaration.length + 1, Nat.succ_pos _, ?_, ?_⟩
  · rw [String.length_append, Text.length_blanks]
    omega
  · rw [line, Text.padRight, Text.blanks_succ, show " /* " = " " ++ "/* " from rfl]
    simp only [String.append_assoc]

end Commented

namespace Layout

/-- The comment on a member: offset and remark. -/
def memberComment (offset : Nat) (remark : String) : String :=
  "[" ++ Text.padLeft 5 (toString offset) ++ "] " ++ remark

/-- What is printed in the declaration of a record: the members of the protocol header, if there is
one, the members and the closing line. -/
def commented (l : Layout) : List Commented :=
  (if l.header then headerMembers.map fun m => ⟨m.declaration, memberComment m.offset m.remark⟩
    else []) ++
  (l.fields.map fun f => ⟨f.declaration, memberComment f.offset f.remark⟩) ++
  [⟨closingLine l.name, s!"Total size of {l.totalSize} bytes"⟩]

variable {l : Layout}

theorem memberText_eq (declaration : String) (offset : Nat) (remark : String) :
    l.memberText declaration offset remark =
      Commented.line l.width ⟨declaration, memberComment offset remark⟩ := by
  show _ ++ " /* [" ++ _ ++ ("] " ++ remark ++ " */") = _
  rw [Commented.line, memberComment, show " /* [" = " /* " ++ "[" from rfl]
  simp only [String.append_assoc]

theorem closingText_eq (name : String) (width size : Nat) :
    Text.padRight width (closingLine name) ++ s!" /* Total size of {size} bytes */" =
      Commented.line width ⟨closingLine name, s!"Total size of {size} bytes"⟩ := by
  show _ ++ (" /* Total size of " ++ _ ++ " bytes */") = _
  rw [Commented.line, show " /* Total size of " = " /* " ++ "Total size of " from rfl,
    show " bytes */" = " bytes" ++ " */" from rfl]
  simp only [String.append_assoc]
  rfl

theorem printed_eq : l.printed = l.openingLines ++ l.commented.map (Commented.line l.width) := by
  rw [printed, commented, closingText_eq]
  simp only [memberText_eq, List.map_append, List.map_map, Function.comp_def, List.map_cons,
    List.map_nil, List.append_assoc]
  cases l.header <;> rfl

/-- All lines with comments are printed, unless the column is too wide. -/
theorem exists_commentLines (h : ¬ l.Overlong)
    (hb : ∀ c ∈ l.commented, Text.LeavesBlank l.width c.declaration) :
    ∃ lines, l.declarationLines = .ok (l.openingLines ++ lines) ∧
      List.Forall₂ (Commented.PrintedAt (l.width + 1)) l.commented lines := by
  refine ⟨_, by rw [declarationLines_ok h, printed_eq], ?_⟩
  rw [List.forall₂_map_right_iff, List.forall₂_same]
  exact fun c hc => Commented.printedAt_line (hb c hc)

/-! ## The width -/

theorem ofRecord_width {p : Project} {s : Record} {placement : Placement}
    (h : ofRecord p s placement = .ok l) : l.width = columnWidth l.name l.header l.fields := by
  obtain ⟨slots, fields, groups, total, -, -, -, -, rfl⟩ := exists_of_ofRecord h
  rfl

variable (hl : l.width = columnWidth l.name l.header l.fields)
include hl

theorem width_le_iff {width : Nat} :
    l.width ≤ width ↔ ∀ c ∈ l.commented, c.declaration.utf8ByteSize < width := by
  rw [hl, columnWidth_le_iff, commented]
  simp only [List.forall_mem_append, List.forall_mem_map, List.forall_mem_singleton]
  cases l.header <;> simp [and_comm]

theorem leavesBlank_width : ∀ c ∈ l.commented, Text.LeavesBlank l.width c.declaration := by
  intro c hc
  have hbytes := (width_le_iff hl).1 (Nat.le_refl _) c hc
  exact Text.leavesBlank_iff.2 (Nat.lt_of_le_of_lt (length_le_utf8ByteSize _) hbytes)

/-- If bytes are characters, the width is the least one that leaves all blanks. -/
theorem width_le_of_leavesBlank (ha : ∀ c ∈ l.commented, Text.IsAscii c.declaration) {width : Nat}
    (h : ∀ c ∈ l.commented, Text.LeavesBlank width c.declaration) : l.width ≤ width := by
  refine (width_le_iff hl).2 fun c hc => ?_
  rw [(ha c hc).utf8ByteSize_eq]
  exact Text.leavesBlank_iff.1 (h c hc)

end Layout

/-- **Comments stand in one column.** The layout of a record shows its declared rows. Unless its
column is too wide to be padded to, all of them are printed, together with the members of the
protocol header, if there is one, and the closing line, each with its comment behind as many
characters as the width says, and one more. Padding leaves a blank behind each declaration, and if
all of these are ASCII texts, no smaller width does. -/
theorem Layout.comments_aligned {p : Project} {s : Record} {placement : Placement} {l : Layout}
    (h : ofRecord p s placement = .ok l) (hw : l.width < Text.columnLimit) :
    List.Forall₂ FieldLayout.Shows l.fields s.declared ∧
      (∃ lines, l.declarationLines = .ok (l.openingLines ++ lines) ∧
        List.Forall₂ (Commented.PrintedAt (l.width + 1)) l.commented lines) ∧
      (∀ c ∈ l.commented, Text.LeavesBlank l.width c.declaration) ∧
      ((∀ c ∈ l.commented, Text.IsAscii c.declaration) →
        ∀ width < l.width, ∃ c ∈ l.commented, ¬ Text.LeavesBlank width c.declaration) := by
  obtain ⟨slots, hreads⟩ := ofRecord_reads h
  have hl := ofRecord_width h
  have hblank := leavesBlank_width hl
  refine ⟨hreads.shows, exists_commentLines (Nat.not_le_of_lt hw) hblank, hblank, ?_⟩
  intro hascii width hlt
  by_contra! hnone
  exact Nat.not_le_of_lt hlt (width_le_of_leavesBlank hl hascii hnone)

namespace Sample

/-- A record with a header whose longest declaration has fewer characters than bytes. -/
def gauge : Record where
  name := "Gauge"
  messageId := some "0x1806"
  rows := [
    { name := "größenänderung", dataType := "uint16", bitLength := some 11 },
    { name := "Δφ", dataType := "float", extents := [2, 3] }]

/-- The project of this record alone. -/
def gauged : Project := { project with
  records := [gauge]
  placements := [⟨[("größenänderung", 0), ("Δφ", 2)], 26⟩]
  types := TypeTable.builtin.defineRecord "Gauge" 38
  diagnostics := [] }

theorem gauge_build : ({ records := [gauge] } : Draft).build = .ok gauged := by decide +kernel

/-- The layouts of this project. -/
def gaugedLayouts : List Layout := gauged.layouts.toOption.getD []

theorem gauged_layouts : gauged.layouts = .ok gaugedLayouts := by decide +kernel

end Sample

/-- A record with umlauts, and one that is printed in ASCII and would have no blank behind its
longest declaration if the comments stood one character further left. -/
theorem Layout.comments_aligned_sample :
    ({ records := [Sample.gauge] } : Draft).build = .ok Sample.gauged ∧
      Sample.gauged.layouts = .ok Sample.gaugedLayouts ∧
      (∃ l ∈ Sample.gaugedLayouts[0]?, l.width = 32 ∧
        "   uint16 größenänderung:11;" ∈ l.commented.map Commented.declaration ∧
        ∃ lines, l.declarationLines = .ok (l.openingLines ++ lines) ∧
          List.Forall₂ (Commented.PrintedAt 33) l.commented lines) ∧
      Sample.project.layouts = .ok Sample.layouts ∧
      ∃ l ∈ Sample.layouts[1]?, l.width = 27 ∧
        ∃ c ∈ l.commented, ¬ Text.LeavesBlank 26 c.declaration := by
  obtain ⟨l, hl, hwidth, hmember⟩ : ∃ l ∈ Sample.gaugedLayouts[0]?, l.width = 32 ∧
      "   uint16 größenänderung:11;" ∈ l.commented.map Commented.declaration := by decide +kernel
  obtain ⟨m, hm, hwidth', hprinted⟩ : ∃ m ∈ Sample.layouts[1]?, m.width = 27 ∧
      m.commented.map Commented.declaration = ["   char CFS_PRI_HEADER[6];",
        "   char CFS_SEC_HEADER[6];", "   uint32 time;", "   Status parts[2];",
        "   uint16 flag:1;", "   uint16 level:11;", "\x7d Packet;"] := by decide +kernel
  have hascii : ∀ c ∈ m.commented, Text.IsAscii c.declaration := by
    rw [← List.forall_mem_map, hprinted]
    simp [Text.IsAscii]
  obtain ⟨_, _, -, -, hof⟩ := Sample.gauged.exists_of_layouts Sample.gauged_layouts hl
  obtain ⟨_, _, -, -, hof'⟩ := Sample.project.exists_of_layouts Sample.project_layouts hm
  obtain ⟨-, hlines, -, -⟩ := comments_aligned hof (by rw [hwidth]; decide)
  obtain ⟨-, -, -, hleast⟩ := comments_aligned hof' (by rw [hwidth']; decide)
  rw [hwidth] at hlines
  exact ⟨Sample.gauge_build, Sample.gauged_layouts, ⟨l, hl, hwidth, hmember, hlines⟩,
    Sample.project_layouts, m, hm, hwidth', hleast hascii 26 (by rw [hwidth']; decide)⟩

end RecordSwap
