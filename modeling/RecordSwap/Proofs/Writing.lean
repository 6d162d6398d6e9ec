import RecordSwap.Proofs.FileTrees
import RecordSwap.Proofs.Rendering

/-!
# Writing both files

A run makes both texts before it touches anything. Then it writes each file, whatever has become of
the directory and of the other file.

* `Report.Accounts`, `Report.Tells`: a report that has each path once, and tells what became of it.
* `Generator.accounts`, `Generator.tells`: the report on any outcomes does.
* `Generator.run_writeTo`: a run with both texts as two writes, one after the other.
* `Generator.Wrote`: what has then become of the files and of the file system.
* `Generator.writeTo_accounts`: the statement about all generators, directories, file systems and
  renderers of banner templates.
-/

namespace RecordSwap

/-! ## Reports -/

/-- Each of the paths has been written or has failed; both lists keep their order. -/
structure Report.Accounts (r : Report) (paths : List String) : Prop where
  once : (r.written ++ r.failures.map Prod.fst).Perm paths
  written : r.written.Sublist paths
  failures : (r.failures.map Prod.fst).Sublist paths
  success : r.isSuccess = true ↔ r.written = paths

/-- The report has the outcome of writing at a path. -/
def Report.Tells (r : Report) (path : String) : Except FileError Unit → Prop
  | .ok () => path ∈ r.written
  | .error e => (path, e) ∈ r.failures

namespace Generator

theorem accounts (g : Generator) (outcomes : List (String × Except FileError Unit)) :
    (g.report outcomes).Accounts (outcomes.map Prod.fst) := by
  induction outcomes with
  | nil => exact ⟨.nil, .slnil, .slnil, by simp [report, Report.isSuccess]⟩
  | cons entry outcomes ih =>
    obtain ⟨path, outcome⟩ := entry
    cases outcome with
    | ok u =>
      exact ⟨ih.once.cons path, ih.written.cons_cons path, ih.failures.cons path,
        ih.success.trans (List.cons_inj_right path).symm⟩
    | error e =>
      refine ⟨List.perm_middle.trans (ih.once.cons path), ih.written.cons path,
        ih.failures.cons_cons path, iff_of_false Bool.false_ne_true fun h => ?_⟩
      -- the list of written paths is too short to be the list of all
      have h : (g.report outcomes).written = path :: outcomes.map Prod.fst := h
      have hlength : (g.report outcomes).written.length = outcomes.length + 1 := by
        rw [h, List.length_cons, List.length_map]
      have hle := ih.written.length_le
      rw [List.length_map] at hle
      omega

theorem mem_written {g : Generator} {outcomes : List (String × Except FileError Unit)}
    {path : String} : path ∈ (g.report outcomes).written ↔ (path, .ok ()) ∈ outcomes := by
  constructor
  · intro h
    obtain ⟨⟨other, outcome⟩, hmem, hpath⟩ := List.mem_filterMap.1 h
    cases outcome <;> cases hpath
    exact hmem
  · exact fun h => List.mem_filterMap.2 ⟨_, h, rfl⟩

theorem tells (g : Generator) {outcomes : List (String × Except FileError Unit)} {path : String}
    {outcome : Except FileError Unit} (h : (path, outcome) ∈ outcomes) :
    (g.report outcomes).Tells path outcome := by
  cases outcome with
  | ok u => exact mem_written.2 h
  | error e => exact List.mem_filterMap.2 ⟨_, h, rfl⟩

/-! ## Paths -/

variable (g : Generator) (dir : String)

def headerPath : String := Path.join dir (g.baseName ++ ".h")

def sourcePath : String := Path.join dir (g.baseName ++ ".c")

theorem getLast?_headerPath : (g.headerPath dir).toList.getLast? = some 'h' := by
  obtain ⟨front, h⟩ := Path.exists_join dir (g.baseName ++ ".h")
  simp [headerPath, h]

theorem getLast?_sourcePath : (g.sourcePath dir).toList.getLast? = some 'c' := by
  obtain ⟨front, h⟩ := Path.exists_join dir (g.baseName ++ ".c")
  simp [sourcePath, h]

theorem headerPath_ne_sourcePath : g.headerPath dir ≠ g.sourcePath dir := by
  intro h
  have hlast := g.getLast?_headerPath dir
  rw [h, getLast?_sourcePath] at hlast
  exact absurd hlast (by decide)

/-! ## Runs -/

variable [TemplateEngine] {σ : Type} (fs : FileSystem (StateM σ))

theorem run_writeTo_error {e : GenerationError} (h : g.render = .error e) (s : σ) :
    (g.writeTo fs dir).run s = (.error e, s) := by
  rw [writeTo, h]
  rfl

/-- A run with both texts creates the directory as far as it can, and writes twice. -/
theorem run_writeTo {a : Artifacts} (h : g.render = .ok a) (ha : a.baseName = g.baseName) (s : σ) :
    let header := g.headerPath dir
    let source := g.sourcePath dir
    let s₁ := fs.prepared dir s
    let s₂ := fs.written header a.headerText s₁
    (g.writeTo fs dir).run s =
      (.ok (g.report [(header, fs.outcome header a.headerText s₁),
        (source, fs.outcome source a.sourceText s₂)]), fs.written source a.sourceText s₂) := by
  intro header source s₁ s₂
  have hheader : header = Path.join dir a.headerFile := by rw [Artifacts.headerFile, ha]; rfl
  have hsource : source = Path.join dir a.sourceFile := by rw [Artifacts.sourceFile, ha]; rfl
  rw [writeTo, h]
  simp only [s₂, hheader, hsource]
  rfl

/-- What a run has done that had the texts `a`, from the state `s` to the state `s'`. -/
structure Wrote (bytes? : σ → String → Option ByteArray) (a : Artifacts) (s : σ) (report : Report)
    (s' : σ) : Prop where
  distinct : g.headerPath dir ≠ g.sourcePath dir
  accounts : report.Accounts [g.headerPath dir, g.sourcePath dir]
  headerText : g.headerPath dir ∈ report.written →
    bytes? s' (g.headerPath dir) = some a.headerText.toUTF8
  sourceText : g.sourcePath dir ∈ report.written →
    bytes? s' (g.sourcePath dir) = some a.sourceText.toUTF8
  /-- The outcome of the header is what the file system answers before the source is written. -/
  header : report.Tells (g.headerPath dir)
    (fs.outcome (g.headerPath dir) a.headerText (fs.prepared dir s))
  /-- The outcome of the source is what the file system answers after that. -/
  source : report.Tells (g.sourcePath dir) (fs.outcome (g.sourcePath dir) a.sourceText
    (fs.written (g.headerPath dir) a.headerText (fs.prepared dir s)))
  /-- A header that cannot be written leaves no trace that the source could meet. -/
  traceless : g.headerPath dir ∉ report.written →
    fs.written (g.headerPath dir) a.headerText (fs.prepared dir s) = fs.prepared dir s
  final : s' = fs.written (g.sourcePath dir) a.sourceText
    (fs.written (g.headerPath dir) a.headerText (fs.prepared dir s))

variable {g dir fs}

theorem exists_wrote {bytes? : σ → String → Option ByteArray} (hfs : fs.Lawful bytes?)
    {a : Artifacts} (h : g.render = .ok a) (ha : a.baseName = g.baseName) {s : σ}
    (hapart : fs.Apart bytes? (fs.written (g.headerPath dir) a.headerText (fs.prepared dir s))
      (g.headerPath dir) (g.sourcePath dir)) : ∃ report s',
      (g.writeTo fs dir).run s = (.ok report, s') ∧ g.Wrote dir fs bytes? a s report s' := by
  refine ⟨_, _, g.run_writeTo dir fs h ha s, ?_⟩
  have hne := g.headerPath_ne_sourcePath dir
  -- as the paths differ, a path is among the written ones if its own outcome says so
  refine {
    distinct := hne
    accounts := g.accounts _
    header := g.tells (by simp)
    source := g.tells (by simp)
    final := rfl
    headerText := fun hm => ?_
    sourceText := fun hm => ?_
    traceless := fun hm => ?_ }
  · have ho : fs.outcome (g.headerPath dir) a.headerText (fs.prepared dir s) = .ok () := by
      simpa [mem_written, hne, eq_comm] using hm
    rw [hapart]
    exact hfs.replaced ho
  · exact hfs.replaced (by simpa [mem_written, hne, eq_comm] using hm)
  · cases ho : fs.outcome (g.headerPath dir) a.headerText (fs.prepared dir s) with
    | ok u => exact absurd (mem_written.2 (by simp [ho])) hm
    | error e => exact hfs.failed ho

end Generator

/-- **Writing both files.** For every generator of a project, every renderer of templates, every
directory and every file system in which a failed write changes nothing, and where the two paths do not lead to one file: if the
template of the banner is wrong, or a comment would have to stand in a column that no line can be
padded to, the run stops before anything is touched. Otherwise there is a report. It has each of the
two paths once, as written or as failed, and is a success if both were written; a written file has
the text that was rendered for it; and what becomes of a file is what the file system answers to
writing it, whatever it has answered for the directory and for the other file. -/
theorem Generator.writeTo_accounts [TemplateEngine] {p : Project} {options : Options}
    {g : Generator} (hg : ofProject p options = .ok g) {σ : Type} {fs : FileSystem (StateM σ)}
    {bytes? : σ → String → Option ByteArray} (hfs : fs.Lawful bytes?) {dir : String} {s : σ}
    (hapart : ∀ text, fs.Apart bytes? (fs.written (g.headerPath dir) text (fs.prepared dir s))
      (g.headerPath dir) (g.sourcePath dir)) :
    (g.TemplateFails → (g.writeTo fs dir).run s = (.error .template, s)) ∧
      (¬ g.TemplateFails → (∃ l ∈ g.layouts, l.Overlong) →
        (g.writeTo fs dir).run s = (.error (.fault .columnLimit), s)) ∧
      (¬ g.TemplateFails → (∀ l ∈ g.layouts, ¬ l.Overlong) → ∃ artifacts report s',
        g.render = .ok artifacts ∧ (g.writeTo fs dir).run s = (.ok report, s') ∧
          g.Wrote dir fs bytes? artifacts s report s') := by
  refine ⟨fun ht => ?_, fun ht ho => ?_, fun ht ho => ?_⟩
  · exact g.run_writeTo_error dir fs (render_template ht) s
  · exact g.run_writeTo_error dir fs (render_overlong ht ho) s
  · obtain ⟨artifacts, hrender, ha⟩ := exists_render hg ht ho
    obtain ⟨report, s', hrun, hwrote⟩ := exists_wrote hfs hrender ha (hapart _)
    exact ⟨artifacts, report, s', hrender, hrun, hwrote⟩

namespace Sample

/-- A record of one byte. -/
def mote (name : String) : Record where
  name := name
  rows := [{ name := "a", dataType := "uint8" }]

def moteDraft (name : String) : Draft where
  records := [mote name]

def moteProject (name : String) : Project where
  name := ""
  system := none
  dataStreams := []
  includes := []
  groups := []
  records := [mote name]
  placements := [⟨[("a", 0)], 1⟩]
  types := TypeTable.builtin.defineRecord name 1
  diagnostics := []

def moteLayout (name : String) : Layout :=
  let fields : List FieldLayout := [⟨"a", "uint8", [], none, 0, 1, 1, none, 0, "", []⟩]
  { name, description := "", header := false, width := Layout.columnWidth name false fields
    totalSize := 1, fields, groups := [] }

def moteGenerator (name : String) (options : Options) : Generator where
  project := moteProject name
  options
  layouts := [moteLayout name]
  plans := ⟨[⟨0, name, [⟨"a", .singleByte, [], 0, 1⟩], false⟩], [none], []⟩

theorem mote_order {name : String} (h : name ≠ "uint8") :
    Record.order [mote name] = .ok [mote name] := by
  have hneeds : Record.needs [mote name] 0 = [] := by
    change ["uint8"].filterMap (Record.lastIndex? [mote name]) = []
    simp [Record.lastIndex?, mote, h]
  have hsort : Dependency.sort (Record.needs [mote name]) 1 = .ok [0] := by
    change Dependency.visit _ [0] [] 0 >>= pure = _
    rw [Dependency.visit, if_neg (by simp), dif_pos (by simp), hneeds]
    rfl
  rw [Record.order, List.length_singleton, hsort]
  rfl

theorem mote_build {name : String} (h : name ≠ "uint8") :
    (moteDraft name).build = .ok (moteProject name) :=
  Draft.build_of_ok (d := moteDraft name) (mote_order h) rfl

theorem mote_generator (name : String) (options : Options) :
    Generator.ofProject (moteProject name) options = .ok (moteGenerator name options) := rfl

/-- A renderer that leaves templates as they are, as it should where they refer to nothing. -/
@[reducible]
def verbatim : TemplateEngine where
  render? template _ := some template

theorem verbatim_renders (g : Generator) : letI := verbatim; ¬ g.TemplateFails := by
  rintro ⟨template, -, h⟩
  cases h

def captioned : Options := { bannerTemplate := some "/* One byte */\n" }

/-- A tree in which the header cannot be written, as there is a directory of its name. -/
def blocked : FileTree where
  directories := [["out"], ["out", "_types.h"]]

theorem blocked_prepared : FileTree.system.prepared "out" blocked = blocked := rfl

theorem blocked_header (text : String) :
    FileTree.system.outcome "out/_types.h" text blocked = .error .isADirectory := rfl

theorem blocked_source (text : String) :
    FileTree.system.outcome "out/_types.c" text blocked = .ok () := rfl

/-- A tree in which no directory can be created: there is a file of its name. -/
def occupied : FileTree where
  files := [(["out"], "x".toUTF8)]

/-- A name as long as no line can be padded to. -/
def longName : String := String.ofList (List.replicate Text.columnLimit 'N')

end Sample

/-- The source is written where the header cannot be. -/
theorem Generator.writeTo_accounts_sample :
    letI := Sample.verbatim
    ∃ artifacts report t, (Sample.moteGenerator "Log" Sample.captioned).render = .ok artifacts ∧
      ((Sample.moteGenerator "Log" Sample.captioned).writeTo FileTree.system "out").run
        Sample.blocked = (.ok report, t) ∧
      report.isSuccess = false ∧ ("out/_types.h", .isADirectory) ∈ report.failures ∧
      t.bytes? "out/_types.c" = some artifacts.sourceText.toUTF8 := by
  let := Sample.verbatim
  have hapart := fun t : FileTree => t.system_apart
    ((Sample.moteGenerator "Log" Sample.captioned).getLast?_headerPath "out")
    ((Sample.moteGenerator "Log" Sample.captioned).getLast?_sourcePath "out")
    (by decide) (by decide) (by decide)
  obtain ⟨-, -, hwrites⟩ := writeTo_accounts (Sample.mote_generator "Log" Sample.captioned)
    FileTree.system_lawful (s := Sample.blocked) fun _ => hapart _
  obtain ⟨artifacts, report, t, hrender, hrun, hwrote⟩ :=
    hwrites (Sample.verbatim_renders _) (by decide +kernel)
  have hheader : (Sample.moteGenerator "Log" Sample.captioned).headerPath "out" =
      "out/_types.h" := by decide
  have hsource : (Sample.moteGenerator "Log" Sample.captioned).sourcePath "out" =
      "out/_types.c" := by decide
  obtain ⟨-, -, -, htext, hfailed, hwritten, -, -⟩ := hwrote
  rw [hheader, Sample.blocked_prepared, Sample.blocked_header] at hfailed
  rw [hheader, hsource, Sample.blocked_prepared, FileTree.system_lawful.failed
    (Sample.blocked_header _), Sample.blocked_source] at hwritten
  rw [hsource] at htext
  exact ⟨artifacts, report, t, hrender, hrun,
    List.isEmpty_eq_false_iff_exists_mem.2 ⟨_, hfailed⟩, hfailed, htext hwritten⟩

/-- With a name that is too long the run ends in a fault, where it should report that neither file
could be written. -/
theorem Generator.writeTo_unreported :
    letI := Sample.verbatim
    (Sample.moteDraft Sample.longName).build = .ok (Sample.moteProject Sample.longName) ∧
      ofProject (Sample.moteProject Sample.longName) {} =
        .ok (Sample.moteGenerator Sample.longName {}) ∧
      ¬ (Sample.moteGenerator Sample.longName {}).TemplateFails ∧
      ((Sample.moteGenerator Sample.longName {}).writeTo FileTree.system "out").run
        Sample.occupied = (.error (.fault .columnLimit), Sample.occupied) := by
  let := Sample.verbatim
  have hlength : Sample.longName.length = Text.columnLimit := by
    rw [Sample.longName, String.length_ofList, List.length_replicate]
  have hname : Sample.longName ≠ "uint8" := by
    intro h
    rw [h] at hlength
    exact absurd hlength (by decide)
  have hlong : (Sample.moteLayout Sample.longName).Overlong := by
    refine Nat.le_of_lt ?_
    rw [← hlength]
    exact Layout.length_lt_columnWidth _ _ _
  have htemplate := Sample.verbatim_renders (Sample.moteGenerator Sample.longName {})
  exact ⟨Sample.mote_build hname, Sample.mote_generator Sample.longName {}, htemplate,
    run_writeTo_error _ _ _ (render_overlong htemplate ⟨_, .head _, hlong⟩) _⟩

end RecordSwap
