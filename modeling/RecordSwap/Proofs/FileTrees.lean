import RecordSwap.FileSystem.Tree
import RecordSwap.Proofs.Members

/-!
# File systems that keep what is written

What a file system is expected to do with the texts that it is given, and that file trees do it.

* `FileSystem.Lawful`: a write that fails changes nothing, and a file that was written has the text
  for its contents.
* `FileSystem.Apart`: writing at one path leaves what is read at another one.
* `FileTree.bytes?_putFile_self`, `FileTree.bytes?_putFile_of_ne`: reading a tree in which a file
  has been put.
* `FileTree.system_lawful`, `FileTree.system_apart`: trees are lawful, and paths whose last
  characters differ lead to different files.
-/

namespace RecordSwap

/-! ## Laws -/

namespace FileSystem

variable {σ : Type}

/-- The outcome of writing a text. -/
def outcome (fs : FileSystem (StateM σ)) (path text : String) (s : σ) : Except FileError Unit :=
  ((fs.writeText path text).run s).1

/-- The state that writing a text leaves. -/
def written (fs : FileSystem (StateM σ)) (path text : String) (s : σ) : σ :=
  ((fs.writeText path text).run s).2

/-- The state after a directory has been created, as far as it could be. -/
def prepared (fs : FileSystem (StateM σ)) (dir : String) (s : σ) : σ :=
  ((fs.createDirs dir).run s).2

/-- A file system whose files have the contents `bytes?`. -/
structure Lawful (fs : FileSystem (StateM σ)) (bytes? : σ → String → Option ByteArray) : Prop where
  failed : ∀ {path text : String} {s : σ} {e : FileError},
    fs.outcome path text s = .error e → fs.written path text s = s
  replaced : ∀ {path text : String} {s : σ},
    fs.outcome path text s = .ok () → bytes? (fs.written path text s) path = some text.toUTF8

/-- Nothing that is written at the path `other` is read at `path`: in the state `s` they do not lead
to one file. -/
def Apart (fs : FileSystem (StateM σ)) (bytes? : σ → String → Option ByteArray) (s : σ)
    (path other : String) : Prop :=
  ∀ text, bytes? (fs.written other text s) path = bytes? s path

end FileSystem

/-! ## Last parts of paths -/

namespace Path

theorem exists_join (dir file : String) : ∃ front, join dir file = front ++ file := by
  unfold join
  split
  · exact ⟨"", String.empty_append.symm⟩
  · split
    · exact ⟨dir, rfl⟩
    · exact ⟨dir ++ "/", rfl⟩

theorem exists_splitOn_concat {c x : Char} (hx : x ≠ c) (front : List Char) :
    ∃ init last, (front ++ [x]).splitOn c = init ++ [last ++ [x]] := by
  induction front with
  | nil => exact ⟨[], [], by simp [List.splitOn_cons_eq_if_modifyHead, hx]⟩
  | cons d front ih =>
    obtain ⟨init, last, h⟩ := ih
    rw [List.cons_append, List.splitOn_cons_eq_if_modifyHead, h]
    split
    · exact ⟨[] :: init, last, rfl⟩
    · cases init with
      | nil => exact ⟨[], d :: last, rfl⟩
      | cons part init => exact ⟨(d :: part) :: init, last, rfl⟩

/-- A path that ends in a letter has a last part, which ends in that letter. -/
theorem getLast?_parts {path : String} {x : Char} (h : path.toList.getLast? = some x)
    (hslash : x ≠ '/') (hdot : x ≠ '.') :
    ∃ last, (parts path).getLast? = some last ∧ last.toList.getLast? = some x := by
  obtain ⟨front, hfront⟩ := List.getLast?_eq_some_iff.1 h
  obtain ⟨init, last, hsplit⟩ := exists_splitOn_concat hslash front
  refine ⟨String.ofList (last ++ [x]), ?_, by simp⟩
  have hkept : ∀ other : String, other.toList.getLast? ≠ some x →
      String.ofList (last ++ [x]) ≠ other := by
    rintro _ hne rfl
    simp at hne
  have hempty := hkept "" (by simp)
  have hsingle := hkept "." (by simpa using hdot.symm)
  have hkeep : decide (String.ofList (last ++ [x]) ≠ "" ∧ String.ofList (last ++ [x]) ≠ ".") :=
    decide_eq_true ⟨hempty, hsingle⟩
  rw [parts, hfront, hsplit, List.map_append, List.filter_append, List.map_singleton,
    List.filter_singleton, hkeep, cond_true, List.getLast?_concat]

end Path

/-! ## Trees -/

theorem toOption_bind {ε α β : Type} (x : Except ε α) (f : α → Except ε β) :
    (x >>= f).toOption = x.toOption.bind fun a => (f a).toOption := by
  cases x <;> rfl

namespace FileTree

variable {t t' : FileTree} {path other : String} {place : Place}

/-- The contents of the file at a path, if there is one. -/
def bytes? (t : FileTree) (path : String) : Option ByteArray := (t.read path).toOption

/-- The place of a path ends in the last part of the path. -/
theorem getLast?_of_locate (h : t.locate path = .ok place) {last : String}
    (hlast : (Path.parts path).getLast? = some last) (hdots : last ≠ "..") :
    place.getLast? = some last := by
  simp only [locate, hlast, if_neg hdots] at h
  split at h
  · cases h
  · split at h
    · cases h
    · obtain ⟨dir, -, h⟩ := bind_eq_ok_iff.1 h
      split at h <;> cases h
      exact List.getLast?_concat

section
variable (t : FileTree) (place : Place) (bytes : ByteArray)

theorem file?_putFile (x : Place) :
    (t.putFile place bytes).file? x = ((place, bytes) :: t.files).lookup x :=
  lookup_filter_append t.files place bytes x

theorem file?_putFile_self : (t.putFile place bytes).file? place = some bytes := by
  rw [file?_putFile, List.lookup_cons_self]

theorem file?_putFile_of_ne {other : Place} (h : other ≠ place) :
    (t.putFile place bytes).file? other = t.file? other := by
  rw [file?_putFile, List.lookup_cons, beq_eq_false_iff_ne.2 h]
  rfl

theorem step_putFile (dir : Place) (name : String) :
    ((t.putFile place bytes).step dir name).toOption = (t.step dir name).toOption := by
  unfold step
  split
  · rfl
  · split
    · rfl
    · change (if t.isDirectory _ then _ else _ : Except FileError Place).toOption =
        (if t.isDirectory _ then _ else _ : Except FileError Place).toOption
      split
      · rfl
      · split <;> split <;> rfl

theorem walk_putFile (dir : Place) (names : List String) :
    ((t.putFile place bytes).walk dir names).toOption = (t.walk dir names).toOption := by
  unfold walk
  induction names generalizing dir with
  | nil => rfl
  | cons name names ih =>
    rw [List.foldlM_cons, List.foldlM_cons, toOption_bind, toOption_bind, step_putFile]
    simp only [ih]

/-- Files are not asked for on the way to a place. -/
theorem locate_putFile (path : String) :
    ((t.putFile place bytes).locate path).toOption = (t.locate path).toOption := by
  simp only [locate]
  split
  · rfl
  · split
    · rfl
    · split
      · rfl
      · rw [toOption_bind, toOption_bind]
        exact congrArg (Option.bind · _) (t.walk_putFile place bytes _ _)

end

theorem bytes?_eq (t : FileTree) (path : String) :
    t.bytes? path = (t.locate path).toOption.bind fun place =>
      if t.isDirectory place || namesDirectory path then none else t.file? place := by
  rw [bytes?, read, toOption_bind]
  refine congrArg _ (funext fun place => ?_)
  cases t.isDirectory place <;> cases t.file? place <;> cases namesDirectory path <;> rfl

theorem exists_place_of_write {bytes : ByteArray} (h : t.write path bytes = .ok t') : ∃ place,
    t.locate path = .ok place ∧ t.isDirectory place = false ∧ namesDirectory path = false ∧
      t' = t.putFile place bytes := by
  obtain ⟨place, hplace, h⟩ := bind_eq_ok_iff.1 h
  refine ⟨place, hplace, ?_⟩
  cases hd : t.isDirectory place <;> cases hn : namesDirectory path <;> rw [hd, hn] at h <;> cases h
  exact ⟨rfl, rfl, rfl⟩

theorem bytes?_putFile_self (bytes : ByteArray) (hplace : t.locate path = .ok place)
    (hd : t.isDirectory place = false) (hn : namesDirectory path = false) :
    (t.putFile place bytes).bytes? path = some bytes := by
  rw [bytes?_eq, locate_putFile, hplace]
  change (if t.isDirectory place || namesDirectory path then none else _) = _
  rw [hd, hn]
  exact t.file?_putFile_self place bytes

theorem bytes?_putFile_of_ne (bytes : ByteArray) (h : ∀ q, t.locate path = .ok q → q ≠ place) :
    (t.putFile place bytes).bytes? path = t.bytes? path := by
  rw [bytes?_eq, bytes?_eq, locate_putFile]
  cases hq : t.locate path with
  | error e => rfl
  | ok q =>
    change (if t.isDirectory q || namesDirectory path then none else _) =
      (if t.isDirectory q || namesDirectory path then none else _)
    rw [t.file?_putFile_of_ne place bytes (h q hq)]

theorem run_writeText (t : FileTree) (path text : String) :
    (system.writeText path text).run t =
      match t.write path text.toUTF8 with
      | .ok t' => (.ok (), t')
      | .error e => (.error e, t) := by
  change (match t.write path text.toUTF8 with
    | .ok t' => do set t'; pure (.ok ())
    | .error e => pure (.error e) : StateM FileTree (Except FileError Unit)).run t = _
  split <;> rfl

theorem system_lawful : system.Lawful bytes? where
  failed := by
    intro path text t e h
    rw [FileSystem.outcome, run_writeText] at h
    rw [FileSystem.written, run_writeText]
    split at h
    · cases h
    · rfl
  replaced := by
    intro path text t h
    rw [FileSystem.outcome, run_writeText] at h
    rw [FileSystem.written, run_writeText]
    split at h
    · next hwrite =>
      obtain ⟨place, hplace, hd, hn, rfl⟩ := exists_place_of_write hwrite
      exact bytes?_putFile_self _ hplace hd hn
    · cases h

/-- Paths that end in different letters lead to different files. -/
theorem system_apart (t : FileTree) {x y : Char} (hpath : path.toList.getLast? = some x)
    (hother : other.toList.getLast? = some y) (hne : x ≠ y) (hx : x ≠ '/' ∧ x ≠ '.')
    (hy : y ≠ '/' ∧ y ≠ '.') : system.Apart bytes? t path other := by
  obtain ⟨last, hlast, hlastx⟩ := Path.getLast?_parts hpath hx.1 hx.2
  obtain ⟨last', hlast', hlasty⟩ := Path.getLast?_parts hother hy.1 hy.2
  have hdots : ∀ {part : String} {z : Char}, part.toList.getLast? = some z → z ≠ '.' →
      part ≠ ".." := by
    rintro _ z h hz rfl
    exact hz (Option.some.inj h).symm
  intro text
  rw [FileSystem.written, run_writeText]
  split
  · next hwrite =>
    obtain ⟨place, hplace, -, -, rfl⟩ := exists_place_of_write hwrite
    refine bytes?_putFile_of_ne _ fun q hq hqp => ?_
    have hparts := getLast?_of_locate hq hlast (hdots hlastx hx.2)
    rw [hqp, getLast?_of_locate hplace hlast' (hdots hlasty hy.2), Option.some.injEq] at hparts
    rw [hparts, hlastx] at hlasty
    exact hne (Option.some.inj hlasty)
  · rfl

end FileTree

end RecordSwap
