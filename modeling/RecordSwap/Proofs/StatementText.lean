import RecordSwap.C.Source
import RecordSwap.Proofs.Members

/-!
# The text of statements

How the statements and functions of the swap source read, written out for each kind of them. The
texts that are printed are those.

* `C.Element.Reads`, `C.Simple.Reads`, `C.Statement.Reads`: the text of an element of a member, of
  an assignment or call, and of a statement.
* `C.Lines`: the lines of a body, in which the counter is declared just before the first loop, and
  nowhere else (`Lines.count`).
* `C.SwapFunction`: a swap function as a list of statements. `SwapFunction.Reads`: its text, from
  the comment to the closing brace. The text that is printed for a function is one
  (`SwapFunction.functionText_reads`).
-/

namespace RecordSwap

theorem append_ne_of_not_prefix {start s t : String} (h : ¬ start.toList <+: t.toList) :
    start ++ s ≠ t := by
  rintro rfl
  exact h (by rw [String.toList_append]; exact List.prefix_append _ _)

theorem append_ne_of_not_suffix {s stop t : String} (h : ¬ stop.toList <:+ t.toList) :
    s ++ stop ≠ t := by
  rintro rfl
  exact h (by rw [String.toList_append]; exact List.suffix_append _ _)

/-- What holds of a text holds of another one with the same characters. -/
theorem eq_of_toList {P : String → Prop} {s t : String} (h : s.toList = t.toList) (ht : P t) :
    P s :=
  String.toList_inj.1 h ▸ ht

namespace C

/-! ## Elements -/

/-- An element of a member of the record at a pointer. An array of several dimensions is walked
through a pointer to its first element. -/
inductive Element.Reads (pointer : String) : Element → String → Prop
  | scalar (member : String) : Reads pointer ⟨member, 0⟩ s!"{pointer}->{member}"
  | vector (member : String) : Reads pointer ⟨member, 1⟩ s!"{pointer}->{member}[i]"
  | grid (member : String) {rank : Nat} {first : String} :
      first = String.join (List.replicate rank "[0]") → 2 ≤ rank →
      Reads pointer ⟨member, rank⟩ s!"(&{pointer}->{member}{first})[i]"

theorem Element.reads (e : Element) (pointer : String) : e.Reads pointer (e.text pointer) := by
  obtain ⟨member, rank⟩ := e
  match rank with
  | 0 => exact .scalar member
  | 1 => exact .vector member
  | rank + 2 =>
    refine eq_of_toList ?_ (.grid member rfl (Nat.le_add_left 2 rank))
    simp [text, toString]

/-! ## Assignments and calls -/

/-- An assignment or call. -/
inductive Simple.Reads : Simple → String → Prop
  | copy (member : String) : Reads (.copy member) s!"outPtr->{member} = inPtr->{member};"
  | move (member : String) :
      Reads (.move member) s!"memmove(outPtr->{member}, inPtr->{member}, sizeof(outPtr->{member}));"
  | word (function : String) {e : Element} {source target : String} :
      e.Reads "inPtr" source → e.Reads "outPtr" target →
      Reads (.word function e) s!"{target} = {function}({source});"
  | object (function : String) {e : Element} {source target : String} :
      e.Reads "inPtr" source → e.Reads "outPtr" target →
      Reads (.object function e) s!"{function}(&({source}), &({target}));"
  | callByte (record : String) {e : Element} {source target : String} :
      e.Reads "inPtr" source → e.Reads "outPtr" target →
      Reads (.call .byte record e) s!"byte_swap_{record}(&({source}), &({target}), direction);"
  | callBit (record : String) {e : Element} {source target : String} :
      e.Reads "inPtr" source → e.Reads "outPtr" target →
      Reads (.call .bit record e) s!"bit_swap_{record}(&({source}), &({target}), direction);"
  | callOwn (record : String) :
      Reads (.callOwn record)
        (s!"bit_swap_{record}(inPtr, outPtr, direction);" ++
          " /* Swap all bit fields in this structure */")
  | mirror (member : String) (bits : Nat) :
      Reads (.mirror member bits) s!"outPtr->{member} = bit_field_swap(inPtr->{member}, {bits});"
  | reflect (pointer : String) (offset size : Nat) :
      Reads (.reflect pointer offset size)
        s!"reflect_bits(&(((char*)({pointer}))[{offset}]), {size});"

namespace Simple

theorem reads (s : Simple) : s.Reads s.text := by
  cases s with
  | copy member => exact .copy member
  | move member => exact .move member
  | word function e =>
    have htext : text (.word function e) =
        e.text "outPtr" ++ s!" = {function}(" ++ e.text "inPtr" ++ ");" := rfl
    refine eq_of_toList ?_ (Reads.word function (e.reads _) (e.reads _))
    simp [htext, toString]
  | object function e =>
    have htext : text (.object function e) =
        s!"{function}(" ++ e.address "inPtr" ++ ", " ++ e.address "outPtr" ++ ");" := rfl
    refine eq_of_toList ?_ (Reads.object function (e.reads _) (e.reads _))
    simp [htext, toString, Element.address]
  | call kind record e =>
    have htext : text (.call kind record e) = kind.functionName record ++ "(" ++
        e.address "inPtr" ++ ", " ++ e.address "outPtr" ++ ", direction);" := rfl
    cases kind with
    | byte =>
      refine eq_of_toList ?_ (Reads.callByte record (e.reads _) (e.reads _))
      simp [htext, toString, Element.address, SwapKind.functionName, SwapKind.stem]
    | bit =>
      refine eq_of_toList ?_ (Reads.callBit record (e.reads _) (e.reads _))
      simp [htext, toString, Element.address, SwapKind.functionName, SwapKind.stem]
  | callOwn record =>
    have htext : text (.callOwn record) = SwapKind.bit.functionName record ++
        "(inPtr, outPtr, direction); /* Swap all bit fields in this structure */" := rfl
    refine eq_of_toList ?_ (Reads.callOwn record)
    simp [htext, toString, SwapKind.functionName, SwapKind.stem]
  | mirror member bits => exact .mirror member bits
  | reflect pointer offset size => exact .reflect pointer offset size

theorem Reads.ne {s : Simple} {text : String} (h : s.Reads text) : text ≠ "int i = 0;" := by
  cases h with
  | copy member =>
    have htext : s!"outPtr->{member} = inPtr->{member};" =
        "outPtr->" ++ s!"{member} = inPtr->{member};" := by
      simp [toString, String.append_assoc]
    rw [htext]
    exact append_ne_of_not_prefix (by decide +kernel)
  | _ => exact append_ne_of_not_suffix (by decide +kernel)

end Simple

/-! ## Statements -/

/-- A statement, in a loop or under a condition as the case may be. -/
inductive Statement.Reads : Statement → String → Prop
  | plain {s : Simple} {text : String} : s.Reads text → Reads (.plain s) s!"   {text}\n"
  | loop (count : Nat) {s : Simple} {text : String} : s.Reads text →
      Reads (.loop count s)
        s!"   for (i = 0; i < {count}; i++)\n   \x7b\n      {text}\n   \x7d\n"
  | input {s : Simple} {text : String} : s.Reads text →
      Reads (.guarded .foreignToLocal s)
        s!"   if (direction)\n   \x7b\n      {text}\n   \x7d\n"
  | output {s : Simple} {text : String} : s.Reads text →
      Reads (.guarded .localToForeign s)
        s!"   if (!direction)\n   \x7b\n      {text}\n   \x7d\n"

namespace Statement

theorem reads (s : Statement) : s.Reads s.text := by
  cases s with
  | plain s => exact .plain s.reads
  | loop count s =>
    refine eq_of_toList ?_ (Reads.loop count s.reads)
    simp [text, toString, block, indented]
  | guarded direction s =>
    cases direction with
    | foreignToLocal =>
      refine eq_of_toList ?_ (Reads.input s.reads)
      simp [text, toString, block, indented, condition]
    | localToForeign =>
      refine eq_of_toList ?_ (Reads.output s.reads)
      simp [text, toString, block, indented, condition]

/-- No statement reads like the declaration of the counter. -/
theorem Reads.ne {s : Statement} {text : String} (h : s.Reads text) :
    text ≠ "   int i = 0;\n" := by
  cases h with
  | @plain s text h =>
    intro htext
    have htext : "   " ++ text ++ "\n" = "   " ++ "int i = 0;" ++ "\n" := htext
    rw [String.append_left_inj, String.append_right_inj] at htext
    exact h.ne htext
  | _ => exact append_ne_of_not_suffix (by decide +kernel)

/-- The assignment or call that a statement makes. -/
def simple : Statement → Simple
  | plain s | loop _ s | guarded _ s => s

def isLoop : Statement → Bool
  | loop _ _ => true
  | _ => false

/-- Whether a statement calls the bit swap function of its own record. -/
def callsOwn (s : Statement) : Bool :=
  match s.simple with
  | .callOwn _ => true
  | _ => false

end Statement

/-! ## Bodies -/

/-- The lines of a body. If there is a loop, the counter is declared just before the first one. -/
inductive Lines : List Statement → List String → Prop
  | unlooped {body : List Statement} {lines : List String} : (∀ s ∈ body, s.isLoop = false) →
      List.Forall₂ Statement.Reads body lines → Lines body lines
  | looped {before after : List Statement} {first : Statement} {lines rest : List String}
      {loop : String} : (∀ s ∈ before, s.isLoop = false) → first.isLoop = true →
      List.Forall₂ Statement.Reads before lines → first.Reads loop →
      List.Forall₂ Statement.Reads after rest →
      Lines (before ++ first :: after) (lines ++ "   int i = 0;\n" :: loop :: rest)

namespace Lines

variable {body : List Statement} {lines : List String}

theorem plain (h : Lines body lines) {s : Statement} (hs : s.isLoop = false) :
    Lines (s :: body) (s.text :: lines) := by
  cases h with
  | unlooped hbody hreads =>
    exact .unlooped (List.forall_mem_cons.2 ⟨hs, hbody⟩) (.cons s.reads hreads)
  | looped hbefore hfirst hreads hloop hrest =>
    exact .looped (List.forall_mem_cons.2 ⟨hs, hbefore⟩) hfirst (.cons s.reads hreads) hloop hrest

theorem not_mem {body : List Statement} {lines : List String}
    (h : List.Forall₂ Statement.Reads body lines) : "   int i = 0;\n" ∉ lines := by
  intro hm
  obtain ⟨s, -, hs⟩ := exists_of_forall₂ h hm
  exact hs.ne rfl

/-- The counter is declared once if there is a loop, and never otherwise. -/
theorem count (h : Lines body lines) :
    lines.count "   int i = 0;\n" = if body.any Statement.isLoop then 1 else 0 := by
  cases h with
  | unlooped hbody hreads =>
    have hany : body.any Statement.isLoop = false := by simpa using hbody
    rw [hany, List.count_eq_zero.2 (not_mem hreads)]
    rfl
  | @looped before after first lines rest loop hbefore hfirst hreads hloop hrest =>
    have hafter := not_mem (List.Forall₂.cons hloop hrest)
    have hany : (before ++ first :: after).any Statement.isLoop = true := by simp [hfirst]
    rw [hany, List.count_append, List.count_eq_zero.2 (not_mem hreads), List.count_cons_self,
      List.count_eq_zero.2 hafter]
    rfl

end Lines

theorem forall₂_reads (body : List Statement) :
    List.Forall₂ Statement.Reads body (body.map Statement.text) := by
  rw [List.forall₂_map_right_iff]
  exact List.forall₂_same.2 fun s _ => s.reads

theorem bodyText_true (body : List Statement) :
    bodyText true body = String.join (body.map Statement.text) := by
  induction body with
  | nil => rfl
  | cons s rest ih => cases s <;> simp [bodyText, ih]

/-- The text of a body are its lines. -/
theorem exists_lines (body : List Statement) :
    ∃ lines, Lines body lines ∧ bodyText false body = String.join lines := by
  induction body with
  | nil => exact ⟨[], .unlooped (fun s hs => nomatch hs) .nil, rfl⟩
  | cons s rest ih =>
    obtain ⟨lines, hlines, htext⟩ := ih
    cases s with
    | loop count s =>
      have hfirst : Lines ([] ++ .loop count s :: rest) ([] ++ "   int i = 0;\n" ::
          Statement.text (.loop count s) :: rest.map Statement.text) :=
        .looped (fun s hs => nomatch hs) rfl .nil (Statement.reads _) (forall₂_reads rest)
      exact ⟨_, hfirst, by simp [bodyText, bodyText_true, counterLine, String.append_assoc]⟩
    | plain s => exact ⟨_, hlines.plain rfl, by simp [bodyText, htext]⟩
    | guarded direction s => exact ⟨_, hlines.plain rfl, by simp [bodyText, htext]⟩

/-! ## Functions -/

/-- The comment before a swap function. The two functions spell it differently. -/
inductive SwapKind.Comment : SwapKind → String → Prop
  | byte : Comment .byte
      ("/* inPtr and outPtr are pointers to the input and output data. 'direction' is a " ++
        "flag for if the conversion " ++ "\n" ++
        ("   is from foreign to local endian (direction = 1), or from native to foreign " ++
          "byte order (direction = 0) */" ++ "\n"))
  | bit : Comment .bit
      ("/* inPtr and outPtr are pointers to the input and output data. 'direction' is a " ++
        "flag for if the conversion " ++ "\n" ++
        ("   is from foreign-to-local endian (direction = 1), or from native to foreign " ++
          "byte order (direction = 0) */" ++ "\n"))

inductive SwapKind.Signature (record : String) : SwapKind → String → Prop
  | byte : Signature record .byte
      s!"byte_swap_{record}({record} *inPtr, {record} *outPtr, int direction)"
  | bit : Signature record .bit
      s!"bit_swap_{record}({record} *inPtr, {record} *outPtr, int direction)"

/-- A swap function of the record of a name. -/
structure SwapFunction where
  kind : SwapKind
  record : String
  body : List Statement
  deriving DecidableEq, Repr

/-- A swap function, after a blank line and its comment. -/
inductive SwapFunction.Reads (f : SwapFunction) : String → Prop
  | intro {comment signature : String} {lines : List String} : f.kind.Comment comment →
      f.kind.Signature f.record signature → Lines f.body lines →
      Reads f ("\n" ++ comment ++ s!"inline void {signature}\n\x7b\n" ++ String.join lines ++
        s!"\x7d /* End of {signature} */\n")

theorem linesText_pair (first second : String) :
    linesText [first, second] = first ++ "\n" ++ (second ++ "\n") := by
  simp [linesText, String.append_assoc]

namespace SwapKind

theorem byteSwapComment_reads : Comment .byte byteSwapComment := by
  rw [byteSwapComment, linesText_pair]
  exact .byte

theorem bitSwapComment_reads : Comment .bit bitSwapComment := by
  rw [bitSwapComment, linesText_pair]
  exact .bit

theorem signature_reads (kind : SwapKind) (record : String) :
    kind.Signature record (kind.signature record) := by
  cases kind with
  | byte =>
    refine eq_of_toList ?_ Signature.byte
    simp [signature, functionName, stem, toString]
  | bit =>
    refine eq_of_toList ?_ Signature.bit
    simp [signature, functionName, stem, toString]

end SwapKind

/-- What is printed for a swap function reads like one. -/
theorem SwapFunction.functionText_reads (f : SwapFunction) {comment : String}
    (hcomment : f.kind.Comment comment) :
    f.Reads (functionText comment f.kind f.record f.body) := by
  obtain ⟨lines, hlines, htext⟩ := exists_lines f.body
  refine eq_of_toList ?_ (.intro hcomment (f.kind.signature_reads f.record) hlines)
  simp [functionText, htext, toString]

end C

end RecordSwap
