import Mathlib.Data.List.Induction
import RecordSwap.Proofs.Cycles
import RecordSwap.Proofs.Validation

/-!
# The texts of array sizes

An array size that is given as a text is read as a list of numbers with commas between them, in any
notation that leaves no doubt about them.

* `Text.CutAt`, `Text.Trimmed`, `Text.Decimal`: texts cut at a character, texts without their outer
  blanks, and digits. Each of them says what a function of the reader computes (`cutAt_iff`,
  `trimmed_iff`, `decimal_iff`).
* `ArraySize.Pieces`, `ArraySize.Spells`: the pieces of a text and the number that a piece spells.
* `ArraySize.Listing`: numbers written one after the other, with blanks and empty parts.
* `ArraySize.extents_exact`: the statement about texts.
-/

namespace RecordSwap

namespace Text

/-! ## Cutting -/

/-- A text cut into parts at every `c`. -/
structure CutAt (c : Char) (cs : List Char) (parts : List (List Char)) : Prop where
  nonempty : parts ≠ []
  joined : [c].intercalate parts = cs
  free : ∀ part ∈ parts, c ∉ part

theorem not_mem_splitOn (c : Char) (cs : List Char) : ∀ part ∈ cs.splitOn c, c ∉ part := by
  induction cs with
  | nil => simp
  | cons d cs ih =>
    rw [List.splitOn_cons_eq_if_modifyHead]
    split
    · exact List.forall_mem_cons.2 ⟨List.not_mem_nil, ih⟩
    · next hd =>
      cases hparts : cs.splitOn c with
      | nil => simp
      | cons part parts =>
        rw [hparts] at ih
        obtain ⟨hpart, hparts⟩ := List.forall_mem_cons.1 ih
        refine List.forall_mem_cons.2 ⟨fun hm => ?_, hparts⟩
        rcases List.mem_cons.1 hm with rfl | hm
        · exact hd (beq_self_eq_true c)
        · exact hpart hm

theorem cutAt_iff {c : Char} {cs : List Char} {parts : List (List Char)} :
    CutAt c cs parts ↔ cs.splitOn c = parts := by
  constructor
  · rintro ⟨hne, rfl, hfree⟩
    exact List.splitOn_intercalate c hfree hne
  · rintro rfl
    exact ⟨List.splitOn_ne_nil c cs, List.intercalate_splitOn c, not_mem_splitOn c cs⟩

/-! ## Trimming -/

/-- A text without the blanks at its ends. -/
def Trimmed (cs core : List Char) : Prop :=
  ∃ before after, cs = before ++ core ++ after ∧ (∀ c ∈ before, isBlank c = true) ∧
    (∀ c ∈ after, isBlank c = true) ∧ (∀ c ∈ core.head?, isBlank c = false) ∧
    ∀ c ∈ core.getLast?, isBlank c = false

theorem trimStartChars_append {before cs : List Char} (hb : ∀ c ∈ before, isBlank c = true)
    (hc : ∀ c ∈ cs.head?, isBlank c = false) : trimStartChars (before ++ cs) = cs := by
  rw [trimStartChars, List.dropWhile_append_of_pos hb]
  cases cs with
  | nil => rfl
  | cons c cs => exact List.dropWhile_cons_of_neg (by simp [hc c rfl])

theorem trimEndChars_append {cs after : List Char} (ha : ∀ c ∈ after, isBlank c = true)
    (hc : ∀ c ∈ cs.getLast?, isBlank c = false) : trimEndChars (cs ++ after) = cs := by
  rw [← List.head?_reverse] at hc
  have h := trimStartChars_append (fun c hm => ha c (List.mem_reverse.1 hm)) hc
  rw [trimEndChars, List.reverse_append]
  exact (congrArg List.reverse h).trans cs.reverse_reverse

theorem exists_trimStartChars (cs : List Char) : ∃ before, cs = before ++ trimStartChars cs ∧
    (∀ c ∈ before, isBlank c = true) ∧ ∀ c ∈ (trimStartChars cs).head?, isBlank c = false := by
  refine ⟨cs.takeWhile isBlank, List.takeWhile_append_dropWhile.symm,
    fun c hc => List.mem_takeWhile_imp hc, fun c hc => ?_⟩
  have h := List.head?_dropWhile_not isBlank cs
  rw [Option.mem_def, trimStartChars] at hc
  rwa [hc] at h

theorem exists_trimEndChars (cs : List Char) : ∃ after, cs = trimEndChars cs ++ after ∧
    (∀ c ∈ after, isBlank c = true) ∧ ∀ c ∈ (trimEndChars cs).getLast?, isBlank c = false := by
  obtain ⟨before, hcs, hbefore, hhead⟩ := exists_trimStartChars cs.reverse
  refine ⟨before.reverse, ?_, fun c hc => hbefore c (List.mem_reverse.1 hc), fun c hc => ?_⟩
  · calc cs = (before ++ trimStartChars cs.reverse).reverse := by rw [← hcs, List.reverse_reverse]
      _ = trimEndChars cs ++ before.reverse := List.reverse_append
  · rw [trimEndChars, List.getLast?_reverse] at hc
    exact hhead c hc

theorem trimmed_iff {cs core : List Char} : Trimmed cs core ↔ trimChars cs = core := by
  constructor
  · rintro ⟨before, after, rfl, hbefore, hafter, hhead, hlast⟩
    cases core with
    | nil =>
      refine trimChars_eq_nil_iff.2 fun c hc => ?_
      rw [List.append_nil] at hc
      exact (List.mem_append.1 hc).elim (hbefore c) (hafter c)
    | cons c core =>
      rw [trimChars, List.append_assoc, trimStartChars_append hbefore (by simpa using hhead),
        trimEndChars_append hafter hlast]
  · rintro rfl
    obtain ⟨before, hcs, hbefore, hhead⟩ := exists_trimStartChars cs
    obtain ⟨after, hrest, hafter, hlast⟩ := exists_trimEndChars (trimStartChars cs)
    refine ⟨before, after, ?_, hbefore, hafter, fun c hc => hhead c ?_, hlast⟩
    · rw [List.append_assoc, trimChars, ← hrest, ← hcs]
    · rw [hrest]
      exact List.mem_head?_append_of_mem_head? hc

/-! ## Digits -/

/-- Digits of a number, with any number of zeros in front. -/
inductive Decimal : List Char → Nat → Prop
  | digit {d : Nat} : d < 10 → Decimal [d.digitChar] d
  | snoc {cs : List Char} {n d : Nat} : Decimal cs n → d < 10 →
      Decimal (cs ++ [d.digitChar]) (10 * n + d)

theorem exists_digitChar {c : Char} (h : c.isDigit = true) : ∃ d < 10, c = d.digitChar := by
  obtain ⟨hlow, hhigh⟩ : 48 ≤ c.toNat ∧ c.toNat ≤ 57 := Char.isDigit_iff_toNat.1 h
  refine ⟨c.toNat - 48, by omega, Char.toNat_inj.1 ?_⟩
  rw [Nat.toNat_digitChar_of_lt_ten (by omega)]
  omega

theorem decimal_iff {cs : List Char} {n : Nat} : Decimal cs n ↔
    cs ≠ [] ∧ (∀ c ∈ cs, c.isDigit = true) ∧ Nat.ofDigitChars 10 cs 0 = n := by
  constructor
  · intro h
    induction h with
    | digit hd =>
      refine ⟨by simp, by simpa [Nat.isDigit_digitChar] using hd, ?_⟩
      rw [Nat.ofDigitChars_cons_digitChar_of_lt_ten hd, Nat.ofDigitChars_nil, Nat.mul_zero,
        Nat.zero_add]
    | snoc _ hd ih =>
      obtain ⟨-, hdigits, hn⟩ := ih
      refine ⟨by simp, fun c hc => ?_, ?_⟩
      · rcases List.mem_append.1 hc with hc | hc
        · exact hdigits c hc
        · rw [List.mem_singleton.1 hc, Nat.isDigit_digitChar, decide_eq_true hd]
      · rw [Nat.ofDigitChars_append, hn, Nat.ofDigitChars_cons_digitChar_of_lt_ten hd,
          Nat.ofDigitChars_nil]
  · rintro ⟨hne, hdigits, rfl⟩
    induction cs using List.reverseRecOn with
    | nil => exact absurd rfl hne
    | append_singleton cs c ih =>
      obtain ⟨d, hd, rfl⟩ := exists_digitChar (hdigits c (by simp))
      rw [Nat.ofDigitChars_append, Nat.ofDigitChars_cons_digitChar_of_lt_ten hd,
        Nat.ofDigitChars_nil]
      by_cases hcs : cs = []
      · subst hcs
        simpa using Decimal.digit hd
      · exact .snoc (ih hcs fun c hc => hdigits c (by simp [hc])) hd

end Text

namespace ArraySize

open Text

/-! ## Pieces and numbers -/

/-- What stands between the commas of a text, without white space around it, as far as anything
does. -/
def Pieces (s : String) (ps : List (List Char)) : Prop :=
  ∃ parts trimmed, CutAt ',' s.toList parts ∧ List.Forall₂ Trimmed parts trimmed ∧
    ps = trimmed.filter (· ≠ [])

/-- Digits of a number of 64 bits, with or without a plus sign before them. -/
def Spells (piece : List Char) (n : Nat) : Prop :=
  ∃ digits, (piece = digits ∨ piece = '+' :: digits) ∧ Decimal digits n ∧ n < sizeLimit

theorem pieces_iff {s : String} {ps : List (List Char)} : Pieces s ps ↔ ps = pieces s := by
  constructor
  · rintro ⟨parts, trimmed, hparts, htrimmed, rfl⟩
    have hmap : parts.map trimChars = trimmed.map id :=
      map_eq_map_of_forall₂ (htrimmed.imp fun _ _ => trimmed_iff.1)
    rw [pieces, cutAt_iff.1 hparts, hmap, List.map_id]
  · rintro rfl
    refine ⟨_, _, cutAt_iff.2 rfl, ?_, rfl⟩
    rw [List.forall₂_map_right_iff]
    exact List.forall₂_same.2 fun _ _ => trimmed_iff.2 rfl

theorem extent?_eq_some {piece : List Char} {n : Nat} :
    extent? piece = some n ↔ Spells piece n := by
  have hread : extent? piece = some n ↔ Decimal (unsigned piece) n ∧ n < sizeLimit := by
    unfold extent?
    rw [Option.ite_none_right_eq_some, decimal_iff, List.all_eq_true]
    constructor
    · rintro ⟨⟨hne, hdigits, hlt⟩, hn⟩
      cases hn
      exact ⟨⟨hne, hdigits, rfl⟩, hlt⟩
    · rintro ⟨⟨hne, hdigits, rfl⟩, hlt⟩
      exact ⟨⟨hne, hdigits, hlt⟩, rfl⟩
  rw [hread]
  constructor
  · rintro ⟨hdigits, hlt⟩
    refine ⟨unsigned piece, ?_, hdigits, hlt⟩
    unfold unsigned
    split <;> simp
  · rintro ⟨digits, rfl | rfl, hdigits, hlt⟩
    · refine ⟨?_, hlt⟩
      unfold unsigned
      split
      · -- a plus sign is not a digit
        have hplus := (decimal_iff.1 hdigits).2.1 '+' (by simp)
        cases hplus
      · exact hdigits
    · exact ⟨hdigits, hlt⟩

/-- What a piece of a text is read as. -/
def readPiece (s : String) (piece : List Char) : Except Violation Nat :=
  match extent? piece with
  | some n => pure n
  | none => throw (.badExtent (String.ofList piece) s)

theorem extents_text (s : String) : (text s).extents = (pieces s).mapM (readPiece s) := rfl

theorem readPiece_eq_ok {s : String} {piece : List Char} {n : Nat} :
    readPiece s piece = .ok n ↔ Spells piece n := by
  rw [← extent?_eq_some, readPiece]
  cases extent? piece <;> simp [throw, throwThe, MonadExceptOf.throw, pure, Except.pure]

theorem readPiece_eq_error {s : String} {piece : List Char} {v : Violation} :
    readPiece s piece = .error v ↔
      (¬ ∃ n, Spells piece n) ∧ v = .badExtent (String.ofList piece) s := by
  simp only [← extent?_eq_some]
  rw [readPiece]
  cases extent? piece <;>
    simp [throw, throwThe, MonadExceptOf.throw, pure, Except.pure, eq_comm]

/-! ## Lists of numbers -/

/-- Parts that show numbers in decimal notation, one each and with blanks around it, and parts that
show none. -/
inductive Listing : List String → List Nat → Prop
  | nil : Listing [] []
  | empty {parts : List String} {ns : List Nat} (blank : String) :
      isBlankText blank = true → Listing parts ns → Listing (blank :: parts) ns
  | number {parts : List String} {ns : List Nat} (before after : String) (n : Nat) :
      isBlankText before = true → isBlankText after = true → Listing parts ns →
      Listing ((before ++ toString n ++ after) :: parts) (n :: ns)

theorem isDigit_of_mem_toString {n : Nat} {c : Char} (h : c ∈ (toString n).toList) :
    c.isDigit = true := by
  rw [Nat.toString_eq_repr, Nat.toList_repr] at h
  exact Nat.isDigit_of_mem_toDigits (by decide) (by decide) h

theorem spells_toString {n : Nat} (h : n < sizeLimit) : Spells (toString n).toList n := by
  refine ⟨_, .inl rfl, decimal_iff.2 ⟨?_, fun c => isDigit_of_mem_toString, ?_⟩, h⟩
  · rw [Nat.toString_eq_repr, Nat.toList_repr]
    exact Nat.toDigits_ne_nil
  · rw [Nat.toString_eq_repr, Nat.toList_repr, Nat.ofDigitChars_ten_toDigits]

theorem isBlank_of_isDigit {c : Char} (h : c.isDigit = true) : isBlank c = false := by
  obtain ⟨d, hd, rfl⟩ := exists_digitChar h
  clear h
  decide +revert

theorem trimChars_number {before after : String} (n : Nat) (hb : isBlankText before = true)
    (ha : isBlankText after = true) :
    trimChars (before ++ toString n ++ after).toList = (toString n).toList := by
  rw [← trimmed_iff]
  refine ⟨before.toList, after.toList, by simp, List.all_eq_true.1 hb, List.all_eq_true.1 ha,
    fun c hc => ?_, fun c hc => ?_⟩
  · exact isBlank_of_isDigit (isDigit_of_mem_toString (List.mem_of_mem_head? hc))
  · exact isBlank_of_isDigit (isDigit_of_mem_toString (List.mem_of_mem_getLast? hc))

namespace Listing

variable {parts : List String} {ns : List Nat}

theorem comma_free (h : Listing parts ns) : ∀ part ∈ parts.map String.toList, ',' ∉ part := by
  have hblank {s : String} (hs : isBlankText s = true) : ',' ∉ s.toList := fun hm => by
    cases List.all_eq_true.1 hs _ hm
  induction h with
  | nil => simp
  | empty blank hb _ ih => exact List.forall_mem_cons.2 ⟨hblank hb, ih⟩
  | number before after n hb ha _ ih =>
    refine List.forall_mem_cons.2 ⟨fun hm => ?_, ih⟩
    rw [String.toList_append, String.toList_append, List.mem_append, List.mem_append] at hm
    rcases hm with (hm | hm) | hm
    · exact hblank hb hm
    · cases isDigit_of_mem_toString hm
    · exact hblank ha hm

theorem trimmed (h : Listing parts ns) :
    ((parts.map String.toList).map trimChars).filter (· ≠ []) =
      ns.map fun n => (toString n).toList := by
  induction h with
  | nil => rfl
  | empty blank hb _ ih =>
    have hnil : trimChars blank.toList = [] := trimChars_eq_nil_iff.2 (List.all_eq_true.1 hb)
    rw [List.map_cons, List.map_cons, hnil, List.filter_cons_of_neg (by simp), ih]
  | number before after n hb ha _ ih =>
    rw [List.map_cons, List.map_cons, trimChars_number n hb ha,
      List.filter_cons_of_pos (by simp), ih, List.map_cons]

/-- The pieces of a listing are its numbers. -/
theorem pieces_eq (h : Listing parts ns) :
    pieces (",".intercalate parts) = ns.map fun n => (toString n).toList := by
  unfold pieces
  rw [← h.trimmed, String.toList_intercalate]
  by_cases hparts : parts = []
  · subst hparts
    rfl
  · congr 2
    exact List.splitOn_intercalate ',' h.comma_free (by simp [hparts])

theorem extents_eq (h : Listing parts ns) (hns : ∀ n ∈ ns, n < sizeLimit) :
    (text (",".intercalate parts)).extents = .ok ns := by
  rw [extents_text, h.pieces_eq, mapM_eq_ok_iff, List.forall₂_map_left_iff]
  exact List.forall₂_same.2 fun n hn => readPiece_eq_ok.2 (spells_toString (hns n hn))

end Listing

/-- **The text of an array size is read exactly.** If all its pieces spell numbers, these are the
extents. Otherwise the first piece that does not is reported, together with the whole text. So
numbers with commas between them are read as they would be from a list. -/
theorem extents_exact :
    (∀ s, ∃ ps, (∀ ps', Pieces s ps' ↔ ps' = ps) ∧
      (∀ ns, (text s).extents = .ok ns ↔ List.Forall₂ Spells ps ns) ∧
      ∀ v, (text s).extents = .error v ↔ ∃ good bad rest, ps = good ++ bad :: rest ∧
        (∀ piece ∈ good, ∃ n, Spells piece n) ∧ (¬ ∃ n, Spells bad n) ∧
        v = .badExtent (String.ofList bad) s) ∧
      ∀ {parts ns}, Listing parts ns → (∀ n ∈ ns, n < sizeLimit) →
        (text (",".intercalate parts)).extents = (list ns).extents := by
  refine ⟨fun s => ⟨pieces s, fun ps' => pieces_iff, fun ns => ?_, fun v => ?_⟩,
    fun hlisting hns => hlisting.extents_eq hns⟩
  · rw [extents_text, mapM_eq_ok_iff]
    simp only [readPiece_eq_ok]
  · rw [extents_text, mapM_eq_error_iff]
    simp only [readPiece_eq_ok, readPiece_eq_error]

/-- A text with signs, zeros in front and an empty piece, one with two pieces that spell nothing,
and a listing with the greatest number. -/
theorem extents_exact_sample :
    (∃ ps, Pieces "+2,, 007\t" ps ∧ List.Forall₂ Spells ps [2, 7]) ∧
      (∃ good bad rest, Pieces "3, ++4, x" (good ++ bad :: rest) ∧ String.ofList bad = "++4" ∧
        (∀ piece ∈ good, ∃ n, Spells piece n) ∧ ¬ ∃ n, Spells bad n) ∧
      Listing [" 12", "", "18446744073709551615 "] [12, 18446744073709551615] ∧
      (text " 12,,18446744073709551615 ").extents = .ok [12, 18446744073709551615] := by
  obtain ⟨hread, hlist⟩ := extents_exact
  have hlisting : Listing [" 12", "", "18446744073709551615 "] [12, 18446744073709551615] :=
    .number " " "" 12 rfl rfl (.empty "" rfl (.number "" " " 18446744073709551615 rfl rfl .nil))
  refine ⟨?_, ?_, hlisting, hlist hlisting (by decide)⟩
  · obtain ⟨ps, hpieces, hok, -⟩ := hread "+2,, 007\t"
    exact ⟨ps, (hpieces ps).2 rfl, (hok [2, 7]).1 rfl⟩
  · obtain ⟨ps, hpieces, -, herror⟩ := hread "3, ++4, x"
    obtain ⟨good, bad, rest, rfl, hgood, hbad, hv⟩ := (herror (.badExtent "++4" "3, ++4, x")).1 rfl
    injection hv with hname
    exact ⟨good, bad, rest, (hpieces _).2 rfl, hname.symm, hgood, hbad⟩

end ArraySize

end RecordSwap
