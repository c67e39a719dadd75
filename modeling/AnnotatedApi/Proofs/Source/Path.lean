import AnnotatedApi.Source.Lexer
import AnnotatedApi.Proofs.Text.Blank
import Mathlib.Data.List.Basic

/-! # Paths of names

A path is a sequence of names with pairs of colons between them, as in `crate::models::Task`. No
colon and no blank stands in a name, so the last segment of a path is its last name, and what
follows the first pair of colons is a path that ends with the same name. -/

namespace AnnotatedApi.Source

/-! ## Names -/

/-- The characters of a name: a letter or an underscore, and what names go on with. A raw name has
its mark in front. -/
inductive IsName : List Char → Prop where
  | plain {c : Char} {rest : List Char} (start : startsName c = true)
      (continued : ∀ d ∈ rest, Text.isIdentifierContinue d = true) : IsName (c :: rest)
  | raw {c : Char} {rest : List Char} (start : startsName c = true)
      (continued : ∀ d ∈ rest, Text.isIdentifierContinue d = true) :
      IsName ('r' :: '#' :: c :: rest)

/-- The characters of names with pairs of colons between them. -/
inductive IsPath : List Char → Prop where
  | name {chars : List Char} (h : IsName chars) : IsPath chars
  | cons {name rest : List Char} (hname : IsName name) (hrest : IsPath rest) :
      IsPath (name ++ ':' :: ':' :: rest)

/-! ## Blanks and the tables of letters -/

/-- The codes of all blanks. -/
def blankCodes : List Nat :=
  [9, 10, 11, 12, 13, 0x20, 0x85, 0xA0, 0x1680, 0x2000, 0x2001, 0x2002, 0x2003, 0x2004, 0x2005,
   0x2006, 0x2007, 0x2008, 0x2009, 0x200A, 0x2028, 0x2029, 0x202F, 0x205F, 0x3000]

/-- The code of a blank is in the list. -/
theorem toNat_mem_blankCodes {c : Char} (h : Text.isBlank c = true) : c.toNat ∈ blankCodes := by
  simp only [Text.isBlank, Bool.or_eq_true, Bool.and_eq_true, decide_eq_true_eq, beq_iff_eq] at h
  simp only [blankCodes, List.mem_cons, List.not_mem_nil, or_false]
  omega

/-- No blank is in the table of what names start with. -/
theorem not_mem_identifierStartRuns :
    (Text.identifierStartRuns.any fun run => blankCodes.any run.contains) = false := by
  simp only [Text.identifierStartRuns, Text.readRuns, Text.tableWords, List.flatMap_cons,
    List.flatMap_nil]
  -- the lines of the table are opened first, as this is what evaluation is slow at
  repeat rw [String.toList_ofList]
  decide +kernel

/-- No blank is in the table of what names go on with. -/
theorem not_mem_identifierContinueRuns :
    (Text.identifierContinueRuns.any fun run => blankCodes.any run.contains) = false := by
  simp only [Text.identifierContinueRuns, Text.readRuns, Text.tableWords, List.flatMap_cons,
    List.flatMap_nil]
  repeat rw [String.toList_ofList]
  decide +kernel

/-- The blanks among ASCII characters. -/
def asciiBlanks : List Char :=
  ['\x09', '\x0a', '\x0b', '\x0c', '\x0d', ' ']

/-- A blank among ASCII characters is in the list. -/
theorem mem_asciiBlanks {c : Char} (hlt : c.toNat < 128) (h : Text.isBlank c = true) :
    c ∈ asciiBlanks := by
  have hcode : c.toNat ∈ blankCodes.filter (· < 128) :=
    List.mem_filter.mpr ⟨toNat_mem_blankCodes h, decide_eq_true hlt⟩
  have hchar : Char.ofNat c.toNat ∈ (blankCodes.filter (· < 128)).map Char.ofNat :=
    List.mem_map_of_mem hcode
  rw [Char.ofNat_toNat] at hchar
  exact hchar

/-- A character of a table is no blank when no blank is in the table. -/
theorem isBlank_eq_false_of_table {runs : List Text.LetterRun}
    (hruns : (runs.any fun run => blankCodes.any run.contains) = false) {c : Char}
    (h : (runs.any fun run => run.contains c.toNat) = true) : Text.isBlank c = false := by
  rw [Bool.eq_false_iff]
  intro hblank
  obtain ⟨run, hrun, hcontains⟩ := List.any_eq_true.mp h
  have hany : (runs.any fun run => blankCodes.any run.contains) = true :=
    List.any_eq_true.mpr ⟨run, hrun,
      List.any_eq_true.mpr ⟨c.toNat, toNat_mem_blankCodes hblank, hcontains⟩⟩
  rw [hruns] at hany
  exact Bool.false_ne_true hany

/-- What a name starts with is no blank. -/
theorem isBlank_eq_false_of_startsName {c : Char} (h : startsName c = true) :
    Text.isBlank c = false := by
  by_cases hlt : c.toNat < 128
  · rw [Bool.eq_false_iff]
    intro hblank
    have hnone : asciiBlanks.any startsName = false := rfl
    have hany := List.any_eq_true.mpr ⟨c, mem_asciiBlanks hlt hblank, h⟩
    rw [hnone] at hany
    exact Bool.false_ne_true hany
  · rw [startsName, Bool.or_eq_true, beq_iff_eq] at h
    rcases h with rfl | h
    · rfl
    · rw [Text.isIdentifierStart, if_neg hlt] at h
      exact isBlank_eq_false_of_table not_mem_identifierStartRuns h

/-- What a name goes on with is no blank. -/
theorem isBlank_eq_false_of_isIdentifierContinue {c : Char}
    (h : Text.isIdentifierContinue c = true) : Text.isBlank c = false := by
  by_cases hlt : c.toNat < 128
  · rw [Bool.eq_false_iff]
    intro hblank
    have hnone : asciiBlanks.any Text.isIdentifierContinue = false := rfl
    have hany := List.any_eq_true.mpr ⟨c, mem_asciiBlanks hlt hblank, h⟩
    rw [hnone] at hany
    exact Bool.false_ne_true hany
  · rw [Text.isIdentifierContinue, if_neg hlt] at h
    exact isBlank_eq_false_of_table not_mem_identifierContinueRuns h

/-! ## Characters of names and paths -/

/-- What matters of a text that stands between colons. -/
structure IsSegment (chars : List Char) : Prop where
  /-- There is something. -/
  ne_nil : chars ≠ []
  /-- No colon stands in it. -/
  colonless : ':' ∉ chars
  /-- No blank stands in it. -/
  blankless : ∀ c ∈ chars, Text.isBlank c = false
  /-- It is no pointer into a document. -/
  head_ne : chars.head? ≠ some '#'

/-- A name is a segment. -/
theorem IsName.isSegment {chars : List Char} (h : IsName chars) : IsSegment chars := by
  -- without its mark a raw name is a plain one
  have hplain : ∀ {c : Char} {rest : List Char}, startsName c = true →
      (∀ d ∈ rest, Text.isIdentifierContinue d = true) → IsSegment (c :: rest) := by
    intro c rest hstart hcontinued
    refine ⟨List.cons_ne_nil _ _, ?_, ?_, ?_⟩
    · intro hmem
      rcases List.mem_cons.mp hmem with rfl | hrest
      · exact absurd hstart (by decide)
      · exact absurd (hcontinued _ hrest) (by decide)
    · rw [List.forall_mem_cons]
      exact ⟨isBlank_eq_false_of_startsName hstart,
        fun d hd => isBlank_eq_false_of_isIdentifierContinue (hcontinued d hd)⟩
    · intro hhead
      obtain rfl : c = '#' := Option.some.inj hhead
      exact absurd hstart (by decide)
  cases h with
  | plain hstart hcontinued => exact hplain hstart hcontinued
  | raw hstart hcontinued =>
      obtain ⟨-, hcolonless, hblankless, -⟩ := hplain hstart hcontinued
      refine ⟨List.cons_ne_nil _ _, ?_, ?_, by simp⟩
      · simpa using hcolonless
      · rw [List.forall_mem_cons, List.forall_mem_cons]
        exact ⟨rfl, rfl, hblankless⟩

/-- A path is not empty. -/
theorem IsPath.ne_nil {path : List Char} (h : IsPath path) : path ≠ [] := by
  cases h with
  | name hname => exact hname.isSegment.ne_nil
  | cons hname hrest => exact List.append_ne_nil_of_right_ne_nil _ (List.cons_ne_nil _ _)

/-- No blank stands in a path. -/
theorem IsPath.blankless {path : List Char} (h : IsPath path) :
    ∀ c ∈ path, Text.isBlank c = false := by
  induction h with
  | name hname => exact hname.isSegment.blankless
  | cons hname _ ih =>
      rw [List.forall_mem_append, List.forall_mem_cons, List.forall_mem_cons]
      exact ⟨hname.isSegment.blankless, rfl, rfl, ih⟩

/-- A path is no pointer into a document. -/
theorem IsPath.head_ne {path : List Char} (h : IsPath path) : path.head? ≠ some '#' := by
  cases h with
  | name hname => exact hname.isSegment.head_ne
  | cons hname _ =>
      rw [List.head?_append_of_ne_nil _ hname.isSegment.ne_nil]
      exact hname.isSegment.head_ne

/-- There is nothing to trim at a path. -/
theorem IsPath.isTrimmed {path : List Char} (h : IsPath path) : Text.IsTrimmed path where
  head c hc := h.blankless c (List.mem_of_mem_head? hc)
  last c hc := h.blankless c (List.mem_of_mem_getLast? hc)

/-- What follows the first pair of colons in a path is a path. -/
theorem IsPath.of_append {front rest : List Char} (hfront : ':' ∉ front)
    (h : IsPath (front ++ ':' :: ':' :: rest)) : IsPath rest := by
  generalize hpath : front ++ ':' :: ':' :: rest = path at h
  cases h with
  | name hname =>
      refine absurd ?_ hname.isSegment.colonless
      rw [← hpath]
      simp
  | cons hname hrest =>
      obtain ⟨-, hcut⟩ := Text.eq_of_append_cons hfront hname.isSegment.colonless hpath
      rw [(List.cons.inj hcut).2]
      exact hrest

/-! ## Last segments -/

/-- Reading from the right goes through a segment without looking at what comes before it. -/
theorem lastSegmentFrom_append {chars : List Char} (h : ':' ∉ chars) (segment before : List Char) :
    Text.lastSegmentFrom segment (chars ++ before) =
      Text.lastSegmentFrom (chars.reverse ++ segment) before := by
  induction chars generalizing segment with
  | nil => rfl
  | cons c chars ih =>
      have hne : c ≠ ':' := by
        rintro rfl
        exact h List.mem_cons_self
      rw [List.cons_append, Text.lastSegmentFrom.eq_3 _ _ _ (by simp [hne]),
        ih (List.not_mem_of_not_mem_cons h), List.reverse_cons, List.append_assoc]
      rfl

/-- A segment is the last one of itself. -/
theorem lastSegmentFrom_segment {chars : List Char} (h : ':' ∉ chars) :
    Text.lastSegmentFrom [] chars.reverse = chars := by
  have hread := lastSegmentFrom_append (by simpa using h : ':' ∉ chars.reverse) [] []
  rw [List.append_nil, List.append_nil, List.reverse_reverse] at hread
  rw [hread, Text.lastSegmentFrom]

/-- A segment after a pair of colons is the last one. -/
theorem lastSegmentFrom_of_colons {chars : List Char} (h : ':' ∉ chars) (front : List Char) :
    Text.lastSegmentFrom [] (front ++ ':' :: ':' :: chars).reverse = chars := by
  have hread := lastSegmentFrom_append (by simpa using h : ':' ∉ chars.reverse) []
    (':' :: ':' :: front.reverse)
  rw [List.append_nil, List.reverse_reverse, Text.lastSegmentFrom] at hread
  have hreverse : (front ++ ':' :: ':' :: chars).reverse =
      chars.reverse ++ ':' :: ':' :: front.reverse := by
    simp
  rw [hreverse, hread]

/-- A path is a name or ends with one, after a pair of colons. -/
theorem IsPath.exists_last {path : List Char} (h : IsPath path) :
    ∃ last, IsName last ∧ (path = last ∨ ∃ front, path = front ++ ':' :: ':' :: last) := by
  induction h with
  | name hname => exact ⟨_, hname, .inl rfl⟩
  | @cons first rest hfirst hrest ih =>
      obtain ⟨last, hlast, rfl | ⟨front, rfl⟩⟩ := ih
      · exact ⟨rest, hlast, .inr ⟨first, rfl⟩⟩
      · exact ⟨last, hlast, .inr ⟨first ++ ':' :: ':' :: front, by simp⟩⟩

/-- The last segment of a path is a name. -/
theorem IsPath.isName_lastSegment {path : String} (h : IsPath path.toList) :
    IsName (Text.lastSegment path).toList := by
  rw [Text.lastSegment, String.toList_ofList]
  obtain ⟨name, hname, hpath | ⟨front, hpath⟩⟩ := h.exists_last
  · rw [hpath, lastSegmentFrom_segment hname.isSegment.colonless]
    exact hname
  · rw [hpath, lastSegmentFrom_of_colons hname.isSegment.colonless]
    exact hname

/-- A name is the last segment of itself. -/
theorem IsName.lastSegment_eq {name : String} (h : IsName name.toList) :
    Text.lastSegment name = name := by
  rw [Text.lastSegment, lastSegmentFrom_segment h.isSegment.colonless, String.ofList_toList]

/-- What comes before a path and a pair of colons does not change the last segment. -/
theorem IsPath.lastSegmentFrom_append {rest : List Char} (h : IsPath rest) (front : List Char) :
    Text.lastSegmentFrom [] (front ++ ':' :: ':' :: rest).reverse =
      Text.lastSegmentFrom [] rest.reverse := by
  obtain ⟨name, hname, rfl | ⟨before, rfl⟩⟩ := h.exists_last
  · rw [lastSegmentFrom_of_colons hname.isSegment.colonless,
      lastSegmentFrom_segment hname.isSegment.colonless]
  · have hassoc : front ++ ':' :: ':' :: (before ++ ':' :: ':' :: name) =
        (front ++ ':' :: ':' :: before) ++ ':' :: ':' :: name := by
      simp
    rw [hassoc, lastSegmentFrom_of_colons hname.isSegment.colonless,
      lastSegmentFrom_of_colons hname.isSegment.colonless]

end AnnotatedApi.Source
