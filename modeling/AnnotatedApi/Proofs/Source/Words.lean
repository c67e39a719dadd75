import AnnotatedApi.Proofs.Source.Path

/-! # Reading words and numbers

What the lexer reads where a word, a raw name or a natural number in decimal digits stands before a
character that ends words, such as a blank, a comma or a parenthesis. -/

namespace AnnotatedApi.Source

/-! ## Words and what may follow them -/

/-- Whether a text is a word: an identifier or a keyword. -/
def isWord (text : String) : Bool :=
  match text.toList with
  | [] => false
  | c :: rest => startsName c && rest.all Text.isIdentifierContinue

/-- Whether a character ends words and literals and belongs to none. -/
def isBreak (c : Char) : Bool :=
  isSourceBlank c || [',', '=', ':', '(', ')', '[', ']'].contains c

/-- The text ends here or goes on with a character that ends words and literals. -/
def Stops (chars : List Char) : Prop :=
  ∀ c ∈ chars.head?, isBreak c = true

theorem stops_cons {c : Char} (h : isBreak c = true) (rest : List Char) : Stops (c :: rest) := by
  intro d hd
  obtain rfl := Option.some.inj hd
  exact h

/-- What is taken from the front is what satisfies the condition, when the next character does
not. -/
theorem span_append {p : α → Bool} {front rest : List α} (hfront : ∀ a ∈ front, p a = true)
    (hrest : ∀ a ∈ rest.head?, p a = false) :
    (front ++ rest).takeWhile p = front ∧ (front ++ rest).dropWhile p = rest := by
  rw [List.takeWhile_append_of_pos hfront, List.dropWhile_append_of_pos hfront]
  cases rest with
  | nil => simp
  | cons a rest =>
      have ha : p a = false := hrest a rfl
      simp [ha]

/-! ## Characters -/

/-- The codes of the marks that are neither blanks nor parts of names. -/
def markCodes : List Nat :=
  [0x200E, 0x200F, 0xFEFF]

/-- No mark is in the table of what names start with. -/
theorem marks_not_mem_identifierStartRuns :
    (Text.identifierStartRuns.any fun run => markCodes.any run.contains) = false := by
  simp only [Text.identifierStartRuns, Text.readRuns, Text.tableWords, List.flatMap_cons,
    List.flatMap_nil]
  repeat rw [String.toList_ofList]
  decide +kernel

/-- No mark is in the table of what names go on with. -/
theorem marks_not_mem_identifierContinueRuns :
    (Text.identifierContinueRuns.any fun run => markCodes.any run.contains) = false := by
  simp only [Text.identifierContinueRuns, Text.readRuns, Text.tableWords, List.flatMap_cons,
    List.flatMap_nil]
  repeat rw [String.toList_ofList]
  decide +kernel

/-- A table without marks does not have the code of a mark. -/
theorem any_contains_eq_false_of_mark {runs : List Text.LetterRun}
    (hruns : (runs.any fun run => markCodes.any run.contains) = false) {code : Nat}
    (h : code ∈ markCodes) : (runs.any fun run => run.contains code) = false := by
  rw [List.any_eq_false] at hruns ⊢
  intro run hrun hcontains
  exact hruns run hrun (List.any_eq_true.mpr ⟨code, h, hcontains⟩)

/-- No name starts or goes on with a mark. -/
theorem not_name_of_mark {c : Char} (h : c.toNat ∈ markCodes) :
    startsName c = false ∧ Text.isIdentifierContinue c = false := by
  have hlarge : ¬ c.toNat < 128 := by
    simp only [markCodes, List.mem_cons, List.not_mem_nil, or_false] at h
    omega
  have hunderscore : (c == '_') = false := by
    rw [beq_eq_false_iff_ne]
    rintro rfl
    exact hlarge (by decide)
  rw [startsName, hunderscore, Bool.false_or, Text.isIdentifierStart, Text.isIdentifierContinue,
    if_neg hlarge, if_neg hlarge]
  exact ⟨any_contains_eq_false_of_mark marks_not_mem_identifierStartRuns h,
    any_contains_eq_false_of_mark marks_not_mem_identifierContinueRuns h⟩

/-- No name starts or goes on with a blank of source text. -/
theorem not_name_of_isSourceBlank {c : Char} (h : isSourceBlank c = true) :
    startsName c = false ∧ Text.isIdentifierContinue c = false := by
  rw [isSourceBlank, Bool.or_assoc, Bool.or_eq_true, Bool.or_eq_true, beq_iff_eq, beq_iff_eq] at h
  rcases h with hblank | hmark
  · constructor
    · rw [Bool.eq_false_iff]
      intro hname
      exact Bool.false_ne_true ((isBlank_eq_false_of_startsName hname).symm.trans hblank)
    · rw [Bool.eq_false_iff]
      intro hname
      exact Bool.false_ne_true ((isBlank_eq_false_of_isIdentifierContinue hname).symm.trans hblank)
  · refine not_name_of_mark ?_
    simp only [markCodes, List.mem_cons]
    tauto

/-- No name starts or goes on with a character that ends words. -/
theorem not_name_of_isBreak {c : Char} (h : isBreak c = true) :
    startsName c = false ∧ Text.isIdentifierContinue c = false := by
  rw [isBreak, Bool.or_eq_true] at h
  rcases h with hblank | hmem
  · exact not_name_of_isSourceBlank hblank
  · have hall : [',', '=', ':', '(', ')', '[', ']'].all
        (fun d => !startsName d && !Text.isIdentifierContinue d) = true := by decide
    simpa using List.all_eq_true.mp hall c (List.contains_iff_mem.mp hmem)

/-- The decimal digits. -/
def decimalDigits : List Char :=
  ['0', '1', '2', '3', '4', '5', '6', '7', '8', '9']

/-- Every decimal digit is in the list. -/
theorem mem_decimalDigits {c : Char} (h : Text.isDigit c = true) : c ∈ decimalDigits := by
  simp only [Text.isDigit, Bool.and_eq_true, decide_eq_true_eq] at h
  have hcode : c.toNat ∈ List.range' 48 10 := by
    rw [List.mem_range'_1]
    exact ⟨h.1, Nat.lt_succ_of_le h.2⟩
  have hchar : Char.ofNat c.toNat ∈ (List.range' 48 10).map Char.ofNat := List.mem_map_of_mem hcode
  rw [Char.ofNat_toNat] at hchar
  exact hchar

/-- The marks that make a quoted literal or a raw name of what they stand in. -/
def quoteMarks : List Char :=
  ['"', '#', apostrophe]

/-- The marks of groups. -/
def delimiterMarks : List Char :=
  ['(', ')', '[', ']', '\x7b', '\x7d']

/-- The characters that start something other than a name. -/
def nameless : List Char :=
  quoteMarks ++ delimiterMarks ++ decimalDigits ++ signs

/-- No name starts with one of these characters. -/
theorem not_mem_nameless {c : Char} (h : startsName c = true) :
    c ∉ quoteMarks ∧ c ∉ delimiterMarks ∧ c ∉ decimalDigits ∧ c ∉ signs := by
  have hnone : nameless.any startsName = false := by decide
  have hmem : c ∉ nameless := fun hmem => List.any_eq_false.mp hnone c hmem h
  simpa [nameless, and_assoc] using hmem

theorem isDigit_eq_false_of_startsName {c : Char} (h : startsName c = true) :
    Text.isDigit c = false := by
  rw [Bool.eq_false_iff]
  exact fun hdigit => (not_mem_nameless h).2.2.1 (mem_decimalDigits hdigit)

/-! ## Reading words -/

/-- The characters of a word. -/
theorem exists_of_isWord {word : String} (h : isWord word = true) :
    ∃ c rest, word.toList = c :: rest ∧ startsName c = true ∧
      ∀ d ∈ rest, Text.isIdentifierContinue d = true := by
  rw [isWord] at h
  split at h
  · exact absurd h Bool.false_ne_true
  · next c rest hchars =>
      rw [Bool.and_eq_true, List.all_eq_true] at h
      exact ⟨c, rest, hchars, h.1, h.2⟩

theorem Stops.head_not_continue {rest : List Char} (h : Stops rest) :
    ∀ c ∈ rest.head?, Text.isIdentifierContinue c = false :=
  fun c hc => (not_name_of_isBreak (h c hc)).2

/-- A word is read up to a character that ends words. -/
theorem readPlainName_append {c : Char} {word rest : List Char} (hstart : startsName c = true)
    (hword : ∀ d ∈ word, Text.isIdentifierContinue d = true) (hrest : Stops rest) :
    readPlainName (c :: word ++ rest) = some (c :: word, rest) := by
  obtain ⟨htake, hdrop⟩ := span_append hword hrest.head_not_continue
  rw [List.cons_append, readPlainName, if_pos hstart, htake, hdrop]

/-- No suffix is read where words end. -/
theorem readSuffix_of_stops {rest : List Char} (h : Stops rest) : readSuffix rest = ("", rest) := by
  cases rest with
  | nil => rfl
  | cons c rest =>
      have hstart : startsName c = false := (not_name_of_isBreak (h c rfl)).1
      simp [readSuffix, readPlainName, hstart]

/-- After what names go on with, there is no mark that would make a quoted literal or a raw name of
the characters. -/
def Quoteless (chars : List Char) : Prop :=
  ∀ c ∈ (chars.dropWhile Text.isIdentifierContinue).head?, c ∉ quoteMarks

/-- What ends words is no such mark. -/
theorem quoteless_append {front rest : List Char}
    (hfront : ∀ c ∈ front, Text.isIdentifierContinue c = true) (hrest : Stops rest) :
    Quoteless (front ++ rest) := by
  rw [Quoteless, (span_append hfront hrest.head_not_continue).2]
  intro d hd hmem
  have hnone : quoteMarks.any isBreak = false := by decide
  exact List.any_eq_false.mp hnone d hmem (hrest d hd)

theorem quoteless_word {c : Char} {word rest : List Char} (hstart : startsName c = true)
    (hword : ∀ d ∈ word, Text.isIdentifierContinue d = true) (hrest : Stops rest) :
    Quoteless (c :: word ++ rest) := by
  rw [Quoteless, List.cons_append, List.dropWhile_cons]
  split
  · exact quoteless_append hword hrest
  · intro d hd hmem
    obtain rfl : c = d := Option.some.inj hd
    exact (not_mem_nameless hstart).1 hmem

theorem Quoteless.tail {c : Char} {chars : List Char} (h : Quoteless (c :: chars))
    (hc : Text.isIdentifierContinue c = true) : Quoteless chars := by
  rw [Quoteless, List.dropWhile_cons, if_pos hc] at h
  exact h

/-- No such mark is in front. -/
theorem Quoteless.head_ne {c : Char} {chars : List Char} (h : Quoteless (c :: chars)) :
    c ∉ quoteMarks := by
  intro hmem
  have hnone : quoteMarks.any Text.isIdentifierContinue = false := by decide
  rw [Quoteless, List.dropWhile_cons, if_neg (List.any_eq_false.mp hnone c hmem)] at h
  exact h c rfl hmem

theorem Quoteless.startsFrontedLiteral {chars : List Char} (h : Quoteless chars) :
    startsFrontedLiteral chars = false := by
  rw [Source.startsFrontedLiteral, List.any_eq_false]
  intro front hfront hstrip
  obtain ⟨rest, hrest⟩ := Option.isSome_iff_exists.mp hstrip
  rw [Text.stripFront?_eq_some_iff] at hrest
  -- every front is letters and then a character that starts a literal
  have hall : literalFronts.all (fun f => quoteMarks.any fun q =>
      (f.toList.dropWhile Text.isIdentifierContinue).head? == some q) = true := by decide +kernel
  obtain ⟨q, hq, hhead⟩ := List.any_eq_true.mp (List.all_eq_true.mp hall front hfront)
  rw [beq_iff_eq] at hhead
  have hne : (front.toList.dropWhile Text.isIdentifierContinue).isEmpty = false := by
    cases hdrop : front.toList.dropWhile Text.isIdentifierContinue with
    | nil => simp [hdrop] at hhead
    | cons => rfl
  refine h q ?_ hq
  rw [hrest, List.dropWhile_append, hne, if_neg Bool.false_ne_true, List.head?_append, hhead]
  rfl

theorem Quoteless.readRaw {chars : List Char} (h : Quoteless chars) (plain : Char → Bool) :
    readRaw plain chars = none := by
  cases chars with
  | nil => rfl
  | cons c chars =>
      have hc := h.head_ne
      simp only [quoteMarks, List.mem_cons, List.not_mem_nil, or_false, not_or] at hc
      simp [Source.readRaw, hc.1, hc.2.1]

theorem Quoteless.readQuotedLiteral {chars : List Char} (h : Quoteless chars) :
    readQuotedLiteral chars = none := by
  have hquote {c : Char} {chars : List Char} (h : Quoteless (c :: chars)) :
      c ≠ '"' ∧ c ≠ apostrophe := by
    have hc := h.head_ne
    simp only [quoteMarks, List.mem_cons, List.not_mem_nil, or_false, not_or] at hc
    exact ⟨hc.1, hc.2.2⟩
  unfold Source.readQuotedLiteral
  split
  · exact absurd rfl (hquote h).1
  · rw [(h.tail rfl).readRaw, Option.map_none]
  · exact absurd rfl (hquote (h.tail rfl)).1
  · rw [((h.tail rfl).tail rfl).readRaw, Option.map_none]
  · exact absurd rfl (hquote (h.tail rfl)).1
  · rw [((h.tail rfl).tail rfl).readRaw, Option.map_none]
  · exact if_neg (hquote (h.tail rfl)).2
  · exact if_neg (hquote h).2
  · rfl

/-! ## Numbers -/

theorem hexDigit?_of_isDigit {c : Char} (h : Text.isDigit c = true) :
    hexDigit? c = some (c.toNat - '0'.toNat) := by
  rw [Text.isDigit, Bool.and_eq_true, decide_eq_true_eq, decide_eq_true_eq] at h
  rw [hexDigit?, if_pos h]

/-- What names do not go on with is no digit of any base. -/
theorem hexDigit?_eq_none {c : Char} (h : Text.isIdentifierContinue c = false) :
    hexDigit? c = none := by
  -- every digit is a letter or a decimal digit of ASCII, and names go on with those
  have hnot {low high : Char} (hhigh : high.toNat < 128) (hc : low ≤ c ∧ c ≤ high) :
      Text.isDigit c = false ∧ ¬ ('a' ≤ c ∧ c ≤ 'z') ∧ ¬ ('A' ≤ c ∧ c ≤ 'Z') := by
    have hlt : c.toNat < 128 := Nat.lt_of_le_of_lt (show c.toNat ≤ high.toNat from hc.2) hhigh
    rw [Text.isIdentifierContinue, if_pos hlt, Bool.or_eq_false_iff] at h
    simpa [Text.isAsciiAlphanumeric, and_assoc] using h.1
  have hle {a b : Char} (hab : a.toNat ≤ b.toNat) (hc : c ≤ a) : c ≤ b :=
    Nat.le_trans (show c.toNat ≤ a.toNat from hc) hab
  rw [hexDigit?, if_neg, if_neg, if_neg]
  · exact fun hc => (hnot (by decide) hc).2.2 ⟨hc.1, hle (by decide) hc.2⟩
  · exact fun hc => (hnot (by decide) hc).2.1 ⟨hc.1, hle (by decide) hc.2⟩
  · exact fun hc => by simpa [Text.isDigit, hc] using (hnot (by decide) hc).1

/-- No number starts with what is no digit. -/
theorem readReal_eq_none {c : Char} (h : Text.isDigit c = false) (rest : List Char) :
    readReal (c :: rest) = none := by
  simp [readReal, readRealChars, h]

/-- A digit below ten is a decimal one. -/
theorem isDigit_of_hexDigit? {c : Char} {digit : Nat} (h : hexDigit? c = some digit)
    (hlt : digit < 10) : Text.isDigit c = true := by
  rw [hexDigit?] at h
  split at h
  · next hc => simp [Text.isDigit, hc]
  · split at h
    · have hdigit := Option.some.inj h
      omega
    · split at h
      · have hdigit := Option.some.inj h
        omega
      · cases h

/-- A text with no mark of another base is read in the base ten. -/
theorem readInteger_eq {chars : List Char}
    (h : ∀ mark ∈ ['x', 'o', 'b'], ∀ rest, chars ≠ '0' :: mark :: rest) :
    readInteger chars = (readDigits 10 0 false chars).bind fun (value, found, rest) =>
      if found && endsWord (readSuffix rest).2 then
        some (⟨.integer value, (readSuffix rest).1, []⟩, (readSuffix rest).2)
      else none := by
  rw [readInteger]
  · rfl
  · exact fun rest => h 'x' (by simp) rest
  · exact fun rest => h 'o' (by simp) rest
  · exact fun rest => h 'b' (by simp) rest

theorem readInteger_eq_none {c : Char} (h : Text.isDigit c = false) (rest : List Char) :
    readInteger (c :: rest) = none := by
  have hzero : c ≠ '0' := by
    rintro rfl
    exact absurd h (by decide)
  rw [readInteger_eq fun mark _ after heq => hzero (List.cons.inj heq).1, readDigits]
  split
  · rfl
  · cases hdigit : hexDigit? c with
    | none => rfl
    | some digit =>
        -- the digit belongs to a greater base
        have hlt : ¬ digit < 10 := fun hlt =>
          Bool.false_ne_true (h.symm.trans (isDigit_of_hexDigit? hdigit hlt))
        simp [hlt, h]

/-- A decimal literal of a natural number: its digits, of which there may be zeros in front, with
underscores anywhere after the first one. -/
inductive WritesDecimal : List Char → Nat → Prop where
  | digit {c : Char} (hc : Text.isDigit c = true) : WritesDecimal [c] (c.toNat - '0'.toNat)
  | more {written : List Char} {n : Nat} {c : Char} (h : WritesDecimal written n)
      (hc : Text.isDigit c = true) :
      WritesDecimal (written ++ [c]) (n * 10 + (c.toNat - '0'.toNat))
  | gap {written : List Char} {n : Nat} (h : WritesDecimal written n) :
      WritesDecimal (written ++ ['_']) n

/-- One decimal digit, which is no underscore, is read into the value. -/
theorem readDigits_digit {c : Char} (hc : Text.isDigit c = true) (value : Nat) (found : Bool)
    (rest : List Char) :
    readDigits 10 value found (c :: rest) =
      readDigits 10 (value * 10 + (c.toNat - '0'.toNat)) true rest := by
  have hunderscore : c ≠ '_' := by
    rintro rfl
    exact absurd hc (by decide)
  have hall : decimalDigits.all (fun d => d.toNat - '0'.toNat < 10) = true := by decide
  have hlt := of_decide_eq_true (List.all_eq_true.mp hall c (mem_decimalDigits hc))
  rw [readDigits, if_neg hunderscore, hexDigit?_of_isDigit hc]
  exact if_pos hlt

theorem isIdentifierContinue_of_isDigit {c : Char} (h : Text.isDigit c = true) :
    Text.isIdentifierContinue c = true := by
  have hall : decimalDigits.all Text.isIdentifierContinue = true := by decide
  exact List.all_eq_true.mp hall c (mem_decimalDigits h)

theorem isIdentifierContinue_of_isDigitOrGap {c : Char} (h : isDigitOrGap c = true) :
    Text.isIdentifierContinue c = true := by
  rw [isDigitOrGap, Bool.or_eq_true, beq_iff_eq] at h
  rcases h with hdigit | rfl
  · exact isIdentifierContinue_of_isDigit hdigit
  · decide

namespace WritesDecimal

variable {written : List Char} {n : Nat}

/-- The digits of a natural number are a literal of it. -/
theorem toDigits (n : Nat) : WritesDecimal (Nat.toDigits 10 n) n := by
  have hdigit {d : Nat} (hd : d < 10) :
      Text.isDigit d.digitChar = true ∧ d.digitChar.toNat - '0'.toNat = d := by
    have hcode : d.digitChar.toNat = 48 + d := Nat.toNat_digitChar_of_lt_ten hd
    have hall : ∀ e < 10, Text.isDigit (Nat.digitChar e) = true := by decide
    exact ⟨hall d hd, hcode ▸ Nat.add_sub_cancel_left 48 d⟩
  induction n using Nat.strongRecOn with
  | ind n ih =>
      rcases Nat.lt_or_ge n 10 with hlt | hge
      · obtain ⟨hc, hvalue⟩ := hdigit hlt
        have hlast := WritesDecimal.digit hc
        rw [hvalue] at hlast
        rw [Nat.toDigits_of_lt_base hlt]
        exact hlast
      · obtain ⟨hc, hvalue⟩ := hdigit (Nat.mod_lt n (by decide : 0 < 10))
        have hmore := (ih (n / 10) (by omega)).more hc
        rw [hvalue, Nat.div_add_mod'] at hmore
        rw [Nat.toDigits_of_base_le (by decide) hge]
        exact hmore

/-- There is a digit in front. -/
theorem exists_head (h : WritesDecimal written n) :
    ∃ c rest, written = c :: rest ∧ Text.isDigit c = true := by
  induction h with
  | @digit c hc => exact ⟨c, [], rfl, hc⟩
  | more _ _ ih | gap _ ih =>
      obtain ⟨c, rest, rfl, hc⟩ := ih
      exact ⟨c, _, List.cons_append, hc⟩

/-- There are digits and underscores only. -/
theorem forall_isDigitOrGap (h : WritesDecimal written n) :
    ∀ c ∈ written, isDigitOrGap c = true := by
  have hdigit {c : Char} (hc : Text.isDigit c = true) : isDigitOrGap c = true := by
    rw [isDigitOrGap, hc, Bool.true_or]
  induction h with
  | digit hc => exact List.forall_mem_singleton.mpr (hdigit hc)
  | more _ hc ih => exact List.forall_mem_append.mpr ⟨ih, List.forall_mem_singleton.mpr (hdigit hc)⟩
  | gap _ ih => exact List.forall_mem_append.mpr ⟨ih, List.forall_mem_singleton.mpr rfl⟩

/-- Once the literal is read, its value is known. -/
theorem readDigits_append (h : WritesDecimal written n) (rest : List Char) :
    readDigits 10 0 false (written ++ rest) = readDigits 10 n true rest := by
  induction h generalizing rest with
  | @digit c hc =>
      rw [List.singleton_append, readDigits_digit hc, Nat.zero_mul, Nat.zero_add]
  | more _ hc ih => rw [List.append_assoc, ih, List.singleton_append, readDigits_digit hc]
  | gap _ ih =>
      rw [List.append_assoc, ih, List.singleton_append, readDigits, if_pos rfl, if_neg (by decide)]

end WritesDecimal

/-- What ends words ends the digits. -/
theorem readDigits_of_stops {rest : List Char} (h : Stops rest) (value : Nat) (found : Bool) :
    readDigits 10 value found rest = some (value, found, rest) := by
  cases rest with
  | nil => rfl
  | cons c rest =>
      have hcontinue := h.head_not_continue c rfl
      have hunderscore : c ≠ '_' := by
        rintro rfl
        exact absurd hcontinue (by decide)
      rw [readDigits, if_neg hunderscore, hexDigit?_eq_none hcontinue]

/-- Digits before what ends words are no number with a point or an exponent. -/
theorem readReal_digits {digits rest : List Char} (hdigits : ∀ c ∈ digits, isDigitOrGap c = true)
    (hrest : Stops rest) : readReal (digits ++ rest) = none := by
  have hstop : ∀ c ∈ rest.head?, isDigitOrGap c = false := by
    intro c hc
    rw [Bool.eq_false_iff]
    intro hgap
    exact Bool.false_ne_true
      ((hrest.head_not_continue c hc).symm.trans (isIdentifierContinue_of_isDigitOrGap hgap))
  -- neither a point nor an exponent follows the digits
  have hmarks : ∀ mark ∈ ['.', 'e', 'E'], ∀ after, rest ≠ mark :: after := by
    rintro mark hmark after rfl
    have hnone : ['.', 'e', 'E'].any isBreak = false := by decide
    exact List.any_eq_false.mp hnone mark hmark (hrest mark rfl)
  obtain ⟨-, hdrop⟩ := span_append hdigits hstop
  have hnone : readRealChars (digits ++ rest) = none := by
    rw [readRealChars]
    split
    · simp only [hdrop]
      split
      · exact absurd rfl (hmarks '.' (by simp) _)
      · exact absurd rfl (hmarks 'e' (by simp) _)
      · exact absurd rfl (hmarks 'E' (by simp) _)
      · rfl
    · rfl
  rw [readReal, hnone]
  rfl

/-- A decimal literal before what ends words is read as its number. -/
theorem WritesDecimal.readLiteral_append {written rest : List Char} {n : Nat}
    (h : WritesDecimal written n) (hrest : Stops rest) :
    readLiteral (written ++ rest) = some (⟨.integer n, "", []⟩, rest) := by
  have hgaps := h.forall_isDigitOrGap
  have hquoted := (quoteless_append
    (fun c hc => isIdentifierContinue_of_isDigitOrGap (hgaps c hc)) hrest).readQuotedLiteral
  -- what follows the first digit is a digit, an underscore or ends the number
  have hmarks : ∀ mark ∈ ['x', 'o', 'b'], ∀ after, written ++ rest ≠ '0' :: mark :: after := by
    intro mark hmark after heq
    obtain ⟨c, digits, rfl, -⟩ := h.exists_head
    rw [List.cons_append] at heq
    have hsecond : (digits ++ rest).head? = some mark := by rw [(List.cons.inj heq).2]; rfl
    have hnone : ['x', 'o', 'b'].any (fun m => isDigitOrGap m || isBreak m) = false := by decide
    have hneither := List.any_eq_false.mp hnone mark hmark
    cases digits with
    | nil => exact hneither (by simp [hrest mark hsecond])
    | cons d digits =>
        obtain rfl : d = mark := Option.some.inj hsecond
        exact hneither (by simp [hgaps d (by simp)])
  have hends : endsWord rest = true := by
    cases rest with
    | nil => rfl
    | cons c rest => simp [endsWord, hrest.head_not_continue c rfl]
  rw [readLiteral, hquoted, readReal_digits hgaps hrest, readInteger_eq hmarks,
    h.readDigits_append, readDigits_of_stops hrest]
  simp [readSuffix_of_stops hrest, hends]

end AnnotatedApi.Source
