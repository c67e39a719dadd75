import AnnotatedApi.Proofs.Source.Words

/-! # Reading strings

How strings are written, cooked with escapes or raw between hashes, and that the lexer reads a
string that is written so as what it says. -/

namespace AnnotatedApi.Source

/-! ## Strings -/

/-- The characters with an escape of one character, and what stands after the backslash. -/
def simpleEscapes : List (Char × Char) :=
  [('\n', 'n'), ('\r', 'r'), ('\t', 't'), (Char.ofNat 0, '0'), ('\\', '\\'), ('"', '"'),
    (apostrophe, apostrophe)]

/-- The number that hexadecimal digits write; other characters are passed over. -/
def codeValue (start : Nat) (digits : List Char) : Nat :=
  (digits.filterMap hexDigit?).foldl (fun value digit => value * 16 + digit) start

/-- How a character is written after a backslash. -/
inductive IsEscape : Char → List Char → Prop where
  | simple {c mark : Char} (h : (c, mark) ∈ simpleEscapes) : IsEscape c [mark]
  /-- A code of two digits. -/
  | code {a b : Char} {high low : Nat} (hhigh : hexDigit? a = some high)
      (hlow : hexDigit? b = some low) (hlt : high * 16 + low < 128) :
      IsEscape (Char.ofNat (high * 16 + low)) ['x', a, b]
  /-- A code of up to six digits, with underscores after the first one. -/
  | point {digit : Char} {digits : List Char} (hdigit : (hexDigit? digit).isSome = true)
      (hdigits : ∀ d ∈ digits, d = '_' ∨ (hexDigit? d).isSome = true)
      (hcount : (digits.filterMap hexDigit?).length < 6)
      (hscalar : isScalarValue (codeValue 0 (digit :: digits)) = true) :
      IsEscape (Char.ofNat (codeValue 0 (digit :: digits)))
        ('u' :: '\x7b' :: digit :: digits ++ ['\x7d'])

/-- How the inside of a string is written between its quotes. -/
inductive WritesInside : List Char → List Char → Prop where
  | nil : WritesInside [] []
  | plain {c : Char} {value written : List Char} (hc : c ∉ ['"', '\\', '\r'])
      (h : WritesInside value written) : WritesInside (c :: value) (c :: written)
  /-- The end of a line of two characters. -/
  | lineEnd {value written : List Char} (h : WritesInside value written) :
      WritesInside ('\n' :: value) ('\r' :: '\n' :: written)
  | escape {c : Char} {mark value written : List Char} (hmark : IsEscape c mark)
      (h : WritesInside value written) : WritesInside (c :: value) ('\\' :: mark ++ written)
  /-- A backslash at the end of a line, with the blanks that the next line starts with. -/
  | continued {lineEnd blanks value written : List Char}
      (hline : lineEnd ∈ [['\n'], ['\r', '\n']]) (hblanks : ∀ c ∈ blanks, isLineBlank c = true)
      (hreturns : noBareReturn blanks = true)
      (hwritten : ∀ c ∈ written.head?, isLineBlank c = false) (h : WritesInside value written) :
      WritesInside value ('\\' :: lineEnd ++ blanks ++ written)

/-- How a string is written. -/
inductive WritesText : List Char → List Char → Prop where
  | cooked {value written : List Char} (h : WritesInside value written) :
      WritesText value ('"' :: written ++ ['"'])
  /-- A raw string, in which no quote is followed by as many hashes as at its end. -/
  | raw {hashes : Nat} {value : List Char} (hhashes : hashes ≤ 255)
      (hquotes : ∀ front back, value = front ++ '"' :: back →
        ¬ List.replicate hashes '#' <+: back)
      (hreturns : noBareReturn value = true) :
      WritesText value ('r' :: List.replicate hashes '#' ++ '"' :: value ++
        '"' :: List.replicate hashes '#')

/-- The digits of a braced code are read up to the brace. -/
theorem readBracedCode_append {digits : List Char}
    (hdigits : ∀ d ∈ digits, d = '_' ∨ (hexDigit? d).isSome = true) {value count : Nat}
    (hcount : 0 < count) (hmax : count + (digits.filterMap hexDigit?).length ≤ 6)
    (hscalar : isScalarValue (codeValue value digits) = true) (rest : List Char) :
    readBracedCode value count (digits ++ '\x7d' :: rest) =
      some (Char.ofNat (codeValue value digits), rest) := by
  induction digits generalizing value count with
  | nil =>
      rw [codeValue] at hscalar
      simp only [List.filterMap_nil, List.foldl_nil] at hscalar
      simp [readBracedCode, hcount, codeValue, hscalar]
  | cons d digits ih =>
      obtain ⟨hd, hdigits⟩ := List.forall_mem_cons.mp hdigits
      rw [List.cons_append, readBracedCode]
      by_cases hunderscore : d = '_'
      · have hskip : List.filterMap hexDigit? (d :: digits) = List.filterMap hexDigit? digits := by
          rw [hunderscore]
          rfl
        rw [codeValue, hskip] at hscalar ⊢
        rw [hskip] at hmax
        -- an underscore behind a digit is passed over
        rw [if_pos ⟨hunderscore, hcount⟩]
        exact ih hdigits hcount hmax hscalar
      · obtain ⟨digit, hdigit⟩ := Option.isSome_iff_exists.mp (hd.resolve_left hunderscore)
        have hbrace : d ≠ '\x7d' := by
          rintro rfl
          cases hdigit
        have hadd : List.filterMap hexDigit? (d :: digits) =
            digit :: List.filterMap hexDigit? digits := List.filterMap_cons_some hdigit
        rw [codeValue, hadd] at hscalar ⊢
        rw [hadd, List.length_cons] at hmax
        rw [if_neg (by simp [hunderscore]), if_neg (by simp [hbrace]), hdigit]
        simp only [if_neg (show ¬ count = 6 by omega)]
        exact ih hdigits (by omega) (by omega) hscalar

/-- What is written after a backslash is read as the character. -/
theorem IsEscape.read {c : Char} {mark : List Char} (h : IsEscape c mark) (rest : List Char) :
    textStyle.escape (mark ++ rest) = some (c, rest) := by
  cases h with
  | simple hmem =>
      simp only [simpleEscapes, List.mem_cons, Prod.mk.injEq, List.not_mem_nil, or_false] at hmem
      rcases hmem with ⟨rfl, rfl⟩ | ⟨rfl, rfl⟩ | ⟨rfl, rfl⟩ | ⟨rfl, rfl⟩ | ⟨rfl, rfl⟩ |
        ⟨rfl, rfl⟩ | ⟨rfl, rfl⟩ <;> rfl
  | @code a b high low hhigh hlow hlt =>
      have hsimple : readSimpleEscape ('x' :: a :: b :: rest) = none := rfl
      have hcode : readCodeEscape 128 ('x' :: a :: b :: rest) =
          some (Char.ofNat (high * 16 + low), rest) := by
        simp [readCodeEscape, hhigh, hlow, hlt]
      show (readSimpleEscape ('x' :: a :: b :: rest) <|> readCodeEscape 128 ('x' :: a :: b :: rest)
        <|> readPointEscape ('x' :: a :: b :: rest)) = _
      rw [hsimple, hcode]
      rfl
  | @point digit digits hdigit hdigits hcount hscalar =>
      have hread : readPointEscape ('u' :: '\x7b' :: digit :: digits ++ ['\x7d'] ++ rest) =
          some (Char.ofNat (codeValue 0 (digit :: digits)), rest) := by
        obtain ⟨value, hvalue⟩ := Option.isSome_iff_exists.mp hdigit
        have hcode : codeValue 0 (digit :: digits) = codeValue (0 * 16 + value) digits := by
          rw [codeValue, List.filterMap_cons_some hvalue, List.foldl_cons, codeValue]
        rw [hcode] at hscalar ⊢
        simp only [List.cons_append, List.append_assoc, List.nil_append, readPointEscape]
        rw [readBracedCode, if_neg (by simp), if_neg (by simp), hvalue]
        exact readBracedCode_append hdigits (by omega) (by omega) hscalar rest
      show (readSimpleEscape ('u' :: _) <|> readCodeEscape 128 ('u' :: _)
        <|> readPointEscape ('u' :: '\x7b' :: digit :: digits ++ ['\x7d'] ++ rest)) = _
      rw [hread]
      rfl

/-- No line ends right after the backslash of an escape. -/
theorem IsEscape.afterLineEnd? {c : Char} {mark : List Char} (h : IsEscape c mark)
    (rest : List Char) : afterLineEnd? (mark ++ rest) = none := by
  cases h with
  | simple hmem =>
      simp only [simpleEscapes, List.mem_cons, Prod.mk.injEq, List.not_mem_nil, or_false] at hmem
      rcases hmem with ⟨rfl, rfl⟩ | ⟨rfl, rfl⟩ | ⟨rfl, rfl⟩ | ⟨rfl, rfl⟩ | ⟨rfl, rfl⟩ |
        ⟨rfl, rfl⟩ | ⟨rfl, rfl⟩ <;> rfl
  | code | point => rfl

/-- The blanks of the next line are skipped up to the first other character. -/
theorem skipLineBlanks_append {blanks rest : List Char}
    (hblanks : ∀ c ∈ blanks, isLineBlank c = true) (hreturns : noBareReturn blanks = true)
    (hrest : ∀ c ∈ rest.head?, isLineBlank c = false) (hne : rest ≠ []) :
    skipLineBlanks (blanks ++ rest) = some rest := by
  obtain ⟨htake, hdrop⟩ := span_append hblanks hrest
  have hempty : rest.isEmpty = false := List.isEmpty_eq_false_iff.mpr hne
  simp [skipLineBlanks, htake, hdrop, hreturns, hempty]

section Cooked

variable {style : QuoteStyle} {done : List Char} {fuel : Nat} {rest after : List Char} {c : Char}

theorem readCookedFrom_plain (hc : c ∉ ['"', '\\', '\r']) (hplain : style.plain c = true) :
    readCookedFrom style done (fuel + 1) (c :: rest) =
      readCookedFrom style (c :: done) fuel rest := by
  simp only [List.mem_cons, List.not_mem_nil, or_false, not_or] at hc
  rw [readCookedFrom.eq_def]
  simp only [hc, hplain, if_true, if_false]

theorem readCookedFrom_escape (hline : afterLineEnd? rest = none)
    (hescape : style.escape rest = some (c, after)) :
    readCookedFrom style done (fuel + 1) ('\\' :: rest) =
      readCookedFrom style (c :: done) fuel after := by
  rw [readCookedFrom.eq_def]
  simp [hline, hescape]

theorem readCookedFrom_continued {next : List Char} (hline : afterLineEnd? rest = some next)
    (hskip : skipLineBlanks next = some after) :
    readCookedFrom style done (fuel + 1) ('\\' :: rest) =
      readCookedFrom style done fuel after := by
  rw [readCookedFrom.eq_def]
  simp [hline, hskip]

end Cooked

/-- The inside of a string is read up to the closing quote. -/
theorem WritesInside.read {value written : List Char} (h : WritesInside value written)
    (done rest : List Char) {fuel : Nat} (hfuel : written.length < fuel) :
    readCookedFrom textStyle done fuel (written ++ '"' :: rest) =
      some (done.reverse ++ value, rest) := by
  induction h generalizing done fuel with
  | nil =>
      obtain ⟨fuel, rfl⟩ := Nat.exists_eq_add_one.mpr hfuel
      simp [readCookedFrom]
  | @plain c value written hc _ ih =>
      obtain ⟨fuel, rfl⟩ := Nat.exists_eq_add_one.mpr (Nat.zero_lt_of_lt hfuel)
      rw [List.cons_append, readCookedFrom_plain hc rfl, ih _ (Nat.lt_of_succ_lt_succ hfuel)]
      simp
  | @lineEnd value written _ ih =>
      obtain ⟨fuel, rfl⟩ := Nat.exists_eq_add_one.mpr (Nat.zero_lt_of_lt hfuel)
      simp only [List.length_cons] at hfuel
      have hstep : readCookedFrom textStyle done (fuel + 1)
          ('\r' :: '\n' :: (written ++ '"' :: rest)) =
          readCookedFrom textStyle ('\n' :: done) fuel (written ++ '"' :: rest) := rfl
      rw [List.cons_append, List.cons_append, hstep, ih _ (by omega)]
      simp
  | @escape c mark value written hmark _ ih =>
      obtain ⟨fuel, rfl⟩ := Nat.exists_eq_add_one.mpr (Nat.zero_lt_of_lt hfuel)
      simp only [List.length_cons, List.length_append, List.cons_append] at hfuel
      rw [List.cons_append, List.cons_append, List.append_assoc,
        readCookedFrom_escape (hmark.afterLineEnd? _) (hmark.read _), ih _ (by omega)]
      simp
  | @continued lineEnd blanks value written hline hblanks hreturns hwritten _ ih =>
      obtain ⟨fuel, rfl⟩ := Nat.exists_eq_add_one.mpr (Nat.zero_lt_of_lt hfuel)
      simp only [List.length_cons, List.length_append, List.cons_append] at hfuel
      -- the end of the line goes together with the blanks up to what is written next
      have hafter (after : List Char) : Source.afterLineEnd? (lineEnd ++ after) = some after := by
        simp only [List.mem_cons, List.not_mem_nil, or_false] at hline
        rcases hline with rfl | rfl <;> rfl
      have hhead : ∀ c ∈ (written ++ '"' :: rest).head?, isLineBlank c = false := by
        cases written with
        | nil =>
            intro c hc
            obtain rfl : '"' = c := Option.some.inj hc
            rfl
        | cons => exact hwritten
      have hskip := skipLineBlanks_append hblanks hreturns hhead (by simp)
      simp only [List.cons_append, List.append_assoc]
      rw [readCookedFrom_continued (hafter _) hskip]
      exact ih _ (by omega)

theorem noBareReturn_cons {c : Char} {chars : List Char} (h : noBareReturn (c :: chars) = true) :
    (c = '\r' → chars.head? = some '\n') ∧ noBareReturn chars = true := by
  rw [noBareReturn.eq_def] at h
  split at h
  · next heq => cases heq
  · next rest heq =>
      obtain ⟨-, rfl⟩ := List.cons.inj heq
      exact ⟨fun _ => rfl, by simpa [noBareReturn] using h⟩
  · cases h
  · next d rest hreturn heq =>
      obtain ⟨rfl, rfl⟩ := List.cons.inj heq
      exact ⟨fun hc => absurd hc hreturn, h⟩

/-- The inside of a raw string is read up to the closing quote with its hashes. -/
theorem readRawFrom_append {hashes value : List Char}
    (hquotes : ∀ front back, value = front ++ '"' :: back → ¬ hashes <+: back)
    (hhashes : ∀ c ∈ hashes, c = '#') (hreturns : noBareReturn value = true)
    (done rest : List Char) :
    readRawFrom hashes textStyle.plain done (value ++ '"' :: hashes ++ rest) =
      some (done.reverse ++ value, rest) := by
  induction value generalizing done with
  | nil =>
      have hstrip : Text.stripFront? hashes (hashes ++ rest) = some rest :=
        Text.stripFront?_eq_some_iff.mpr rfl
      rw [List.nil_append, List.cons_append, readRawFrom, if_pos rfl, hstrip]
      simp
  | cons c value ih =>
      obtain ⟨hhead, htail⟩ := noBareReturn_cons hreturns
      -- the hashes after a quote would all stand inside, as the closing quote is no hash
      have hinside (hc : c = '"') : ¬ hashes <+: value ++ '"' :: hashes ++ rest := by
        intro hprefix
        have hquote : value ++ ['"'] <+: value ++ '"' :: hashes ++ rest := ⟨hashes ++ rest, by simp⟩
        rcases List.prefix_or_prefix_of_prefix hprefix hquote with hshort | hlong
        · rcases List.prefix_concat_iff.mp hshort with heq | hvalue
          · exact absurd (hhashes '"' (by simp [heq])) (by decide)
          · exact hquotes [] value (by rw [hc]; rfl) hvalue
        · exact absurd (hhashes '"' (hlong.subset (by simp))) (by decide)
      have hstrip : (if c = '"' then
          Text.stripFront? hashes (value ++ '"' :: hashes ++ rest) else none) = none := by
        split
        · next hc =>
            rw [Option.eq_none_iff_forall_ne_some]
            intro after hafter
            exact hinside hc ⟨after, (Text.stripFront?_eq_some_iff.mp hafter).symm⟩
        · rfl
      have hreturn : ¬ (c = '\r' ∧ (value ++ '"' :: hashes ++ rest).head? ≠ some '\n') := by
        rintro ⟨hc, hne⟩
        cases value with
        | nil => cases hhead hc
        | cons d value => exact hne (hhead hc)
      rw [List.cons_append, List.cons_append, readRawFrom, hstrip]
      simp only [hreturn, if_false, show textStyle.plain c = true from rfl, if_true]
      rw [ih (fun front back heq => hquotes (c :: front) back (by rw [heq]; rfl)) htail]
      simp

theorem readRaw_append {hashes : Nat} {value : List Char} (hhashes : hashes ≤ 255)
    (hquotes : ∀ front back, value = front ++ '"' :: back → ¬ List.replicate hashes '#' <+: back)
    (hreturns : noBareReturn value = true) (rest : List Char) :
    readRaw textStyle.plain
        (List.replicate hashes '#' ++ '"' :: (value ++ '"' :: List.replicate hashes '#' ++ rest)) =
      some (value, rest) := by
  have hall : ∀ c ∈ List.replicate hashes '#', c = '#' := fun c hc => (List.mem_replicate.mp hc).2
  have hstop : ∀ c ∈ ('"' :: (value ++ '"' :: List.replicate hashes '#' ++ rest)).head?,
      decide (c = '#') = false := by simp
  obtain ⟨htake, hdrop⟩ := span_append (p := fun c => decide (c = '#'))
    (fun c hc => decide_eq_true (hall c hc)) hstop
  rw [readRaw, htake, hdrop, List.length_replicate]
  simp only [if_neg (Nat.not_lt.mpr hhashes)]
  exact readRawFrom_append hquotes hall hreturns [] rest

/-- A string is read as what it says. -/
theorem readLiteral_text {value written rest : List Char} (h : WritesText value written)
    (hrest : Stops rest) :
    readLiteral (written ++ rest) = some (⟨.text (String.ofList value), "", []⟩, rest) := by
  have hsuffix : withSuffix (.text (String.ofList value)) rest =
      (⟨.text (String.ofList value), "", []⟩, rest) := by
    rw [withSuffix, readSuffix_of_stops hrest]
  have hquoted : readQuotedLiteral (written ++ rest) =
      some (⟨.text (String.ofList value), "", []⟩, rest) := by
    cases h with
    | @cooked _ inside h =>
        have hread : readCooked textStyle (inside ++ '"' :: rest) = some (value, rest) :=
          h.read [] rest (by rw [List.length_append]; omega)
        simp only [List.cons_append, List.append_assoc, List.nil_append, readQuotedLiteral]
        rw [hread]
        exact congrArg some hsuffix
    | raw hhashes hquotes hreturns =>
        have hread := readRaw_append hhashes hquotes hreturns rest
        simp only [List.append_assoc, List.cons_append] at hread
        simp only [List.cons_append, List.append_assoc, readQuotedLiteral]
        rw [hread]
        exact congrArg some hsuffix
  rw [readLiteral, hquoted]
  rfl

end AnnotatedApi.Source
