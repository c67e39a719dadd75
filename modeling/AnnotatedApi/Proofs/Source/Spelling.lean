import AnnotatedApi.Proofs.Source.Strings

/-! # Writing lexemes

The other direction of the lexer, for the lexemes that arguments are made of: a relation tells how
a lexeme is written before what follows it, and a text that writes lexemes, with blanks anywhere
between them, is cut into just these lexemes and gathered into their token trees. -/

namespace AnnotatedApi.Source

/-! ## Lexemes -/

/-- The mark that opens a group. -/
def Delimiter.openingMark : Delimiter → Char
  | .paren => '('
  | .bracket => '['
  | .brace => '\x7b'

/-- The mark that closes a group. -/
def Delimiter.closingMark : Delimiter → Char
  | .paren => ')'
  | .bracket => ']'
  | .brace => '\x7d'

/-- How a lexeme is written before the rest of a text. -/
inductive WritesLexeme : Lexeme → List Char → List Char → Prop where
  | name {word : String} {rest : List Char} (hword : isWord word = true) (hrest : Stops rest) :
      WritesLexeme (.name word) word.toList rest
  | rawName {word : String} {rest : List Char} (hword : isWord word = true)
      (hraw : neverRaw.contains word = false) (hrest : Stops rest) :
      WritesLexeme (.name (String.ofList ('r' :: '#' :: word.toList))) ('r' :: '#' :: word.toList)
        rest
  | text {value written rest : List Char} (h : WritesText value written) (hrest : Stops rest) :
      WritesLexeme (.literal ⟨.text (String.ofList value), "", []⟩) written rest
  | integer {rest : List Char} (n : Nat) (hrest : Stops rest) :
      WritesLexeme (.literal ⟨.integer n, "", []⟩) (Nat.toDigits 10 n) rest
  /-- A sign is joint where another follows directly. -/
  | sign {c : Char} {rest : List Char} (hc : c ∈ signs) (hslash : c ≠ '/') :
      WritesLexeme (.sign c (startsSign rest)) [c] rest
  | opening {rest : List Char} (delimiter : Delimiter) :
      WritesLexeme (.opening delimiter) [delimiter.openingMark] rest
  | closing {rest : List Char} (delimiter : Delimiter) :
      WritesLexeme (.closing delimiter) [delimiter.closingMark] rest

/-- How lexemes are written, with blanks anywhere between them. -/
inductive Writes : List Lexeme → List Char → Prop where
  | nil : Writes [] []
  | blank {c : Char} {lexemes : List Lexeme} {chars : List Char} (hc : isSourceBlank c = true)
      (h : Writes lexemes chars) : Writes lexemes (c :: chars)
  | cons {lexeme : Lexeme} {written : List Char} {lexemes : List Lexeme} {chars : List Char}
      (hlexeme : WritesLexeme lexeme written chars) (h : Writes lexemes chars) :
      Writes (lexeme :: lexemes) (written ++ chars)

/-- Whether the character is no blank and starts neither a comment nor the mark of a byte order. -/
def isShown (c : Char) : Bool :=
  !isSourceBlank c && c != '/' && c.toNat != 0xFEFF

theorem isShown_of_startsName {c : Char} (h : startsName c = true) : isShown c = true := by
  simp only [isShown, Bool.and_eq_true, bne_iff_ne, ne_eq, Bool.not_eq_true']
  refine ⟨⟨?_, ?_⟩, ?_⟩
  · rw [Bool.eq_false_iff]
    intro hblank
    exact Bool.false_ne_true ((not_name_of_isSourceBlank hblank).1.symm.trans h)
  · rintro rfl
    exact absurd h (by decide)
  · intro hmark
    have hmem : c.toNat ∈ markCodes := by simp [markCodes, hmark]
    exact Bool.false_ne_true ((not_name_of_mark hmem).1.symm.trans h)

/-- A decimal literal starts with a digit. -/
theorem WritesDecimal.exists_shown {written : List Char} {n : Nat} (h : WritesDecimal written n) :
    ∃ c tail, written = c :: tail ∧ isShown c = true := by
  obtain ⟨c, tail, hcons, hdigit⟩ := h.exists_head
  have hall : decimalDigits.all isShown = true := by decide
  exact ⟨c, tail, hcons, List.all_eq_true.mp hall c (mem_decimalDigits hdigit)⟩

/-- A written lexeme starts with a character of its own. -/
theorem WritesLexeme.exists_head {lexeme : Lexeme} {written rest : List Char}
    (h : WritesLexeme lexeme written rest) : ∃ c tail, written = c :: tail ∧ isShown c = true := by
  cases h with
  | name hword =>
      obtain ⟨c, tail, hchars, hstart, -⟩ := exists_of_isWord hword
      exact ⟨c, tail, hchars, isShown_of_startsName hstart⟩
  | rawName => exact ⟨'r', _, rfl, by decide⟩
  | text h =>
      cases h with
      | cooked => exact ⟨'"', _, rfl, by decide⟩
      | raw => exact ⟨'r', _, rfl, by decide⟩
  | integer n => exact (WritesDecimal.toDigits n).exists_shown
  | @sign c _ hc hslash =>
      have hall : signs.all (fun d => d == '/' || isShown d) = true := by decide
      have hshown := List.all_eq_true.mp hall c hc
      rw [Bool.or_eq_true, beq_iff_eq] at hshown
      exact ⟨c, [], rfl, hshown.resolve_left hslash⟩
  | opening delimiter => exact ⟨_, [], rfl, by cases delimiter <;> decide⟩
  | closing delimiter => exact ⟨_, [], rfl, by cases delimiter <;> decide⟩

/-- What is no delimiter is read as a literal, a lifetime, a sign or a name. -/
theorem readLexeme_eq {c : Char} (hc : c ∉ delimiterMarks) (rest : List Char) :
    readLexeme (c :: rest) =
      ((readLiteral (c :: rest)).map (fun (l, rest) => (Lexeme.literal l, rest))
        <|> readLifetime (c :: rest)
        <|> readSign (c :: rest)
        <|> (readName (c :: rest)).map (fun (name, rest) => (.name name, rest))) := by
  simp only [delimiterMarks, List.mem_cons, List.not_mem_nil, or_false, not_or] at hc
  have hbroken : readBrokenLiteral (c :: rest) = none := by
    have hmark : brokenLiteral = '(' :: "/*ERROR*/)".toList := by decide
    rw [readBrokenLiteral, hmark, Text.stripFront?, if_neg (Ne.symm hc.1)]
    rfl
  have hdelimiter : readDelimiter (c :: rest) = none := by
    simp [readDelimiter, hc]
  rw [readLexeme, hbroken, hdelimiter]
  rfl

/-- Nothing but a name or a sign is read from a character that starts no literal. -/
theorem readLexeme_of_quoteless {c : Char} {rest : List Char}
    (hdelimiter : c ∉ delimiterMarks) (hapostrophe : c ≠ apostrophe)
    (hdigit : Text.isDigit c = false) (hquoted : readQuotedLiteral (c :: rest) = none) :
    readLexeme (c :: rest) =
      (readSign (c :: rest) <|>
        (readName (c :: rest)).map (fun (name, rest) => (.name name, rest))) := by
  have hlifetime : readLifetime (c :: rest) = none := if_neg hapostrophe
  rw [readLexeme_eq hdelimiter, readLiteral, hquoted, readReal_eq_none hdigit,
    readInteger_eq_none hdigit, hlifetime]
  rfl

/-- Away from comments a sign is told by its character. -/
theorem startsSign_cons {c : Char} (h : c ≠ '/') (rest : List Char) :
    startsSign (c :: rest) = (signs.contains c || decide (c = apostrophe)) := by
  unfold startsSign
  split
  · next heq => exact absurd (List.cons.inj heq).1 h
  · next heq => exact absurd (List.cons.inj heq).1 h
  · next heq => rw [(List.cons.inj heq).1]
  · next heq => cases heq

/-- No name starts with a quote, a hash or an apostrophe. -/
theorem ne_quoteMarks {c : Char} (h : startsName c = true) :
    c ≠ '"' ∧ c ≠ '#' ∧ c ≠ apostrophe := by
  simpa [quoteMarks] using (not_mem_nameless h).1

theorem readSign_of_startsName {c : Char} (h : startsName c = true) (rest : List Char) :
    readSign (c :: rest) = none := by
  have hsign : c ∉ signs := (not_mem_nameless h).2.2.2
  have hslash : c ≠ '/' := by
    rintro rfl
    exact absurd h (by decide)
  simp [readSign, startsSign_cons hslash, hsign, (ne_quoteMarks h).2.2]

/-- A sign is read with what follows it. -/
theorem readSign_of_mem {c : Char} (hc : c ∈ signs) (hslash : c ≠ '/') (rest : List Char) :
    readSign (c :: rest) = some (.sign c (startsSign rest), rest) := by
  have hapostrophe : c ≠ apostrophe := by
    rintro rfl
    exact absurd hc (by decide)
  simp [readSign, startsSign_cons hslash, hc, hapostrophe]

/-- A word is read as a name. -/
theorem readName_word {c : Char} {word rest : List Char} (hstart : startsName c = true)
    (hword : ∀ d ∈ word, Text.isIdentifierContinue d = true) (hrest : Stops rest) :
    readName (c :: word ++ rest) = some (String.ofList (c :: word), rest) := by
  have hquoteless := quoteless_word hstart hword hrest
  -- no hash follows the first letter, so this is no raw name
  have hmark : ∀ after, c :: word ++ rest ≠ 'r' :: '#' :: after := by
    intro after heq
    rw [heq] at hquoteless
    exact (hquoteless.tail (by decide)).head_ne (by decide)
  rw [readName, hquoteless.startsFrontedLiteral, if_neg Bool.false_ne_true, readAnyName,
    readPlainName_append hstart hword hrest]
  · rfl
  · exact hmark

/-- A raw name is read with its mark. -/
theorem readName_raw {c : Char} {word rest : List Char} (hstart : startsName c = true)
    (hword : ∀ d ∈ word, Text.isIdentifierContinue d = true)
    (hraw : neverRaw.contains (String.ofList (c :: word)) = false) (hrest : Stops rest) :
    readName ('r' :: '#' :: (c :: word ++ rest)) =
      some (String.ofList ('r' :: '#' :: c :: word), rest) := by
  obtain ⟨hquote, hhash, -⟩ := ne_quoteMarks hstart
  have hfront : startsFrontedLiteral ('r' :: '#' :: (c :: word ++ rest)) = false := by
    simp [startsFrontedLiteral, literalFronts, Text.stripFront?, Ne.symm hquote, Ne.symm hhash]
  rw [readName, hfront, if_neg Bool.false_ne_true, readAnyName,
    readPlainName_append hstart hword hrest]
  simp only [Option.bind_eq_bind, Option.bind_some, hraw, Bool.false_eq_true, if_false]
  rfl

/-- No string starts with the mark of a raw name. -/
theorem readQuotedLiteral_raw {c : Char} (hstart : startsName c = true) (rest : List Char) :
    readQuotedLiteral ('r' :: '#' :: c :: rest) = none := by
  obtain ⟨hquote, hhash, -⟩ := ne_quoteMarks hstart
  simp [readQuotedLiteral, readRaw, hquote, hhash]

/-- A literal is read where no delimiter is. -/
theorem readLexeme_literal {c : Char} (hc : c ∉ delimiterMarks) {rest after : List Char}
    {l : Literal} (h : readLiteral (c :: rest) = some (l, after)) :
    readLexeme (c :: rest) = some (.literal l, after) := by
  rw [readLexeme_eq hc, h]
  rfl

/-- A decimal literal is read before what ends words. -/
theorem WritesDecimal.readLexeme_append {written rest : List Char} {n : Nat}
    (h : WritesDecimal written n) (hrest : Stops rest) :
    readLexeme (written ++ rest) = some (.literal ⟨.integer n, "", []⟩, rest) := by
  have hread := h.readLiteral_append hrest
  obtain ⟨c, tail, rfl, hdigit⟩ := h.exists_head
  have hnone : decimalDigits.any delimiterMarks.contains = false := by decide
  have hdelimiter : c ∉ delimiterMarks := fun hmem =>
    List.any_eq_false.mp hnone c (mem_decimalDigits hdigit) (List.contains_iff_mem.mpr hmem)
  exact readLexeme_literal hdelimiter hread

/-- A sign is read where it is written. -/
theorem readLexeme_sign {c : Char} (hc : c ∈ signs) (hslash : c ≠ '/') (rest : List Char) :
    readLexeme (c :: rest) = some (.sign c (startsSign rest), rest) := by
  have hnone : signs.any (fun d => delimiterMarks.contains d || Text.isDigit d ||
      ['"', 'r', 'b', 'c', apostrophe].contains d) = false := by decide
  have hneither := List.any_eq_false.mp hnone c hc
  simp only [Bool.or_eq_true, not_or, List.contains_iff_mem, Bool.not_eq_true] at hneither
  obtain ⟨⟨hdelimiter, hdigit⟩, hfront⟩ := hneither
  simp only [List.mem_cons, List.not_mem_nil, or_false, not_or] at hfront
  have hquoted : readQuotedLiteral (c :: rest) = none := by
    unfold readQuotedLiteral
    split <;> simp_all
  rw [readLexeme_of_quoteless hdelimiter hfront.2.2.2.2 hdigit hquoted, readSign_of_mem hc hslash]
  rfl

/-- A delimiter that opens a group is read where it is written. -/
theorem readLexeme_opening (delimiter : Delimiter) {rest : List Char}
    (hslash : rest.head? ≠ some '/') :
    readLexeme (delimiter.openingMark :: rest) = some (.opening delimiter, rest) := by
  cases delimiter with
  | paren =>
      have hmark : brokenLiteral = '(' :: '/' :: "*ERROR*/)".toList := by decide
      have hbroken : readBrokenLiteral ('(' :: rest) = none := by
        cases rest with
        | nil => rfl
        | cons c rest =>
            have hc : '/' ≠ c := fun h => hslash (by rw [h]; rfl)
            simp [readBrokenLiteral, hmark, Text.stripFront?, hc]
      rw [Delimiter.openingMark, readLexeme, hbroken]
      rfl
  | bracket | brace => rfl

/-- A lexeme is read where it is written. -/
theorem WritesLexeme.read {lexeme : Lexeme} {written rest : List Char}
    (h : WritesLexeme lexeme written rest) (hslash : rest.head? ≠ some '/') :
    readLexeme (written ++ rest) = some (lexeme, rest) := by
  cases h with
  | @name word _ hword hrest =>
      obtain ⟨c, tail, hchars, hstart, htail⟩ := exists_of_isWord hword
      have hquoted := (quoteless_word hstart htail hrest).readQuotedLiteral
      have hread := readName_word hstart htail hrest
      rw [List.cons_append] at hquoted hread
      rw [hchars, List.cons_append, readLexeme_of_quoteless (not_mem_nameless hstart).2.1
        (ne_quoteMarks hstart).2.2 (isDigit_eq_false_of_startsName hstart) hquoted,
        readSign_of_startsName hstart, hread, ← hchars, String.ofList_toList]
      rfl
  | @rawName word _ hword hraw hrest =>
      obtain ⟨c, tail, hchars, hstart, htail⟩ := exists_of_isWord hword
      rw [← String.ofList_toList (s := word), hchars] at hraw
      have hread := readName_raw hstart htail hraw hrest
      rw [List.cons_append] at hread
      rw [hchars, List.cons_append, List.cons_append, List.cons_append,
        readLexeme_of_quoteless (by decide) (by decide) rfl (readQuotedLiteral_raw hstart _),
        readSign_of_startsName (by decide), hread]
      rfl
  | text h hrest =>
      have hread := readLiteral_text h hrest
      cases h with
      | cooked | raw => exact readLexeme_literal (by decide) hread
  | integer n hrest => exact (WritesDecimal.toDigits n).readLexeme_append hrest
  | sign hc hsign => exact readLexeme_sign hc hsign rest
  | opening delimiter => exact readLexeme_opening delimiter hslash
  | closing delimiter => cases delimiter <;> rfl

/-! ## Texts -/

/-- Where no slash is, no comment starts. -/
theorem no_comment {c : Char} (hc : c ≠ '/') (chars : List Char) :
    startsPlainLineComment (c :: chars) = false ∧ startsPlainBlockComment (c :: chars) = false ∧
      readDocComment (c :: chars) = none := by
  refine ⟨?_, ?_, ?_⟩
  · unfold startsPlainLineComment
    split <;> simp_all
  · unfold startsPlainBlockComment
    split <;> simp_all
  · unfold readDocComment
    split <;> simp_all

/-- A blank is skipped. -/
theorem skipBlanks_blank {c : Char} (hc : isSourceBlank c = true) (chars : List Char) :
    skipBlanks (c :: chars) = skipBlanks chars := by
  have hslash : c ≠ '/' := by
    rintro rfl
    exact absurd hc (by decide)
  obtain ⟨hline, hblock, -⟩ := no_comment hslash chars
  rw [skipBlanks, List.length_cons, skipBlanksFrom, hline, hblock]
  · simp [hc, skipBlanks]
  · exact fun _ heq => hslash (List.cons.inj heq).1

/-- Nothing is skipped before a character that shows. -/
theorem skipBlanks_shown {c : Char} (hblank : isSourceBlank c = false) (hslash : c ≠ '/')
    (chars : List Char) : skipBlanks (c :: chars) = c :: chars := by
  obtain ⟨hline, hblock, -⟩ := no_comment hslash chars
  rw [skipBlanks, skipBlanksFrom, hline, hblock]
  · simp [hblank]
  · exact fun _ heq => hslash (List.cons.inj heq).1

/-- A text is cut into lexemes wherever the lexer comes to it, and it starts neither a comment nor
the mark of a byte order. -/
structure Scans (lexemes : List Lexeme) (chars : List Char) : Prop where
  scanFrom : ∀ done fuel, chars.length < fuel →
    scanFrom done fuel chars = some (done.reverse ++ lexemes)
  head : ∀ c ∈ chars.head?, c ≠ '/' ∧ c.toNat ≠ 0xFEFF

namespace Scans

variable {lexeme : Lexeme} {lexemes : List Lexeme} {chars written : List Char}

theorem nil : Scans [] [] where
  scanFrom done fuel hfuel := by
    obtain ⟨fuel, rfl⟩ := Nat.exists_eq_add_one.mpr hfuel
    simp [Source.scanFrom, skipBlanks, skipBlanksFrom, startsPlainLineComment,
      startsPlainBlockComment]
  head c hc := absurd hc (Option.not_mem_none c)

/-- Blanks are skipped. -/
theorem blank {c : Char} (hc : isSourceBlank c = true) (h : Scans lexemes chars) :
    Scans lexemes (c :: chars) where
  scanFrom done fuel hfuel := by
    obtain ⟨fuel, rfl⟩ := Nat.exists_eq_add_one.mpr (Nat.zero_lt_of_lt hfuel)
    rw [← h.scanFrom done (fuel + 1) (Nat.lt_of_succ_lt hfuel), Source.scanFrom, Source.scanFrom,
      skipBlanks_blank hc]
  head d hd := by
    obtain rfl : c = d := Option.some.inj hd
    constructor
    · rintro rfl
      exact absurd hc (by decide)
    · intro hcode
      simp [isSourceBlank, Text.isBlank, hcode] at hc

/-- One more lexeme is read in front. -/
theorem cons (hread : readLexeme (written ++ chars) = some (lexeme, chars))
    (hhead : ∃ c tail, written = c :: tail ∧ isShown c = true) (h : Scans lexemes chars) :
    Scans (lexeme :: lexemes) (written ++ chars) := by
  obtain ⟨c, tail, rfl, hshown⟩ := hhead
  rw [List.cons_append] at hread ⊢
  simp only [isShown, Bool.and_eq_true, Bool.not_eq_true', bne_iff_ne, ne_eq] at hshown
  constructor
  · intro done fuel hfuel
    obtain ⟨fuel, rfl⟩ := Nat.exists_eq_add_one.mpr (Nat.zero_lt_of_lt hfuel)
    simp only [List.length_append, List.length_cons] at hfuel
    rw [Source.scanFrom, skipBlanks_shown hshown.1.1 hshown.1.2]
    simp only [(no_comment hshown.1.2 _).2.2, hread]
    rw [h.scanFrom _ _ (by omega)]
    simp
  · intro d hd
    obtain rfl : c = d := Option.some.inj hd
    exact ⟨hshown.1.2, hshown.2⟩

theorem head_ne (h : Scans lexemes chars) : chars.head? ≠ some '/' :=
  fun hhead => (h.head '/' hhead).1 rfl

/-- The lexemes of the text. -/
theorem scan (h : Scans lexemes chars) : Lexeme.scan chars = some lexemes := by
  have hmark : dropByteOrderMark chars = chars := by
    cases chars with
    | nil => rfl
    | cons c chars => rw [dropByteOrderMark, if_neg (h.head c rfl).2]
  rw [Lexeme.scan, hmark]
  exact h.scanFrom [] _ (Nat.lt_succ_self _)

end Scans

/-- The lexemes of a text are those that it writes. -/
theorem Writes.scans {lexemes : List Lexeme} {chars : List Char} (h : Writes lexemes chars) :
    Scans lexemes chars := by
  induction h with
  | nil => exact .nil
  | blank hc _ ih => exact ih.blank hc
  | cons hlexeme _ ih => exact ih.cons (hlexeme.read ih.head_ne) hlexeme.exists_head

/-! ## Token trees -/

namespace Token

mutual

/-- The lexemes of a token tree. -/
def lexemes : Token → List Lexeme
  | .name word => [.name word]
  | .lifetime word => [.lifetime word]
  | .literal value => [.literal value]
  | .sign char joint => [.sign char joint]
  | .group delimiter tokens => .opening delimiter :: lexemesOfList tokens ++ [.closing delimiter]

/-- The lexemes of a list of token trees. -/
def lexemesOfList : List Token → List Lexeme
  | [] => []
  | token :: rest => token.lexemes ++ lexemesOfList rest

end

theorem lexemesOfList_append (front back : List Token) :
    lexemesOfList (front ++ back) = lexemesOfList front ++ lexemesOfList back := by
  induction front with
  | nil => rfl
  | cons token front ih =>
      rw [List.cons_append, lexemesOfList, lexemesOfList, ih, List.append_assoc]

mutual

/-- The lexemes of a token tree are gathered to the tree. -/
theorem gather_lexemes (outer : List (Delimiter × List Token)) (done : List Token) (token : Token)
    (rest : List Lexeme) :
    gather outer done (token.lexemes ++ rest) = gather outer (token :: done) rest := by
  match token with
  | .name _ | .lifetime _ | .literal _ | .sign _ _ => rfl
  | .group delimiter tokens =>
      rw [lexemes, List.cons_append, List.cons_append, List.append_assoc, gather,
        gather_lexemesOfList, List.append_nil, List.singleton_append, gather, if_pos rfl,
        List.reverse_reverse]

/-- The lexemes of token trees are gathered to the trees. -/
theorem gather_lexemesOfList (outer : List (Delimiter × List Token)) (done : List Token)
    (tokens : List Token) (rest : List Lexeme) :
    gather outer done (lexemesOfList tokens ++ rest) =
      gather outer (tokens.reverse ++ done) rest := by
  match tokens with
  | [] => rfl
  | token :: tokens =>
      rw [lexemesOfList, List.append_assoc, gather_lexemes, gather_lexemesOfList,
        List.reverse_cons, List.append_assoc, List.singleton_append]

end

/-- A text that is cut into the lexemes of token trees is read as the trees. -/
theorem read_of_scans {tokens : List Token} {chars : List Char}
    (h : Scans (lexemesOfList tokens) chars) : Token.read chars = some tokens := by
  have hgather := gather_lexemesOfList [] [] tokens []
  rw [List.append_nil, List.append_nil] at hgather
  rw [Token.read, h.scan, Option.bind_some, hgather]
  simp [gather]

end Token

end AnnotatedApi.Source
