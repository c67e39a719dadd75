import AnnotatedApi.Proofs.Text.Segments
import AnnotatedApi.Text.Words

/-! # Cutting identifiers into words

Cutting an identifier into words loses its separators and its case and nothing else, so joined words
are the same identifier again. The words of an ASCII identifier are made of small letters and
digits; such words joined by underscores are cut back into themselves. A handler suffix and a path
in front of an identifier do not change the words of the owner. -/

namespace AnnotatedApi.Text

/-! ## Characters of ASCII -/

/-- A small letter or a digit, of which the words of ASCII identifiers are made. -/
def isWordLetter (c : Char) : Bool :=
  isDigit c || ('a' ≤ c && c ≤ 'z')

/-- A character that an ASCII identifier may have. -/
def isNameLetter (c : Char) : Bool :=
  isAsciiAlphanumeric c || c == '_'

/-- Letters of names are characters of ASCII. -/
theorem toNat_lt_of_isNameLetter {c : Char} (h : isNameLetter c = true) : c.toNat < 128 := by
  have hle (d : Char) : c ≤ d ↔ c.toNat ≤ d.toNat := Iff.rfl
  simp only [isNameLetter, isAsciiAlphanumeric, isDigit, Bool.or_eq_true, Bool.and_eq_true,
    decide_eq_true_eq, hle, beq_iff_eq] at h
  rcases h with ((⟨-, h⟩ | ⟨-, h⟩) | ⟨-, h⟩) | rfl
  · exact Nat.lt_of_le_of_lt h (by decide)
  · exact Nat.lt_of_le_of_lt h (by decide)
  · exact Nat.lt_of_le_of_lt h (by decide)
  · decide

/-- Letters of words are letters of names. -/
theorem isNameLetter_of_isWordLetter {c : Char} (h : isWordLetter c = true) :
    isNameLetter c = true := by
  simp only [isWordLetter, isNameLetter, isAsciiAlphanumeric, Bool.or_eq_true] at h ⊢
  exact .inl (.inl h)

/-- Cutting, comparing and inflecting leave letters of words alone. -/
theorem of_isWordLetter {c : Char} (h : isWordLetter c = true) :
    isWordSeparator c = false ∧ isUpper c = false ∧ lowerChar c = [c] ∧
      (isLower c || isDigit c) = true ∧ c ≠ 'Σ' := by
  have hcodes : ∀ n < 128, isWordLetter (Char.ofNat n) = true →
      isWordSeparator (Char.ofNat n) = false ∧ isUpper (Char.ofNat n) = false ∧
        lowerChar (Char.ofNat n) = [Char.ofNat n] ∧
          (isLower (Char.ofNat n) || isDigit (Char.ofNat n)) = true ∧ Char.ofNat n ≠ 'Σ' := by
    decide
  have hascii := toNat_lt_of_isNameLetter (isNameLetter_of_isWordLetter h)
  have hc := hcodes c.toNat hascii
  rw [Char.ofNat_toNat] at hc
  exact hc h

/-- The lower-case form of a letter of a name is a letter of a word, unless it is a separator. -/
theorem lowerChar_of_isNameLetter {c : Char} (h : isNameLetter c = true)
    (hseparator : isWordSeparator c = false) :
    ∃ d, lowerChar c = [d] ∧ isWordLetter d = true := by
  have hcodes : ∀ n < 128, isNameLetter (Char.ofNat n) = true →
      isWordSeparator (Char.ofNat n) = false →
        lowerChar (Char.ofNat n) = [asciiLower (Char.ofNat n)] ∧
          isWordLetter (asciiLower (Char.ofNat n)) = true := by
    decide
  have hc := hcodes c.toNat (toNat_lt_of_isNameLetter h)
  rw [Char.ofNat_toNat] at hc
  exact ⟨asciiLower c, hc h hseparator⟩

/-- ASCII characters are put into lower case one by one. -/
theorem lowerFrom_of_ascii {chars : List Char} (h : ∀ c ∈ chars, c.toNat < 128)
    (before : List Char) : lowerFrom before chars = chars.map asciiLower := by
  induction chars generalizing before with
  | nil => rfl
  | cons c chars ih =>
      rw [List.forall_mem_cons] at h
      have hsigma : c ≠ 'Σ' := by
        rintro rfl
        exact absurd h.1 (by decide)
      rw [lowerFrom, if_neg hsigma, lowerChar, if_pos h.1, ih h.2]
      rfl

/-- A word of an ASCII identifier. -/
structure IsWord (word : List Char) : Prop where
  ne_nil : word ≠ []
  letters : ∀ c ∈ word, isWordLetter c = true

/-- An ASCII identifier with a letter or a digit. -/
structure IsIdentifier (name : String) : Prop where
  /-- It is made of letters, digits and underscores. -/
  chars : ∀ c ∈ name.toList, isNameLetter c = true
  /-- Not all of it are underscores. -/
  lettered : ∃ c ∈ name.toList, isAsciiAlphanumeric c = true

/-! ## What cutting keeps -/

/-- A finished word is put in front, or it is empty. -/
theorem flatten_consWord (word : List Char) (words : List (List Char)) :
    (consWord word words).flatten = word ++ words.flatten := by
  unfold consWord
  split
  · next hempty => rw [List.isEmpty_iff.mp hempty, List.nil_append]
  · rw [List.flatten_cons]

/-- The words hold what is cut, in lower case and without the separators. -/
theorem flatten_wordsFrom (word : List Char) (afterLower : Bool) (chars : List Char) :
    (wordsFrom word afterLower chars).flatten =
      word ++ (chars.filter fun c => !isWordSeparator c).flatMap lowerChar := by
  fun_induction wordsFrom word afterLower chars with
  | case1 word afterLower => simp [flatten_consWord]
  | case2 word afterLower c rest hseparator ih =>
      rw [flatten_consWord, ih, List.nil_append, List.filter_cons_of_neg (by simp [hseparator])]
  | case3 word afterLower c rest hseparator _ ih =>
      rw [List.flatten_cons, ih, List.filter_cons_of_pos (by simp [hseparator]),
        List.flatMap_cons]
  | case4 word afterLower c rest hseparator _ ih =>
      rw [ih, List.filter_cons_of_pos (by simp [hseparator]), List.flatMap_cons,
        List.append_assoc]

/-- Separators end a word and start none. -/
theorem wordsFrom_separators {separators : List Char}
    (h : ∀ c ∈ separators, isWordSeparator c = true) (word : List Char) (afterLower : Bool) :
    wordsFrom word afterLower separators = consWord word [] := by
  induction separators generalizing word afterLower with
  | nil => rfl
  | cons c separators ih =>
      rw [List.forall_mem_cons] at h
      rw [wordsFrom, if_pos h.1, ih h.2]
      rfl

/-- Separators at the end do not change the words. -/
theorem wordsFrom_append_separators {separators : List Char}
    (h : ∀ c ∈ separators, isWordSeparator c = true) (word : List Char) (afterLower : Bool)
    (chars : List Char) :
    wordsFrom word afterLower (chars ++ separators) = wordsFrom word afterLower chars := by
  fun_induction wordsFrom word afterLower chars with
  | case1 word afterLower => exact wordsFrom_separators h word afterLower
  | case2 word afterLower c rest hseparator ih =>
      rw [List.cons_append, wordsFrom, if_pos hseparator, ih]
  | case3 word afterLower c rest hseparator hcapital ih =>
      rw [List.cons_append, wordsFrom, if_neg hseparator, if_pos hcapital, ih]
  | case4 word afterLower c rest hseparator hcapital ih =>
      rw [List.cons_append, wordsFrom, if_neg hseparator, if_neg hcapital, ih]

/-- The words of an ASCII identifier are made of letters of words. -/
theorem isWord_of_mem_wordsFrom {word : List Char} (hword : ∀ c ∈ word, isWordLetter c = true)
    {afterLower : Bool} {chars : List Char} (hchars : ∀ c ∈ chars, isNameLetter c = true) :
    ∀ w ∈ wordsFrom word afterLower chars, IsWord w := by
  have hcons : ∀ {word words}, (∀ c ∈ word, isWordLetter c = true) → (∀ w ∈ words, IsWord w) →
      ∀ w ∈ consWord word words, IsWord w := by
    intro word words hword hwords
    unfold consWord
    split
    · exact hwords
    · next hne =>
      rw [List.forall_mem_cons]
      exact ⟨⟨fun hnil => hne (List.isEmpty_iff.mpr hnil), hword⟩, hwords⟩
  have hlower : ∀ {c}, isNameLetter c = true → ¬ isWordSeparator c = true →
      ∀ d ∈ lowerChar c, isWordLetter d = true := by
    intro c hc hseparator
    obtain ⟨d, heq, hd⟩ := lowerChar_of_isNameLetter hc (Bool.not_eq_true _ ▸ hseparator)
    rw [heq, List.forall_mem_singleton]
    exact hd
  -- the word under way is made of letters of words in every step
  fun_induction wordsFrom word afterLower chars with
  | case1 word afterLower => exact hcons hword (List.forall_mem_nil _)
  | case2 word afterLower c rest hseparator ih =>
      rw [List.forall_mem_cons] at hchars
      exact hcons hword (ih (List.forall_mem_nil _) hchars.2)
  | case3 word afterLower c rest hseparator hcapital ih =>
      rw [List.forall_mem_cons] at hchars
      rw [List.forall_mem_cons]
      refine ⟨⟨?_, hword⟩, ih (hlower hchars.1 hseparator) hchars.2⟩
      rintro rfl
      simp at hcapital
  | case4 word afterLower c rest hseparator hcapital ih =>
      rw [List.forall_mem_cons] at hchars
      refine ih ?_ hchars.2
      rw [List.forall_mem_append]
      exact ⟨hword, hlower hchars.1 hseparator⟩

/-! ## Joined words -/

/-- Cutting takes the letters of a word to the current word. -/
theorem wordsFrom_append_word {letters : List Char} (h : ∀ c ∈ letters, isWordLetter c = true)
    (word : List Char) (afterLower : Bool) (rest : List Char) :
    ∃ afterLower', wordsFrom word afterLower (letters ++ rest) =
      wordsFrom (word ++ letters) afterLower' rest := by
  induction letters generalizing word afterLower with
  | nil => exact ⟨afterLower, by rw [List.nil_append, List.append_nil]⟩
  | cons c letters ih =>
      rw [List.forall_mem_cons] at h
      obtain ⟨hseparator, hupper, hlower, -, -⟩ := of_isWordLetter h.1
      obtain ⟨afterLower', hrest⟩ := ih h.2 (word ++ [c]) (isLower c || isDigit c)
      refine ⟨afterLower', ?_⟩
      rw [List.cons_append, wordsFrom, hseparator, hupper, hlower]
      simpa using hrest

/-- Words joined by a separator are cut into the words. -/
theorem wordsFrom_joined {separator : Char} (hseparator : isWordSeparator separator = true)
    {words : List (List Char)} (h : ∀ w ∈ words, IsWord w) :
    wordsFrom [] false ([separator].intercalate words) = words := by
  induction words with
  | nil => rfl
  | cons w words ih =>
      rw [List.forall_mem_cons] at h
      have hword : ∀ words, consWord w words = w :: words := by
        intro words
        rw [consWord, if_neg]
        exact fun hempty => h.1.ne_nil (List.isEmpty_iff.mp hempty)
      cases words with
      | nil =>
          obtain ⟨afterLower, hcut⟩ := wordsFrom_append_word h.1.letters [] false []
          rw [List.append_nil, List.nil_append] at hcut
          rw [List.intercalate_singleton, hcut, wordsFrom, hword]
      | cons next words =>
          rw [List.intercalate_cons_cons]
          obtain ⟨afterLower, hcut⟩ := wordsFrom_append_word h.1.letters [] false
            ([separator] ++ [separator].intercalate (next :: words))
          rw [List.append_assoc, hcut, List.nil_append, List.singleton_append, wordsFrom,
            if_pos hseparator, hword, ih h.2]

/-- Two identifiers are compared by the letters of their words. -/
theorem foldIdentifier_eq (name : String) :
    foldIdentifier name = (wordsFrom [] false name.toList).flatten := by
  rw [flatten_wordsFrom, List.nil_append, foldIdentifier]

/-- The characters of the words. -/
theorem map_toList_splitWords (name : String) :
    (splitWords name).map String.toList = wordsFrom [] false name.toList := by
  rw [splitWords, List.map_map]
  exact List.map_id'' (fun _ => String.toList_ofList) _

theorem toList_lowerWords (name : String) :
    (lowerWords name).toList = [' '].intercalate (wordsFrom [] false name.toList) := by
  rw [lowerWords, String.toList_intercalate, map_toList_splitWords]
  rfl

theorem toList_snakeCase (name : String) :
    (snakeCase name).toList = ['_'].intercalate (wordsFrom [] false name.toList) := by
  rw [snakeCase, String.toList_intercalate, map_toList_splitWords]
  rfl

namespace IsIdentifier

variable {name : String}

/-- The words of an identifier. -/
theorem isWord (h : IsIdentifier name) : ∀ w ∈ wordsFrom [] false name.toList, IsWord w :=
  isWord_of_mem_wordsFrom (List.forall_mem_nil _) h.chars

/-- The joined words of an identifier are the same identifier. -/
theorem foldIdentifier_lowerWords (h : IsIdentifier name) :
    foldIdentifier (lowerWords name) = foldIdentifier name := by
  rw [foldIdentifier_eq, foldIdentifier_eq, toList_lowerWords, wordsFrom_joined rfl h.isWord]

/-- An identifier with a letter has a word. -/
theorem splitWords_ne_nil (h : IsIdentifier name) : splitWords name ≠ [] := by
  intro hnil
  obtain ⟨c, hc, hletter⟩ := h.lettered
  have hwords : wordsFrom [] false name.toList = [] := List.map_eq_nil_iff.mp hnil
  -- the letter would have to be in one of the words
  have hfold := foldIdentifier_eq name
  rw [hwords, List.flatten_nil, foldIdentifier, List.flatMap_eq_nil_iff] at hfold
  have hseparator : isWordSeparator c = false := by
    have hcodes : ∀ n < 128, isAsciiAlphanumeric (Char.ofNat n) = true →
        isWordSeparator (Char.ofNat n) = false := by
      decide
    have hcode := hcodes c.toNat (toNat_lt_of_isNameLetter (h.chars c hc))
    rw [Char.ofNat_toNat] at hcode
    exact hcode hletter
  obtain ⟨d, hd, -⟩ := lowerChar_of_isNameLetter (h.chars c hc) hseparator
  have hempty := hfold c (List.mem_filter.mpr ⟨hc, by rw [hseparator]; rfl⟩)
  rw [hd] at hempty
  exact absurd hempty (List.cons_ne_nil d [])

/-- Its words joined by blanks are no empty text. -/
theorem lowerWords_ne_empty (h : IsIdentifier name) : lowerWords name ≠ "" := by
  intro hempty
  obtain ⟨word, words, hwords⟩ := List.exists_cons_of_ne_nil h.splitWords_ne_nil
  have hword : IsWord word.toList := by
    refine h.isWord _ ?_
    rw [← map_toList_splitWords, hwords]
    exact List.mem_cons_self
  have hfold := h.foldIdentifier_lowerWords
  rw [hempty, foldIdentifier_eq name, ← map_toList_splitWords, hwords, List.map_cons,
    List.flatten_cons] at hfold
  exact hword.ne_nil (List.append_eq_nil_iff.mp hfold.symm).1

end IsIdentifier

/-! ## Owners of handlers -/

/-- A suffix that the name ends with is stripped with the underscores before it. -/
theorem stripSuffixes_append {name suffix : String} (hname : name ≠ "")
    (suffixes : List String) :
    stripSuffixes (name ++ suffix) (suffix :: suffixes) =
      String.ofList (dropEndWhile (· = '_') name.toList) := by
  obtain ⟨c, rest, hchars⟩ : ∃ c rest, name.toList = c :: rest :=
    List.exists_cons_of_ne_nil fun hnil => hname (String.toList_eq_nil_iff.mp hnil)
  have hstrip : stripBack? suffix.toList (name ++ suffix).toList = some (c :: rest) := by
    rw [stripBack?_eq_some_iff, String.toList_append, hchars]
  rw [stripSuffixes, hstrip, hchars]

/-- A suffix that the name does not end with is passed over. -/
theorem stripSuffixes_cons_of_not_suffix {name suffix : String}
    (h : ¬ suffix.toList <:+ name.toList) (suffixes : List String) :
    stripSuffixes name (suffix :: suffixes) = stripSuffixes name suffixes := by
  have hstrip : stripBack? suffix.toList name.toList = none := by
    rw [Option.eq_none_iff_forall_ne_some]
    intro rest hrest
    exact h ⟨rest, (stripBack?_eq_some_iff.mp hrest).symm⟩
  rw [stripSuffixes, hstrip]

/-- A name ends with what was added, so with nothing longer that ends otherwise. -/
theorem not_suffix_append {name suffix other : String}
    (hlength : suffix.toList.length ≤ other.toList.length)
    (h : ¬ suffix.toList <:+ other.toList) : ¬ other.toList <:+ (name ++ suffix).toList := by
  intro hother
  rw [String.toList_append] at hother
  exact h (List.suffix_of_suffix_length_le (List.suffix_append _ _) hother hlength)

/-- The handler suffix that was added to a name is stripped. -/
theorem stripHandlerSuffix_append {name suffix : String} (hname : name ≠ "")
    (h : suffix ∈ handlerSuffixes) :
    stripHandlerSuffix (name ++ suffix) =
      String.ofList (dropEndWhile (· = '_') name.toList) := by
  rw [stripHandlerSuffix, handlerSuffixes]
  rw [handlerSuffixes, List.mem_cons, List.mem_cons, List.mem_singleton] at h
  rcases h with rfl | rfl | rfl
  · exact stripSuffixes_append hname _
  · rw [stripSuffixes_cons_of_not_suffix (not_suffix_append (by decide) (by decide))]
    exact stripSuffixes_append hname _
  · rw [stripSuffixes_cons_of_not_suffix (not_suffix_append (by decide) (by decide)),
      stripSuffixes_cons_of_not_suffix (not_suffix_append (by decide) (by decide))]
    exact stripSuffixes_append hname _

/-- A name without capitals has no handler suffix. -/
theorem stripHandlerSuffix_of_small {name : String} (h : ∀ c ∈ name.toList, isUpper c = false) :
    stripHandlerSuffix name = name := by
  have hcapital : ∀ suffix : String, suffix.toList.any isUpper = true →
      ¬ suffix.toList <:+ name.toList := by
    intro suffix hany hsuffix
    obtain ⟨c, hc, hupper⟩ := List.any_eq_true.mp hany
    have hsmall := h c (hsuffix.subset hc)
    rw [hupper] at hsmall
    exact absurd hsmall (by decide)
  rw [stripHandlerSuffix, handlerSuffixes,
    stripSuffixes_cons_of_not_suffix (hcapital _ (by decide)),
    stripSuffixes_cons_of_not_suffix (hcapital _ (by decide)),
    stripSuffixes_cons_of_not_suffix (hcapital _ (by decide)), stripSuffixes]

/-- Letters of names have no colons. -/
theorem lastSegment_of_name {name : String} (h : ∀ c ∈ name.toList, isNameLetter c = true)
    (path : String) : lastSegment (path ++ "::" ++ name) = name := by
  have hcolon : ':' ∉ name.toList := fun hmem => absurd (h ':' hmem) (by decide)
  have hpair : ¬ HasPair name.toList := fun hpair => hcolon (hpair.subset List.mem_cons_self)
  have hloose : ¬ HasLooseColon name := fun hloose => hcolon (List.mem_of_head? hloose.head)
  have hpath : (path ++ "::" ++ name).toList = path.toList ++ ':' :: ':' :: name.toList := by
    simp
  rw [lastSegment_append hpath hloose, lastSegment_of_not_hasPair hpair]

/-- A path in front and a handler suffix do not change the words of an identifier. -/
theorem IsIdentifier.ownerWords_suffixed {name suffix : String} (h : IsIdentifier name)
    (hsuffix : suffix ∈ handlerSuffixes) (path : String) :
    ownerWords (path ++ "::" ++ (name ++ suffix)) = splitWords name := by
  have hname : name ≠ "" := by
    rintro rfl
    obtain ⟨c, hc, -⟩ := h.lettered
    exact absurd hc List.not_mem_nil
  have hsuffixes : ∀ suffix ∈ handlerSuffixes, suffix.toList.all isNameLetter = true := by
    decide
  have hchars : ∀ c ∈ (name ++ suffix).toList, isNameLetter c = true := by
    rw [String.toList_append, List.forall_mem_append]
    exact ⟨h.chars, List.all_eq_true.mp (hsuffixes suffix hsuffix)⟩
  -- the underscores that are stripped from the end separate nothing
  obtain ⟨underscores, hstripped⟩ : ∃ underscores,
      name.toList = dropEndWhile (· = '_') name.toList ++ underscores ∧
        ∀ c ∈ underscores, isWordSeparator c = true := by
    refine ⟨name.toList.rtakeWhile (· = '_'), ?_, ?_⟩
    · rw [dropEndWhile_eq_rdropWhile, List.rdropWhile_append_rtakeWhile]
    · intro c hc
      have hunderscore := List.mem_rtakeWhile_imp hc
      rw [of_decide_eq_true hunderscore]
      rfl
  rw [ownerWords, lastSegment_of_name hchars, stripHandlerSuffix_append hname hsuffix, splitWords,
    splitWords, String.toList_ofList]
  conv_rhs => rw [hstripped.1, wordsFrom_append_separators hstripped.2]

end AnnotatedApi.Text
