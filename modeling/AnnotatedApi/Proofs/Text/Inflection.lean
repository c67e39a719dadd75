import AnnotatedApi.Proofs.Text.Words

/-! # Inflecting the last word

Plural and singular are formed at the end of a text. Where the words of a text are joined by
underscores, the rules look at the last word only: no suffix has an underscore, and an underscore is
no vowel. So the plural of joined words is the plural of the last one behind the others. -/

namespace AnnotatedApi.Text

/-! ## Texts without capitals -/

/-- A text of small letters, digits and underscores. -/
def IsSmall (text : String) : Prop :=
  ∀ c ∈ text.toList, isWordLetter c = true ∨ c = '_'

/-- Small characters are their own lower-case form. -/
theorem lowerFrom_of_small {chars : List Char} (h : ∀ c ∈ chars, isWordLetter c = true ∨ c = '_')
    (before : List Char) : lowerFrom before chars = chars := by
  have hchar : ∀ c ∈ chars, c.toNat < 128 ∧ asciiLower c = c := by
    intro c hc
    rcases h c hc with hletter | rfl
    · have hcode := toNat_lt_of_isNameLetter (isNameLetter_of_isWordLetter hletter)
      obtain ⟨-, -, hlower, -⟩ := of_isWordLetter hletter
      rw [lowerChar, if_pos hcode, List.singleton_inj] at hlower
      exact ⟨hcode, hlower⟩
    · decide
  rw [lowerFrom_of_ascii fun c hc => (hchar c hc).1,
    List.map_congr_left fun c hc => (hchar c hc).2, List.map_id']

/-- A small text is its own lower-case form. -/
theorem IsSmall.lower_eq {text : String} (h : IsSmall text) : lower text = text := by
  rw [lower, lowerFrom_of_small h, String.ofList_toList]

/-- In a small text a suffix is looked for as it is written. -/
theorem IsSmall.endsInAnyCase_iff {text : String} (h : IsSmall text) (suffix : String) :
    endsInAnyCase text suffix = true ↔ suffix.toList <:+ text.toList := by
  rw [endsInAnyCase, h.lower_eq, endsWith_iff]

theorem IsSmall.append {front back : String} (hfront : IsSmall front) (hback : IsSmall back) :
    IsSmall (front ++ back) := by
  intro c hc
  rw [String.toList_append, List.mem_append] at hc
  exact hc.elim (hfront c) (hback c)

theorem IsWord.isSmall {word : String} (h : IsWord word.toList) : IsSmall word :=
  fun c hc => .inl (h.letters c hc)

/-! ## The last word of a text -/

/-- The words before the last one, each with an underscore behind it. -/
structure IsFront (front : String) : Prop where
  small : IsSmall front
  last : ∀ c ∈ front.toList.getLast?, c = '_'

/-- What ends with a suffix without underscores ends with it in its last word. -/
theorem suffix_append_iff {front word suffix : List Char} (hfront : ∀ c ∈ front.getLast?, c = '_')
    (hsuffix : '_' ∉ suffix) : suffix <:+ front ++ word ↔ suffix <:+ word := by
  constructor
  · intro h
    rcases List.suffix_or_suffix_of_suffix h (List.suffix_append front word) with hin | hout
    · exact hin
    · -- a longer suffix would have the last character of the front
      obtain ⟨more, rfl⟩ := hout
      have hmore : more <:+ front := ((List.suffix_append_inj_of_length_eq rfl).mp h).1
      have hunderscore : '_' ∉ more := fun hmem => hsuffix (List.mem_append_left _ hmem)
      cases hlast : more.getLast? with
      | none =>
          obtain rfl := List.getLast?_eq_none_iff.mp hlast
          exact List.suffix_refl word
      | some c =>
          obtain ⟨before, rfl⟩ := hmore
          have hmem : c ∈ more := List.mem_of_getLast? hlast
          have hc : c = '_' := hfront c (by rw [List.getLast?_append, hlast]; rfl)
          exact absurd (hc ▸ hmem) hunderscore
  · intro h
    exact h.trans (List.suffix_append front word)

section LastWord

variable {front word : String}

/-- So it does in any case. -/
theorem IsFront.endsInAnyCase_append (hfront : IsFront front) (hword : IsWord word.toList)
    {suffix : String} (hsuffix : '_' ∉ suffix.toList) :
    endsInAnyCase (front ++ word) suffix = endsInAnyCase word suffix := by
  rw [Bool.eq_iff_iff, (hfront.small.append hword.isSmall).endsInAnyCase_iff,
    hword.isSmall.endsInAnyCase_iff, String.toList_append, suffix_append_iff hfront.last hsuffix]

/-- The character before the last one is no vowel where it is an underscore. -/
theorem IsFront.hasVowelBeforeLast_append (hfront : IsFront front) (hword : IsWord word.toList) :
    hasVowelBeforeLast (front ++ word) = hasVowelBeforeLast word := by
  rw [hasVowelBeforeLast, hasVowelBeforeLast, (hfront.small.append hword.isSmall).lower_eq,
    hword.isSmall.lower_eq, String.toList_append, List.reverse_append]
  obtain ⟨c, rest, hreverse⟩ : ∃ c rest, word.toList.reverse = c :: rest :=
    List.exists_cons_of_ne_nil fun hnil => hword.ne_nil (List.reverse_eq_nil_iff.mp hnil)
  rw [hreverse, List.cons_append]
  cases rest with
  | cons d rest => rfl
  | nil =>
      -- the word is a single character
      rw [List.nil_append]
      have hlast := hfront.last
      rw [← List.head?_reverse] at hlast
      cases hfrontReverse : front.toList.reverse with
      | nil => rfl
      | cons d before =>
          rw [hfrontReverse] at hlast
          rw [hlast d rfl]
          rfl

/-- Characters are dropped from the last word as long as it has any. -/
theorem dropLastChars_append {n : Nat} (h : n ≤ word.toList.length) :
    dropLastChars n (front ++ word) = front ++ dropLastChars n word := by
  have hlength : front.toList.length + word.toList.length - n - front.toList.length =
      word.toList.length - n := by omega
  rw [dropLastChars, dropLastChars, ← String.toList_inj, String.toList_append, String.toList_append,
    String.toList_ofList, String.toList_ofList, List.length_append, List.take_append, hlength,
    List.take_of_length_le (by omega)]

/-- The plural of joined words is the plural of the last one behind the others. -/
theorem IsFront.pluralize_append (hfront : IsFront front) (hword : IsWord word.toList) :
    pluralize (front ++ word) = front ++ pluralize word := by
  have hempty : word.isEmpty = false := by
    rw [Bool.eq_false_iff, Ne, String.isEmpty_iff]
    rintro rfl
    exact hword.ne_nil rfl
  have hemptyAll : (front ++ word).isEmpty = false := by
    rw [Bool.eq_false_iff, Ne, String.isEmpty_iff, String.append_eq_empty_iff]
    rintro ⟨-, rfl⟩
    exact hword.ne_nil rfl
  have hlength : 1 ≤ word.toList.length := List.length_pos_of_ne_nil hword.ne_nil
  -- no ending reaches over the underscore in front of the last word
  have hsuffixes : ["ss", "x", "z", "ch", "sh"].any (endsInAnyCase (front ++ word)) =
      ["ss", "x", "z", "ch", "sh"].any (endsInAnyCase word) := by
    have hsuffix : ∀ suffix ∈ ["ss", "x", "z", "ch", "sh"], '_' ∉ suffix.toList := by decide
    rw [Bool.eq_iff_iff, List.any_eq_true, List.any_eq_true]
    refine exists_congr fun suffix => and_congr_right fun hmem => ?_
    rw [hfront.endsInAnyCase_append hword (hsuffix suffix hmem)]
  rw [pluralize, pluralize, hempty, hemptyAll, hsuffixes, hfront.hasVowelBeforeLast_append hword,
    dropLastChars_append hlength, hfront.endsInAnyCase_append hword (by decide),
    hfront.endsInAnyCase_append hword (by decide), hfront.endsInAnyCase_append hword (by decide)]
  simp only [Bool.false_eq_true, if_false]
  split
  · rfl
  · split
    · rw [String.append_assoc]
    · split
      · rw [String.append_assoc]
      · rw [String.append_assoc]

end LastWord

/-- The plural of a word is a word. -/
theorem IsWord.pluralize {word : String} (h : IsWord word.toList) :
    IsWord (pluralize word).toList := by
  have hadd : ∀ {front back : List Char}, (∀ c ∈ front, isWordLetter c = true) → back ≠ [] →
      back.all isWordLetter = true → IsWord (front ++ back) := by
    intro front back hfront hne hback
    refine ⟨List.append_ne_nil_of_right_ne_nil _ hne, ?_⟩
    rw [List.forall_mem_append]
    exact ⟨hfront, List.all_eq_true.mp hback⟩
  have hempty : word.isEmpty = false := by
    rw [Bool.eq_false_iff, Ne, String.isEmpty_iff]
    rintro rfl
    exact h.ne_nil rfl
  rw [Text.pluralize, hempty]
  simp only [Bool.false_eq_true, if_false]
  split
  · exact h
  · split
    · rw [String.toList_append, dropLastChars, String.toList_ofList]
      exact hadd (fun c hc => h.letters c (List.mem_of_mem_take hc)) (by decide) (by decide)
    · split
      · rw [String.toList_append]
        exact hadd h.letters (by decide) (by decide)
      · rw [String.toList_append]
        exact hadd h.letters (by decide) (by decide)

/-! ## Joined words -/

/-- The words before the last one, each with an underscore behind it. -/
def joinedFront (words : List (List Char)) : String :=
  String.ofList (words.flatMap fun word => word ++ ['_'])

theorem isFront_joinedFront {words : List (List Char)} (h : ∀ w ∈ words, IsWord w) :
    IsFront (joinedFront words) := by
  constructor
  · intro c hc
    rw [joinedFront, String.toList_ofList, List.mem_flatMap] at hc
    obtain ⟨word, hword, hc⟩ := hc
    rw [List.mem_append, List.mem_singleton] at hc
    exact hc.imp_left ((h word hword).letters c)
  · intro c hc
    rw [joinedFront, String.toList_ofList] at hc
    rcases List.eq_nil_or_concat words with rfl | ⟨before, word, rfl⟩
    · exact absurd hc (Option.not_mem_none c)
    · simpa [eq_comm] using hc

/-- The last of joined words stands behind the others. -/
theorem intercalate_concat (words : List (List Char)) (last : List Char) :
    String.ofList (['_'].intercalate (words ++ [last])) =
      joinedFront words ++ String.ofList last := by
  rw [joinedFront, ← String.ofList_append]
  congr 1
  induction words with
  | nil => simp
  | cons word words ih =>
      obtain ⟨next, rest, hrest⟩ : ∃ next rest, words ++ [last] = next :: rest :=
        List.exists_cons_of_ne_nil (List.append_ne_nil_of_right_ne_nil _ (List.cons_ne_nil _ _))
      rw [List.cons_append, hrest, List.intercalate_cons_cons, ← hrest, ih, List.flatMap_cons]
      simp only [List.append_assoc]

/-- The plural of joined words has the plural of the last word. -/
theorem pluralize_joined {words : List (List Char)} {last : List Char}
    (h : ∀ w ∈ words ++ [last], IsWord w) :
    pluralize (String.ofList (['_'].intercalate (words ++ [last]))) =
      String.ofList (['_'].intercalate (words ++ [(pluralize (String.ofList last)).toList])) := by
  rw [List.forall_mem_append, List.forall_mem_singleton] at h
  have hlast : IsWord (String.ofList last).toList := by
    rw [String.toList_ofList]
    exact h.2
  rw [intercalate_concat, intercalate_concat, (isFront_joinedFront h.1).pluralize_append hlast,
    String.ofList_toList]

/-! ## Resources of handler owners -/

/-- The last element of a list is changed. -/
theorem mapLast_concat (f : α → α) (front : List α) (last : α) :
    mapLast f (front ++ [last]) = front ++ [f last] := by
  induction front with
  | nil => rfl
  | cons a front ih =>
      obtain ⟨next, rest, hrest⟩ : ∃ next rest, front ++ [last] = next :: rest :=
        List.exists_cons_of_ne_nil (List.append_ne_nil_of_right_ne_nil _ (List.cons_ne_nil _ _))
      rw [List.cons_append, hrest, mapLast, ← hrest, ih, List.cons_append]

namespace IsIdentifier

variable {name word : String}

/-- The last word of an identifier stands behind the others. -/
theorem exists_front (hlast : (splitWords name).getLast? = some word) :
    ∃ front, wordsFrom [] false name.toList = front ++ [word.toList] ∧
      splitWords name = front.map String.ofList ++ [word] := by
  obtain ⟨front, hwords⟩ := List.getLast?_eq_some_iff.mp hlast
  refine ⟨front.map String.toList, ?_, ?_⟩
  · rw [← map_toList_splitWords, hwords, List.map_append, List.map_singleton]
  · rw [hwords, List.map_map]
    congr 1
    exact (List.map_id'' (fun _ => String.ofList_toList) _).symm

/-- A handler type that is named by an identifier and a suffix handles what the identifier names, if
its last word is no plural. -/
theorem resourceWords_suffixed (h : IsIdentifier name)
    (hlast : (splitWords name).getLast? = some word) (hword : singularize word = word)
    {suffix : String} (hsuffix : suffix ∈ handlerSuffixes) (path : String) :
    resourceWords (path ++ "::" ++ (name ++ suffix)) = lowerWords name := by
  obtain ⟨front, -, hwords⟩ := exists_front hlast
  rw [resourceWords, h.ownerWords_suffixed hsuffix, hwords, mapLast_concat, hword, ← hwords,
    lowerWords]

/-- A module that is named by the plural of an identifier handles what the identifier names, if the
plural of its last word can be undone. -/
theorem resourceWords_plural (h : IsIdentifier name)
    (hlast : (splitWords name).getLast? = some word)
    (hplural : singularize (pluralize word) = word) (path : String) :
    resourceWords (path ++ "::" ++ pluralize (snakeCase name)) = lowerWords name := by
  obtain ⟨front, hchars, hwords⟩ := exists_front hlast
  have hisWord := h.isWord
  rw [hchars] at hisWord
  have hplurals : ∀ w ∈ front ++ [(pluralize word).toList], IsWord w := by
    rw [List.forall_mem_append, List.forall_mem_singleton] at hisWord ⊢
    exact ⟨hisWord.1, hisWord.2.pluralize⟩
  have hname : pluralize (snakeCase name) =
      String.ofList (['_'].intercalate (front ++ [(pluralize word).toList])) := by
    have hjoined := pluralize_joined hisWord
    rwa [← hchars, ← toList_snakeCase, String.ofList_toList, String.ofList_toList] at hjoined
  -- there is no capital left, so no suffix of handlers is stripped
  have hsmall : IsSmall (pluralize (snakeCase name)) := by
    rw [hname, intercalate_concat, String.ofList_toList]
    rw [List.forall_mem_append, List.forall_mem_singleton] at hplurals
    exact (isFront_joinedFront hplurals.1).small.append hplurals.2.isSmall
  have hletters : ∀ c ∈ (pluralize (snakeCase name)).toList,
      isNameLetter c = true ∧ isUpper c = false := by
    intro c hc
    rcases hsmall c hc with hletter | rfl
    · exact ⟨isNameLetter_of_isWordLetter hletter, (of_isWordLetter hletter).2.1⟩
    · decide
  -- the owner is cut into the words of the name, with the plural of the last one
  have howner : ownerWords (path ++ "::" ++ pluralize (snakeCase name)) =
      front.map String.ofList ++ [pluralize word] := by
    rw [ownerWords, lastSegment_of_name fun c hc => (hletters c hc).1,
      stripHandlerSuffix_of_small fun c hc => (hletters c hc).2, splitWords, hname,
      String.toList_ofList, wordsFrom_joined rfl hplurals, List.map_append, List.map_singleton,
      String.ofList_toList]
  rw [resourceWords, howner, mapLast_concat, hplural, ← hwords, lowerWords]

end IsIdentifier

end AnnotatedApi.Text
