import AnnotatedApi.Proofs.Text.Inflection

/-! # Plurals and the way back

The plural of an ASCII word ends in a single `s`, and a word that does is its own plural; so forming
the plural twice is forming it once. The singular undoes the plural for most words: it fails where
the word ends in a single `s` already, where its end and the added `s` read like the plural of
another word (`movie` and `axe`, whose plurals are taken for those of `movy` and `ax`), and for the
lone `y`. It works for the lone `s` and the lone `ie`, which are too short to be cut. -/

namespace AnnotatedApi.Text

/-! ## ASCII texts -/

/-- A text of ASCII characters. -/
def IsAscii (text : String) : Prop :=
  ∀ c ∈ text.toList, c.toNat < 128

-- over the characters of the text; an instance over all characters would not reduce
instance : DecidablePred IsSmall := fun text =>
  List.decidableBAll (fun c => isWordLetter c = true ∨ c = '_') text.toList

theorem IsSmall.isAscii {text : String} (h : IsSmall text) : IsAscii text := by
  intro c hc
  rcases h c hc with hletter | rfl
  · exact toNat_lt_of_isNameLetter (isNameLetter_of_isWordLetter hletter)
  · decide

/-- In a small text a suffix in any case is a suffix as it is written. -/
theorem IsSmall.endsInAnyCase_eq {text : String} (h : IsSmall text) (suffix : String) :
    endsInAnyCase text suffix = endsWith text suffix := by
  rw [endsInAnyCase, h.lower_eq]

section Suffixes

variable {text back : String}

theorem IsAscii.lower_append (htext : IsAscii text) (hback : IsAscii back) :
    lower (text ++ back) = lower text ++ lower back := by
  have hboth : ∀ c ∈ (text ++ back).toList, c.toNat < 128 := by
    rw [String.toList_append, List.forall_mem_append]
    exact ⟨htext, hback⟩
  rw [lower, lower, lower, lowerFrom_of_ascii hboth, lowerFrom_of_ascii htext,
    lowerFrom_of_ascii hback, String.toList_append, List.map_append, String.ofList_append]

/-- A suffix that ends with what was added is a suffix of what it was added to. -/
theorem IsAscii.endsInAnyCase_append (htext : IsAscii text) (hback : IsSmall back)
    (suffix : String) :
    endsInAnyCase (text ++ back) (suffix ++ back) = endsInAnyCase text suffix := by
  rw [Bool.eq_iff_iff, endsInAnyCase, endsInAnyCase, htext.lower_append hback.isAscii,
    hback.lower_eq, endsWith_iff, endsWith_iff, String.toList_append, String.toList_append,
    List.suffix_append_inj_of_length_eq rfl]
  exact and_iff_left rfl

theorem IsAscii.any_endsInAnyCase_append (htext : IsAscii text) (hback : IsSmall back)
    (suffixes : List String) :
    (suffixes.map (· ++ back)).any (endsInAnyCase (text ++ back)) =
      suffixes.any (endsInAnyCase text) := by
  rw [List.any_map]
  congr 1
  funext suffix
  exact htext.endsInAnyCase_append hback suffix

/-- What was added is a suffix. -/
theorem IsAscii.endsInAnyCase_append_self (htext : IsAscii text) (hback : IsSmall back) :
    endsInAnyCase (text ++ back) back = true := by
  have hempty := htext.endsInAnyCase_append hback ""
  rw [String.empty_append] at hempty
  rw [hempty, endsInAnyCase, endsWith_iff]
  exact List.nil_suffix

/-- A text has no two suffixes with different last characters. -/
theorem endsInAnyCase_eq_false {suffix other : String} (h : endsInAnyCase text suffix = true)
    (hlast : suffix.toList.getLast? ≠ other.toList.getLast?) (hsuffix : suffix.toList ≠ [])
    (hother : other.toList ≠ []) : endsInAnyCase text other = false := by
  rw [Bool.eq_false_iff]
  intro hboth
  rw [endsInAnyCase, endsWith_iff] at h hboth
  exact hlast (getLast?_eq_of_suffix h hboth hsuffix hother)

/-- A text that ends with a suffix is a stem and the suffix. -/
theorem exists_append_of_endsWith {suffix : String} (h : endsWith text suffix = true) :
    ∃ stem, text = stem ++ suffix := by
  obtain ⟨stem, hstem⟩ := endsWith_iff.mp h
  refine ⟨String.ofList stem, ?_⟩
  rw [← String.toList_inj, String.toList_append, String.toList_ofList, hstem]

/-- The stem of a small text is small. -/
theorem IsSmall.exists_stem {suffix : String} (h : IsSmall text)
    (hsuffix : endsInAnyCase text suffix = true) :
    ∃ stem, text = stem ++ suffix ∧ IsSmall stem := by
  rw [h.endsInAnyCase_eq] at hsuffix
  obtain ⟨stem, rfl⟩ := exists_append_of_endsWith hsuffix
  refine ⟨stem, rfl, fun c hc => h c ?_⟩
  rw [String.toList_append]
  exact List.mem_append_left _ hc

end Suffixes

/-! ## Plurals -/

/-- A text that counts as plural: it ends in a single `s`. -/
def IsPlural (text : String) : Prop :=
  endsInAnyCase text "s" = true ∧ endsInAnyCase text "ss" = false

instance : DecidablePred IsPlural := fun text =>
  inferInstanceAs (Decidable (endsInAnyCase text "s" = true ∧ endsInAnyCase text "ss" = false))

/-- The endings that take `es`. -/
def sibilants : List String := ["ss", "x", "z", "ch", "sh"]

/-- How the plural of a word is formed. -/
inductive Inflects (word : String) : String → Prop
  | same : IsPlural word → Inflects word word
  | ies : ¬ IsPlural word → endsInAnyCase word "y" = true → hasVowelBeforeLast word = false →
      Inflects word (dropLastChars 1 word ++ "ies")
  | es : ¬ IsPlural word → sibilants.any (endsInAnyCase word) = true → Inflects word (word ++ "es")
  | s : ¬ IsPlural word → sibilants.any (endsInAnyCase word) = false →
      ¬ (endsInAnyCase word "y" = true ∧ hasVowelBeforeLast word = false) →
      Inflects word (word ++ "s")

theorem inflects_pluralize {word : String} (h : word ≠ "") : Inflects word (pluralize word) := by
  have hempty : word.isEmpty = false := by
    rw [Bool.eq_false_iff, Ne, String.isEmpty_iff]
    exact h
  have hplural : (endsInAnyCase word "s" && !endsInAnyCase word "ss") = true ↔ IsPlural word := by
    rw [IsPlural, Bool.and_eq_true, Bool.not_eq_true']
  have hy : (endsInAnyCase word "y" && !hasVowelBeforeLast word) = true ↔
      endsInAnyCase word "y" = true ∧ hasVowelBeforeLast word = false := by
    rw [Bool.and_eq_true, Bool.not_eq_true']
  rw [pluralize, hempty]
  simp only [Bool.false_eq_true, if_false]
  split
  · next hsame => exact .same (hplural.mp hsame)
  · next hsingular =>
    rw [hplural] at hsingular
    split
    · next hies => exact .ies hsingular (hy.mp hies).1 (hy.mp hies).2
    · next hies =>
      split
      · next hes => exact .es hsingular hes
      · next hes => exact .s hsingular (Bool.eq_false_iff.mpr hes) (hy.not.mp hies)

/-- A word that counts as plural is its own plural. -/
theorem pluralize_of_isPlural {word : String} (h : IsPlural word) : pluralize word = word := by
  have hplural : (endsInAnyCase word "s" && !endsInAnyCase word "ss") = true := by
    rw [h.1, h.2]
    rfl
  rw [pluralize, hplural]
  split
  · next hempty => exact (String.isEmpty_iff.mp hempty).symm
  · rfl

/-- A single `s` is added to what does not end in `s`. -/
theorem IsAscii.isPlural_append_s_iff {text : String} (h : IsAscii text) :
    IsPlural (text ++ "s") ↔ endsInAnyCase text "s" = false := by
  have hsmall : IsSmall "s" := by decide
  rw [IsPlural, h.endsInAnyCase_append_self hsmall]
  exact (and_iff_right rfl).trans
    (iff_of_eq (congrArg (· = false) (h.endsInAnyCase_append hsmall "s")))

/-- What ends in `es` counts as plural. -/
theorem IsAscii.isPlural_append_es {text : String} (h : IsAscii text) :
    IsPlural (text ++ "es") := by
  have he : endsInAnyCase (text ++ "e") "e" = true := h.endsInAnyCase_append_self (by decide)
  have hascii : IsAscii (text ++ "e") := by
    intro c hc
    rw [String.toList_append, List.mem_append] at hc
    exact hc.elim (h c) ((by decide : IsSmall "e").isAscii c)
  have hes : text ++ "es" = text ++ "e" ++ "s" := by
    rw [String.append_assoc]
    rfl
  rw [hes, hascii.isPlural_append_s_iff]
  exact endsInAnyCase_eq_false he (by decide) (by decide) (by decide)

/-- A word that is no plural and takes no `es` does not end in `s`. -/
theorem endsInAnyCase_s_eq_false {word : String} (hsingular : ¬ IsPlural word)
    (hes : sibilants.any (endsInAnyCase word) = false) : endsInAnyCase word "s" = false := by
  rw [List.any_eq_false] at hes
  have hss : endsInAnyCase word "ss" = false := Bool.eq_false_iff.mpr (hes "ss" (by decide))
  rw [Bool.eq_false_iff]
  exact fun hs => hsingular ⟨hs, hss⟩

/-- The plural of an ASCII word counts as plural. -/
theorem Inflects.isPlural {word plural : String} (hword : IsAscii word)
    (h : Inflects word plural) : IsPlural plural := by
  cases h with
  | same hplural => exact hplural
  | ies =>
      have hstem : IsAscii (dropLastChars 1 word ++ "i") := by
        intro c hc
        rw [String.toList_append, List.mem_append, dropLastChars, String.toList_ofList] at hc
        exact hc.elim (fun hmem => hword c (List.mem_of_mem_take hmem))
          ((by decide : IsSmall "i").isAscii c)
      have hies : dropLastChars 1 word ++ "ies" = dropLastChars 1 word ++ "i" ++ "es" := by
        rw [String.append_assoc]
        rfl
      rw [hies]
      exact hstem.isPlural_append_es
  | es => exact hword.isPlural_append_es
  | s hsingular hes =>
      rw [hword.isPlural_append_s_iff]
      exact endsInAnyCase_s_eq_false hsingular hes

/-- Forming the plural of an ASCII text twice is forming it once. -/
theorem IsAscii.pluralize_pluralize {text : String} (h : IsAscii text) :
    pluralize (pluralize text) = pluralize text := by
  by_cases hempty : text = ""
  · subst hempty
    rfl
  · exact pluralize_of_isPlural ((inflects_pluralize hempty).isPlural h)

/-! ## Singulars of plurals -/

/-- Characters that were added are dropped first. -/
theorem dropLastChars_add {k : Nat} {back : String} (h : back.toList.length = k) (n : Nat)
    (text : String) : dropLastChars (n + k) (text ++ back) = dropLastChars n text := by
  rw [dropLastChars, dropLastChars, String.toList_append, List.length_append, h,
    Nat.add_sub_add_right, List.take_append_of_le_length (Nat.sub_le _ _)]

@[simp] theorem dropLastChars_zero (text : String) : dropLastChars 0 text = text := by
  rw [dropLastChars, Nat.sub_zero, List.take_length, String.ofList_toList]

theorem dropLastChars_append_self {k : Nat} {back : String} (h : back.toList.length = k)
    (text : String) : dropLastChars k (text ++ back) = text := by
  have hdrop := dropLastChars_add h 0 text
  rwa [Nat.zero_add, dropLastChars_zero] at hdrop

theorem singularize_append_ies {stem : String} (h : IsAscii stem) (hne : stem ≠ "") :
    singularize (stem ++ "ies") = stem ++ "y" := by
  have hsize : 3 < (stem ++ "ies").utf8ByteSize := by
    have hpos : stem.utf8ByteSize ≠ 0 := fun hzero => hne (String.utf8ByteSize_eq_zero_iff.mp hzero)
    have hies : "ies".utf8ByteSize = 3 := rfl
    rw [String.utf8ByteSize_append, hies]
    omega
  have hdrop : dropLastChars 3 (stem ++ "ies") = stem := dropLastChars_append_self rfl stem
  rw [singularize, h.endsInAnyCase_append_self (by decide), decide_eq_true hsize, Bool.and_self,
    if_pos rfl, hdrop]

theorem singularize_append_es {word : String} (h : IsAscii word)
    (hes : sibilants.any (endsInAnyCase word) = true) : singularize (word ++ "es") = word := by
  have hies : endsInAnyCase (word ++ "es") "ies" = false := by
    obtain ⟨suffix, hmem, hsuffix⟩ := List.any_eq_true.mp hes
    have hlast : ∀ suffix ∈ sibilants, suffix.toList.getLast? ≠ "i".toList.getLast? ∧
        suffix.toList ≠ [] := by decide
    have hi :=
      endsInAnyCase_eq_false hsuffix (hlast suffix hmem).1 (hlast suffix hmem).2 (by decide)
    rw [← hi]
    exact h.endsInAnyCase_append (by decide) "i"
  have hsibilants : ["sses", "xes", "zes", "ches", "shes"].any (endsInAnyCase (word ++ "es")) =
      true := by
    rw [← hes]
    exact h.any_endsInAnyCase_append (by decide) sibilants
  have hdrop : dropLastChars 2 (word ++ "es") = word := dropLastChars_append_self rfl word
  rw [singularize, hies, hsibilants, Bool.false_and, if_neg Bool.false_ne_true, if_pos rfl, hdrop]

/-- The endings that with an `s` behind them read like the plural of a word that takes `es`. -/
def hissingStems : List String := ["sse", "xe", "ze", "che", "she"]

theorem singularize_append_s {word : String} (h : IsAscii word) (hne : word ≠ "")
    (hs : endsInAnyCase word "s" = false) :
    singularize (word ++ "s") =
      if endsInAnyCase word "ie" = true ∧ 2 < word.utf8ByteSize then dropLastChars 2 word ++ "y"
      else if hissingStems.any (endsInAnyCase word) = true then dropLastChars 1 word
      else word := by
  have hies : endsInAnyCase (word ++ "s") "ies" = endsInAnyCase word "ie" :=
    h.endsInAnyCase_append (by decide) "ie"
  have hhissing : ["sses", "xes", "zes", "ches", "shes"].any (endsInAnyCase (word ++ "s")) =
      hissingStems.any (endsInAnyCase word) :=
    h.any_endsInAnyCase_append (by decide) hissingStems
  have hpos : word.utf8ByteSize ≠ 0 := fun hzero => hne (String.utf8ByteSize_eq_zero_iff.mp hzero)
  have hsize : (word ++ "s").utf8ByteSize = word.utf8ByteSize + 1 := by
    rw [String.utf8ByteSize_append]
    rfl
  obtain ⟨hplural, hsingle⟩ := h.isPlural_append_s_iff.mpr hs
  have hlong : 1 < word.utf8ByteSize + 1 := by omega
  have hlonger : 3 < word.utf8ByteSize + 1 ↔ 2 < word.utf8ByteSize := by omega
  have hdrop (n : Nat) : dropLastChars (n + 1) (word ++ "s") = dropLastChars n word :=
    dropLastChars_add rfl n word
  rw [singularize, hies, hhissing, hplural, hsingle, hsize, hdrop 2, hdrop 1, hdrop 0,
    dropLastChars_zero]
  simp only [Bool.and_eq_true, decide_eq_true_eq, hlonger, hlong, Bool.not_false, and_self, if_true]

/-- What the singular of a word with an `s` has is no longer than the word. -/
theorem length_singularize_append_s_le {word : String} (h : IsAscii word) (hne : word ≠ "")
    (hs : endsInAnyCase word "s" = false) :
    (singularize (word ++ "s")).toList.length ≤ word.toList.length := by
  have hpos : 0 < word.toList.length :=
    List.length_pos_of_ne_nil fun hnil => hne (String.toList_eq_nil_iff.mp hnil)
  have hdrop (n : Nat) : (dropLastChars n word).toList.length = word.toList.length - n := by
    rw [dropLastChars, String.toList_ofList, List.length_take]
    omega
  rw [singularize_append_s h hne hs]
  split
  · rw [String.toList_append, List.length_append, hdrop]
    show word.toList.length - 2 + 1 ≤ word.toList.length
    omega
  · split
    · rw [hdrop]
      omega
    · exact le_refl _

/-- What a word is like whose plural leads back to it, the lone `s` apart. -/
structure LeadsBack (word : String) : Prop where
  ne_y : word ≠ "y"
  /-- It does not end in a single `s`. -/
  singular : ¬ (endsWith word "s" = true ∧ endsWith word "ss" = false)
  /-- It does not end in `ie`, unless that is all. -/
  ie : endsWith word "ie" = true → word = "ie"
  /-- It does not end like the plural of a word that takes `es`. -/
  hissing : ∀ suffix ∈ hissingStems, endsWith word suffix = false

theorem IsSmall.isPlural_iff {word : String} (h : IsSmall word) :
    IsPlural word ↔ endsWith word "s" = true ∧ endsWith word "ss" = false := by
  rw [IsPlural, h.endsInAnyCase_eq, h.endsInAnyCase_eq]

/-- A word is led back to if no `e` stands at its end. -/
theorem LeadsBack.of_suffix {word suffix : String} (h : IsSmall word) (hy : word ≠ "y")
    (hsingular : ¬ IsPlural word) (hsuffix : endsInAnyCase word suffix = true)
    (hne : suffix.toList ≠ []) (hlast : suffix.toList.getLast? ≠ some 'e') : LeadsBack word := by
  have hends : ∀ other ∈ "ie" :: hissingStems, other.toList.getLast? = some 'e' ∧
      other.toList ≠ [] := by
    decide
  have hother : ∀ other ∈ "ie" :: hissingStems, endsWith word other = false := by
    intro other hmem
    rw [← h.endsInAnyCase_eq]
    exact endsInAnyCase_eq_false hsuffix ((hends other hmem).1 ▸ hlast) hne (hends other hmem).2
  rw [List.forall_mem_cons] at hother
  refine ⟨hy, h.isPlural_iff.not.mp hsingular, ?_, hother.2⟩
  intro hie
  rw [hother.1] at hie
  exact absurd hie Bool.false_ne_true

/-- A small word that counts as plural loses its end, unless it has nothing else. -/
theorem IsSmall.singularize_eq_self_iff {word : String} (h : IsSmall word)
    (hplural : IsPlural word) : singularize word = word ↔ word = "s" := by
  obtain ⟨stem, rfl, hstem⟩ := h.exists_stem hplural.1
  by_cases hempty : stem = ""
  · subst hempty
    exact iff_of_true rfl rfl
  · refine iff_of_false ?_ fun heq => hempty (String.append_eq_right_iff.mp heq)
    intro heq
    have hle := length_singularize_append_s_le hstem.isAscii hempty
      (hstem.isAscii.isPlural_append_s_iff.mp hplural)
    rw [heq, String.toList_append, List.length_append] at hle
    exact absurd hle (Nat.not_succ_le_self _)

/-- A text in `ie` is longer than that if it is another one. -/
theorem endsWith_ie_and_long_iff {word : String} :
    endsWith word "ie" = true ∧ 2 < word.utf8ByteSize ↔
      endsWith word "ie" = true ∧ word ≠ "ie" := by
  refine and_congr_right fun hends => ?_
  obtain ⟨stem, rfl⟩ := exists_append_of_endsWith hends
  have hsize : (stem ++ "ie").utf8ByteSize = stem.utf8ByteSize + 2 := by
    rw [String.utf8ByteSize_append]
    rfl
  rw [hsize, Ne, String.append_eq_right_iff, ← String.utf8ByteSize_eq_zero_iff]
  omega

/-- Where the `s` behind a small word is taken off again and nothing else. -/
theorem IsSmall.singularize_append_s_eq_iff {word : String} (h : IsSmall word) (hne : word ≠ "")
    (hs : endsInAnyCase word "s" = false) :
    singularize (word ++ "s") = word ↔
      (endsWith word "ie" = true → word = "ie") ∧
        ∀ suffix ∈ hissingStems, endsWith word suffix = false := by
  have hhissing : hissingStems.any (endsInAnyCase word) = true ↔
      ¬ ∀ suffix ∈ hissingStems, endsWith word suffix = false := by
    rw [List.any_eq_true]
    simp [h.endsInAnyCase_eq]
  have hpos : 0 < word.toList.length :=
    List.length_pos_of_ne_nil fun hnil => hne (String.toList_eq_nil_iff.mp hnil)
  rw [singularize_append_s h.isAscii hne hs, h.endsInAnyCase_eq]
  split
  · next hie =>
    rw [endsWith_ie_and_long_iff] at hie
    -- the plural reads like that of a word in `y`
    refine iff_of_false ?_ fun hback => hie.2 (hback.1 hie.1)
    obtain ⟨stem, rfl⟩ := exists_append_of_endsWith hie.1
    have hdrop : dropLastChars 2 (stem ++ "ie") = stem := dropLastChars_append_self rfl stem
    rw [hdrop, String.append_right_inj]
    decide
  · next hie =>
    rw [endsWith_ie_and_long_iff] at hie
    have hshort : endsWith word "ie" = true → word = "ie" := by simpa using hie
    split
    · next hcut =>
      -- the plural reads like that of a word that takes `es`
      refine iff_of_false ?_ fun hback => hhissing.mp hcut hback.2
      intro heq
      have hlength := congrArg (fun text => text.toList.length) heq
      simp only [dropLastChars, String.toList_ofList, List.length_take] at hlength
      omega
    · next hcut => exact iff_of_true rfl ⟨hshort, not_not.mp (hhissing.not.mp hcut)⟩

/-- Where a small word is the singular of its plural. -/
theorem IsSmall.singularize_pluralize_iff {word : String} (h : IsSmall word) (hne : word ≠ "") :
    singularize (pluralize word) = word ↔ word = "s" ∨ LeadsBack word := by
  have hs : ¬ IsPlural word → word ≠ "s" := by
    rintro hsingular rfl
    exact hsingular (by decide)
  have hinflects := inflects_pluralize hne
  generalize pluralize word = plural at hinflects ⊢
  cases hinflects with
  | same hplural =>
      rw [h.singularize_eq_self_iff hplural]
      exact (or_iff_left fun hback => hback.singular (h.isPlural_iff.mp hplural)).symm
  | ies hsingular hy =>
      rw [or_iff_right (hs hsingular)]
      obtain ⟨stem, rfl, hstem⟩ := h.exists_stem hy
      have hdrop : dropLastChars 1 (stem ++ "y") = stem := dropLastChars_append_self rfl stem
      rw [hdrop]
      by_cases hempty : stem = ""
      · -- the plural `ies` is too short to be one of `y`
        subst hempty
        exact iff_of_false (by decide) fun hback => hback.ne_y rfl
      · refine iff_of_true (singularize_append_ies hstem.isAscii hempty) ?_
        have hlone : stem ++ "y" ≠ "y" := fun heq => hempty (String.append_eq_right_iff.mp heq)
        exact .of_suffix h hlone hsingular hy (by decide) (by decide)
  | es hsingular hes =>
      have hends : ∀ suffix ∈ sibilants, suffix.toList ≠ [] ∧
          suffix.toList.getLast? ≠ some 'e' := by
        decide
      have hlone : word ≠ "y" := by
        rintro rfl
        exact absurd hes (by decide)
      obtain ⟨suffix, hmem, hsuffix⟩ := List.any_eq_true.mp hes
      refine iff_of_true (singularize_append_es h.isAscii hes) (.inr ?_)
      exact .of_suffix h hlone hsingular hsuffix (hends suffix hmem).1 (hends suffix hmem).2
  | s hsingular hes hy =>
      have hlone : word ≠ "y" := by
        rintro rfl
        exact hy (by decide)
      rw [or_iff_right (hs hsingular),
        h.singularize_append_s_eq_iff hne (endsInAnyCase_s_eq_false hsingular hes)]
      constructor
      · rintro ⟨hie, hhissing⟩
        exact ⟨hlone, h.isPlural_iff.not.mp hsingular, hie, hhissing⟩
      · intro hback
        exact ⟨hback.ie, hback.hissing⟩

/-- Small letters make a small text. -/
theorem isSmall_of_letters {word : String} (h : ∀ c ∈ word.toList, 'a' ≤ c ∧ c ≤ 'z') :
    IsSmall word := by
  intro c hc
  left
  obtain ⟨hlow, hhigh⟩ := h c hc
  simp [isWordLetter, hlow, hhigh]

/-- Forming the plural of an ASCII text twice is forming it once; and a word of small letters is the
singular of its plural exactly where it is the lone `s` or its plural leads back. -/
theorem pluralize_pluralize_and_singularize_pluralize_iff :
    (∀ text : String, (∀ c ∈ text.toList, c.toNat < 128) →
      pluralize (pluralize text) = pluralize text) ∧
    ∀ word : String, word ≠ "" → (∀ c ∈ word.toList, 'a' ≤ c ∧ c ≤ 'z') →
      (singularize (pluralize word) = word ↔ word = "s" ∨ LeadsBack word) := by
  constructor
  · intro text htext
    exact IsAscii.pluralize_pluralize htext
  · intro word hne hletters
    exact (isSmall_of_letters hletters).singularize_pluralize_iff hne

theorem singularize_pluralize_category :
    (∀ c ∈ "Boxes".toList, c.toNat < 128) ∧ pluralize (pluralize "Boxes") = pluralize "Boxes" ∧
      "category" ≠ "" ∧ (∀ c ∈ "category".toList, 'a' ≤ c ∧ c ≤ 'z') ∧ LeadsBack "category" ∧
      singularize (pluralize "category") = "category" := by
  have hascii : ∀ c ∈ "Boxes".toList, c.toNat < 128 := by simp
  have hletters : ∀ c ∈ "category".toList, 'a' ≤ c ∧ c ≤ 'z' := by simp
  have hne : "category" ≠ "" := by decide
  have hback : LeadsBack "category" := ⟨by decide, by decide, by decide, by decide⟩
  obtain ⟨htwice, hiff⟩ := pluralize_pluralize_and_singularize_pluralize_iff
  exact ⟨hascii, htwice "Boxes" hascii, hne, hletters, hback,
    (hiff "category" hne hletters).mpr (.inr hback)⟩

/-- The plural of a word in `ie` is taken for that of a word in `y`. -/
example : singularize (pluralize "movie") = "movy" := by
  decide

end AnnotatedApi.Text
