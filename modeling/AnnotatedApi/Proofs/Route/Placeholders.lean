import AnnotatedApi.Proofs.Text.Blank
import AnnotatedApi.Route.Address

/-! # Templates of addresses

The texts between braces in an address are its templates. The placeholders that parameters are made
of are read off the same braces, but without the mark of an optional one and without blanks around
the name. The two readings give the same names when every template is plain: when there is
nothing to take off. -/

namespace AnnotatedApi.Route

/-! ## Templates -/

/-- What stands between each opening brace and the next closing one, in order. -/
def templatesFrom : List Char → List (List Char)
  | [] => []
  | c :: rest =>
      if c = '\x7b' ∧ '\x7d' ∈ rest then rest.takeWhile (· ≠ '\x7d') :: templatesFrom rest
      else templatesFrom rest

/-- The templates of an address, in order. -/
def templateNames (path : String) : List String :=
  (templatesFrom path.toList).map String.ofList

/-- A text is a template when its characters are. -/
theorem mem_templateNames_iff {name path : String} :
    name ∈ templateNames path ↔ name.toList ∈ templatesFrom path.toList := by
  rw [templateNames, List.mem_map]
  constructor
  · rintro ⟨chars, hchars, rfl⟩
    rw [String.toList_ofList]
    exact hchars
  · intro h
    exact ⟨name.toList, h, String.ofList_toList⟩

/-- What holds of all templates as characters holds of all as texts. -/
theorem forall_mem_templateNames_iff {P : List Char → Prop} {path : String} :
    (∀ name ∈ templateNames path, P name.toList) ↔
      ∀ template ∈ templatesFrom path.toList, P template := by
  simp only [templateNames, List.forall_mem_map, String.toList_ofList]

/-- Characters before a closing brace are what stands before it. -/
theorem takeWhile_brace {name : List Char} (h : '\x7d' ∉ name) (after : List Char) :
    (name ++ '\x7d' :: after).takeWhile (· ≠ '\x7d') = name := by
  rw [List.takeWhile_append_of_pos, List.takeWhile_cons_of_neg (by simp), List.append_nil]
  intro c hc
  exact decide_eq_true (ne_of_mem_of_not_mem hc h)

/-- A template is opened by the first character or stands in the rest. -/
theorem mem_templatesFrom_cons_iff {name rest : List Char} {c : Char} :
    name ∈ templatesFrom (c :: rest) ↔
      (c = '\x7b' ∧ '\x7d' ∉ name ∧ ∃ after, rest = name ++ '\x7d' :: after) ∨
        name ∈ templatesFrom rest := by
  rw [templatesFrom]
  split
  · next hopen =>
    obtain ⟨front, back, rfl, hfront⟩ := List.eq_append_cons_of_mem hopen.2
    rw [takeWhile_brace hfront, List.mem_cons]
    refine or_congr_left ?_
    constructor
    · rintro rfl
      exact ⟨hopen.1, hfront, back, rfl⟩
    · rintro ⟨-, hclosed, after, hcut⟩
      exact (Text.eq_of_append_cons hclosed hfront hcut.symm).1
  · next hclosed =>
    refine ⟨.inr, ?_⟩
    rintro (⟨hopen, -, after, rfl⟩ | hmem)
    · exact absurd ⟨hopen, by simp⟩ hclosed
    · exact hmem

/-- A template is what a pair of braces encloses. -/
theorem mem_templatesFrom_iff {name chars : List Char} :
    name ∈ templatesFrom chars ↔
      '\x7d' ∉ name ∧ ∃ before after, chars = before ++ '\x7b' :: (name ++ '\x7d' :: after) := by
  induction chars with
  | nil => simp [templatesFrom]
  | cons c rest ih =>
      rw [mem_templatesFrom_cons_iff, ih]
      constructor
      · rintro (⟨rfl, hclosed, after, rfl⟩ | ⟨hclosed, before, after, rfl⟩)
        · exact ⟨hclosed, [], after, rfl⟩
        · exact ⟨hclosed, c :: before, after, rfl⟩
      · rintro ⟨hclosed, before, after, hcut⟩
        cases before with
        | nil =>
            obtain ⟨rfl, rfl⟩ := List.cons.inj hcut
            exact .inl ⟨rfl, hclosed, after, rfl⟩
        | cons b before =>
            exact .inr ⟨hclosed, before, after, (List.cons.inj hcut).2⟩

/-- Templates are there still when something stands in front. -/
theorem mem_templatesFrom_append {name chars : List Char} (h : name ∈ templatesFrom chars)
    (front : List Char) : name ∈ templatesFrom (front ++ chars) := by
  obtain ⟨hclosed, before, after, rfl⟩ := mem_templatesFrom_iff.mp h
  exact mem_templatesFrom_iff.mpr ⟨hclosed, front ++ before, after, by simp⟩

/-- What stands in front without an opening brace has no templates. -/
theorem templatesFrom_append {front : List Char} (h : '\x7b' ∉ front) (chars : List Char) :
    templatesFrom (front ++ chars) = templatesFrom chars := by
  induction front with
  | nil => rfl
  | cons c front ih =>
      have hne : c ≠ '\x7b' := by
        rintro rfl
        exact h List.mem_cons_self
      rw [List.cons_append, templatesFrom, if_neg (fun hopen => hne hopen.1),
        ih (List.not_mem_of_not_mem_cons h)]

/-- The slashes in front of an address are in no template. -/
theorem templateNames_pathOf (uri : String) : templateNames (pathOf uri) = templateNames uri := by
  have hslash : '\x7b' ∉ ['/'] := by decide
  have hslashes : '\x7b' ∉ uri.toList.takeWhile (· = '/') :=
    fun hmem => absurd (List.mem_takeWhile_imp hmem) (by decide)
  have hcut := List.takeWhile_append_dropWhile (p := (· = '/')) (l := uri.toList)
  rw [templateNames, templateNames, pathOf, Text.trimLeadingSlashes, String.toList_append,
    String.toList_ofList, String.toList_ofList, templatesFrom_append hslash]
  conv_rhs => rw [← hcut, templatesFrom_append hslashes]

/-! ## Placeholders -/

/-- The closing brace follows a name at once or after its mark. -/
theorem dropMark_eq_cons_iff {chars after : List Char} :
    dropMark chars = '\x7d' :: after ↔
      chars = '\x7d' :: after ∨ chars = '?' :: '\x7d' :: after := by
  fun_cases dropMark chars with
  | case1 rest => simp
  | case2 _ hmark =>
      refine ⟨.inl, ?_⟩
      rintro (h | h)
      · exact h
      · exact absurd h (hmark _)

/-- A placeholder is a name that is not empty, then its mark or nothing, then the closing brace. -/
theorem placeholder?_eq_some_iff {chars name after : List Char} :
    placeholder? chars = some (name, after) ↔
      name ≠ [] ∧ (∀ c ∈ name, isNameChar c = true) ∧
        (chars = name ++ '\x7d' :: after ∨ chars = name ++ '?' :: '\x7d' :: after) := by
  -- what is read is the name, and what is left starts with the mark or the closing brace
  have hcut := List.takeWhile_append_dropWhile (p := isNameChar) (l := chars)
  constructor
  · intro h
    simp only [placeholder?] at h
    split at h
    · next rest hrest =>
      split at h
      · simp at h
      · next hne =>
        rw [Option.some.injEq, Prod.mk.injEq] at h
        obtain ⟨hname, rfl⟩ := h
        rw [hname] at hne hcut
        refine ⟨by simpa using hne, ?_, ?_⟩
        · rw [← hname]
          exact fun c hc => List.mem_takeWhile_imp hc
        · rcases dropMark_eq_cons_iff.mp hrest with hdrop | hdrop
          · rw [hdrop] at hcut
            exact .inl hcut.symm
          · rw [hdrop] at hcut
            exact .inr hcut.symm
    · simp at h
  · rintro ⟨hne, hall, rfl | rfl⟩
    · simp [placeholder?, List.takeWhile_append_of_pos hall, List.dropWhile_append_of_pos hall,
        isNameChar, dropMark, hne]
    · simp [placeholder?, List.takeWhile_append_of_pos hall, List.dropWhile_append_of_pos hall,
        isNameChar, dropMark, hne]

/-- A placeholder is read at its opening brace. -/
theorem placeholdersFrom_cons_of_some {chars name after : List Char}
    (h : placeholder? chars = some (name, after)) :
    placeholdersFrom ('\x7b' :: chars) = name :: placeholdersFrom after := by
  rw [placeholdersFrom, if_pos rfl]
  split
  · next name' after' hsome =>
    rw [h, Option.some.injEq, Prod.mk.injEq] at hsome
    rw [hsome.1, hsome.2]
  · next hnone =>
    rw [h] at hnone
    exact absurd hnone (Option.some_ne_none _)

/-- Text without opening braces has no placeholders. -/
theorem placeholdersFrom_append {front : List Char} (h : '\x7b' ∉ front) (chars : List Char) :
    placeholdersFrom (front ++ chars) = placeholdersFrom chars := by
  induction front with
  | nil => rfl
  | cons c front ih =>
      have hne : c ≠ '\x7b' := by
        rintro rfl
        exact h List.mem_cons_self
      rw [List.cons_append, placeholdersFrom, if_neg hne, ih (List.not_mem_of_not_mem_cons h)]

/-- A placeholder is read off a template: its name, with or without a mark. -/
theorem exists_template_of_placeholder? {chars name after : List Char}
    (h : placeholder? chars = some (name, after)) :
    ∃ template, (template = name ∨ template = name ++ ['?']) ∧ '\x7d' ∉ template ∧
      chars = template ++ '\x7d' :: after := by
  obtain ⟨-, hall, hcut⟩ := placeholder?_eq_some_iff.mp h
  have hclosed : '\x7d' ∉ name := fun hmem => absurd (hall _ hmem) (by decide)
  rcases hcut with rfl | rfl
  · exact ⟨name, .inl rfl, hclosed, rfl⟩
  · exact ⟨name ++ ['?'], .inr rfl, by simpa using hclosed, by simp⟩

/-- Every placeholder is a template, with or without its mark. -/
theorem mem_templatesFrom_of_mem_placeholdersFrom {name chars : List Char}
    (h : name ∈ placeholdersFrom chars) :
    name ≠ [] ∧ (∀ c ∈ name, isNameChar c = true) ∧
      (name ∈ templatesFrom chars ∨ name ++ ['?'] ∈ templatesFrom chars) := by
  -- each step of the recursion goes on behind some characters
  have hbehind : ∀ {rest : List Char} (front : List Char),
      (name ∈ templatesFrom rest ∨ name ++ ['?'] ∈ templatesFrom rest) →
        name ∈ templatesFrom (front ++ rest) ∨ name ++ ['?'] ∈ templatesFrom (front ++ rest) :=
    fun front => Or.imp (mem_templatesFrom_append · front) (mem_templatesFrom_append · front)
  fun_induction placeholdersFrom chars with
  | case1 => exact absurd h List.not_mem_nil
  | case2 rest first after hfirst _ ih =>
      obtain ⟨template, htemplate, hclosed, hcut⟩ := exists_template_of_placeholder? hfirst
      rcases List.mem_cons.mp h with rfl | hafter
      · obtain ⟨hne, hall, -⟩ := placeholder?_eq_some_iff.mp hfirst
        have hmem : template ∈ templatesFrom ('\x7b' :: rest) :=
          mem_templatesFrom_cons_iff.mpr (.inl ⟨rfl, hclosed, after, hcut⟩)
        refine ⟨hne, hall, ?_⟩
        rcases htemplate with rfl | rfl
        · exact .inl hmem
        · exact .inr hmem
      · obtain ⟨hne, hall, hlater⟩ := ih hafter
        refine ⟨hne, hall, ?_⟩
        rw [hcut]
        simpa using hbehind ('\x7b' :: template ++ ['\x7d']) hlater
  | case3 rest _ ih =>
      obtain ⟨hne, hall, hlater⟩ := ih h
      exact ⟨hne, hall, hbehind ['\x7b'] hlater⟩
  | case4 c rest _ ih =>
      obtain ⟨hne, hall, hlater⟩ := ih h
      exact ⟨hne, hall, hbehind [c] hlater⟩

/-- A template that is a name is a placeholder, when no brace opens in a template. -/
theorem mem_placeholdersFrom {name chars : List Char}
    (hunnested : ∀ template ∈ templatesFrom chars, '\x7b' ∉ template)
    (h : name ∈ templatesFrom chars) (hne : name ≠ []) (hmark : '?' ∉ name) :
    name ∈ placeholdersFrom chars := by
  fun_induction placeholdersFrom chars with
  | case1 => exact absurd h List.not_mem_nil
  | case2 rest first after hfirst _ ih =>
      obtain ⟨template, htemplate, hclosed, rfl⟩ := exists_template_of_placeholder? hfirst
      -- no template starts within the one that was read, so the rest of them start behind it
      have hfront : '\x7b' ∉ template ++ ['\x7d'] := by
        have hopen := hunnested template
          (mem_templatesFrom_cons_iff.mpr (.inl ⟨rfl, hclosed, after, rfl⟩))
        simpa using hopen
      have hafter : templatesFrom (template ++ '\x7d' :: after) = templatesFrom after := by
        rw [List.append_cons]
        exact templatesFrom_append hfront after
      rcases mem_templatesFrom_cons_iff.mp h with ⟨-, hname, _, hcut⟩ | hmem
      · obtain ⟨rfl, -⟩ := Text.eq_of_append_cons hclosed hname hcut
        rcases htemplate with rfl | rfl
        · exact List.mem_cons_self
        · exact absurd (by simp) hmark
      · rw [hafter] at hmem
        refine List.mem_cons_of_mem _ (ih ?_ hmem)
        intro other hother
        rw [← hafter] at hother
        exact hunnested other (mem_templatesFrom_cons_iff.mpr (.inr hother))
  | case3 rest hnone ih =>
      rcases mem_templatesFrom_cons_iff.mp h with ⟨-, hclosed, after, hcut⟩ | hmem
      · -- what stands between the braces would have been read
        have hall : ∀ c ∈ name, isNameChar c = true := by
          intro c hc
          simp [isNameChar, ne_of_mem_of_not_mem hc hclosed, ne_of_mem_of_not_mem hc hmark]
        have hsome := placeholder?_eq_some_iff.mpr ⟨hne, hall, .inl hcut⟩
        rw [hnone] at hsome
        exact absurd hsome (by simp)
      · exact ih (fun other hother =>
          hunnested other (mem_templatesFrom_cons_iff.mpr (.inr hother))) hmem
  | case4 c rest hclosed ih =>
      rcases mem_templatesFrom_cons_iff.mp h with ⟨hopen, -⟩ | hmem
      · exact absurd hopen hclosed
      · exact ih (fun other hother =>
          hunnested other (mem_templatesFrom_cons_iff.mpr (.inr hother))) hmem

/-! ## Both readings -/

/-- Characters from which the name of a placeholder takes nothing off. -/
structure IsPlain (template : List Char) : Prop where
  /-- There is a name. -/
  ne_nil : template ≠ []
  /-- There is no mark. -/
  unmarked : '?' ∉ template
  /-- There are no blanks around the name. -/
  trimmed : Text.IsTrimmed template

theorem isPlain_iff {template : List Char} :
    IsPlain template ↔
      template ≠ [] ∧ '?' ∉ template ∧ Text.trimChars template = template := by
  rw [Text.trimChars_eq_self_iff]
  exact ⟨fun ⟨hne, hmark, htrim⟩ => ⟨hne, hmark, htrim⟩,
    fun ⟨hne, hmark, htrim⟩ => ⟨hne, hmark, htrim⟩⟩

instance : DecidablePred IsPlain := fun _ => decidable_of_iff _ isPlain_iff.symm

/-- The templates and the placeholders of an address have the same names. -/
def ReadsAlike (uri : String) : Prop :=
  ∀ name, name ∈ templateNames uri ↔ name ∈ placeholderNames uri

/-- A name is read off a placeholder by trimming it. -/
theorem mem_placeholderNames_iff {name uri : String} :
    name ∈ placeholderNames uri ↔
      ∃ placeholder ∈ placeholdersFrom uri.toList, Text.trimChars placeholder = name.toList := by
  rw [placeholderNames, List.mem_map]
  refine exists_congr fun placeholder => and_congr_right fun _ => ?_
  rw [← String.toList_inj, String.toList_ofList]

/-- Where both readings agree, every template is plain. -/
theorem isPlain_of_readsAlike {uri : String} (h : ReadsAlike uri) :
    ∀ name ∈ templateNames uri, IsPlain name.toList := by
  have hread : ∀ template ∈ templatesFrom uri.toList, ∃ placeholder ∈ placeholdersFrom uri.toList,
      Text.trimChars placeholder = template := by
    intro template htemplate
    have hname := h (String.ofList template)
    rw [mem_templateNames_iff, mem_placeholderNames_iff, String.toList_ofList] at hname
    exact hname.mp htemplate
  have hunmarked : ∀ template ∈ templatesFrom uri.toList, '?' ∉ template := by
    intro template htemplate hmark
    obtain ⟨placeholder, hplaceholder, rfl⟩ := hread template htemplate
    obtain ⟨-, hall, -⟩ := mem_templatesFrom_of_mem_placeholdersFrom hplaceholder
    exact absurd (hall _ (Text.trimChars_subset _ hmark)) (by decide)
  have htrimmed : ∀ template ∈ templatesFrom uri.toList, Text.IsTrimmed template := by
    intro template htemplate
    obtain ⟨placeholder, -, rfl⟩ := hread template htemplate
    exact Text.isTrimmed_trimChars placeholder
  rw [forall_mem_templateNames_iff]
  intro template hmem
  refine ⟨?_, hunmarked _ hmem, htrimmed _ hmem⟩
  rintro rfl
  -- only a blank placeholder has no name, and its template is not trimmed or has a mark
  obtain ⟨placeholder, hplaceholder, htrim⟩ := hread _ hmem
  obtain ⟨hne, -, htemplate | htemplate⟩ :=
    mem_templatesFrom_of_mem_placeholdersFrom hplaceholder
  · rw [(htrimmed _ htemplate).trimChars_eq] at htrim
    exact hne htrim
  · exact hunmarked _ htemplate (by simp)

/-- The two readings of an address agree exactly when every template is plain, provided that no
brace opens in a template. -/
theorem readsAlike_iff {uri : String}
    (hunnested : ∀ name ∈ templateNames uri, '\x7b' ∉ name.toList) :
    ReadsAlike uri ↔ ∀ name ∈ templateNames uri, IsPlain name.toList := by
  refine ⟨isPlain_of_readsAlike, ?_⟩
  intro hplain name
  rw [forall_mem_templateNames_iff (P := ('\x7b' ∉ ·))] at hunnested
  rw [forall_mem_templateNames_iff] at hplain
  rw [mem_templateNames_iff, mem_placeholderNames_iff]
  constructor
  · intro hname
    obtain ⟨hne, hmark, htrimmed⟩ := hplain _ hname
    exact ⟨name.toList, mem_placeholdersFrom hunnested hname hne hmark, htrimmed.trimChars_eq⟩
  · rintro ⟨placeholder, hplaceholder, htrim⟩
    obtain ⟨-, -, htemplate | htemplate⟩ :=
      mem_templatesFrom_of_mem_placeholdersFrom hplaceholder
    · rw [(hplain _ htemplate).trimmed.trimChars_eq] at htrim
      rw [← htrim]
      exact htemplate
    · -- a plain template has no mark
      exact absurd (by simp) (hplain _ htemplate).unmarked

end AnnotatedApi.Route
