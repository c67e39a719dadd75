import AnnotatedApi.Text.Blank
import Mathlib.Data.List.DropRight

/-! # Laws of trimming and affixes

Trimmed characters have no blank at either end. Trimming always gives such characters and leaves
such characters alone, so it can be done once or many times. An affix is told apart from a text by
the relations on lists: what is stripped in front is a prefix, and the last segment of a path is a
suffix. -/

namespace AnnotatedApi.Text

/-! ## Trimming -/

/-- Characters without a blank at either end. -/
structure IsTrimmed (chars : List Char) : Prop where
  /-- The first character is no blank. -/
  head : ∀ c ∈ chars.head?, isBlank c = false
  /-- The last character is no blank. -/
  last : ∀ c ∈ chars.getLast?, isBlank c = false

/-- Dropping from the end is the library's function of that name. -/
theorem dropEndWhile_eq_rdropWhile (p : Char → Bool) (chars : List Char) :
    dropEndWhile p chars = chars.rdropWhile p := rfl

/-- Dropping goes on in the first part only if it drops all of the second one. -/
theorem dropEndWhile_append (p : Char → Bool) (front back : List Char) :
    dropEndWhile p (front ++ back) =
      if dropEndWhile p back = [] then dropEndWhile p front else front ++ dropEndWhile p back := by
  simp only [dropEndWhile, List.reverse_append, List.dropWhile_append, List.isEmpty_iff,
    List.reverse_eq_nil_iff]
  split
  · rfl
  · rw [List.reverse_append, List.reverse_reverse]

/-- Dropping stops at an element that is not dropped. -/
theorem dropEndWhile_append_cons {p : Char → Bool} {c : Char} (h : p c = false)
    (front back : List Char) :
    dropEndWhile p (front ++ c :: back) = front ++ c :: dropEndWhile p back := by
  have hsingle : dropEndWhile p [c] = [c] := by simp [dropEndWhile, h]
  have hcons : dropEndWhile p (c :: back) = c :: dropEndWhile p back := by
    rw [← List.singleton_append, dropEndWhile_append, hsingle]
    split
    · next hnil => rw [hnil]
    · rfl
  rw [dropEndWhile_append, hcons, if_neg (List.cons_ne_nil _ _)]

/-- What is left after dropping stays when more is dropped behind it. -/
theorem dropEndWhile_dropEndWhile_append (p : Char → Bool) (front back : List Char) :
    dropEndWhile p (dropEndWhile p front ++ back) =
      dropEndWhile p front ++ dropEndWhile p back := by
  rw [dropEndWhile_append]
  split
  · next hnil =>
    rw [hnil, List.append_nil]
    exact List.rdropWhile_idempotent p front
  · rfl

/-- Trimming leaves no blank at either end. -/
theorem isTrimmed_trimChars (chars : List Char) : IsTrimmed (trimChars chars) := by
  rw [trimChars, dropEndWhile_eq_rdropWhile]
  set front := chars.dropWhile isBlank with hfront
  constructor
  · intro c hc
    -- what stands first after both cuts stood first after the first cut
    have hne : front.rdropWhile isBlank ≠ [] := by
      intro hnil
      rw [hnil] at hc
      simp at hc
    have hhead : front.head? = some c := by
      obtain ⟨rest, hrest⟩ := List.rdropWhile_prefix isBlank (l := front)
      rw [← hrest, List.head?_append_of_ne_nil _ hne]
      exact hc
    have hnot := List.head?_dropWhile_not isBlank chars
    rw [← hfront, hhead] at hnot
    simpa using hnot
  · intro c hc
    have hne : front.rdropWhile isBlank ≠ [] := by
      intro hnil
      rw [hnil] at hc
      simp at hc
    have hlast := List.rdropWhile_last_not isBlank front hne
    rw [List.getLast?_eq_some_getLast hne, Option.mem_some_iff] at hc
    rw [hc] at hlast
    simpa using hlast

/-- Trimming keeps no characters that were not there. -/
theorem trimChars_subset (chars : List Char) : trimChars chars ⊆ chars := by
  rw [trimChars, dropEndWhile_eq_rdropWhile]
  exact List.Subset.trans (List.rdropWhile_prefix isBlank _).subset
    (List.dropWhile_suffix isBlank).subset

/-- Trimming leaves trimmed characters alone. -/
theorem IsTrimmed.trimChars_eq {chars : List Char} (h : IsTrimmed chars) :
    trimChars chars = chars := by
  have hfront : chars.dropWhile isBlank = chars := by
    cases chars with
    | nil => rfl
    | cons c rest => exact List.dropWhile_cons_of_neg (by simp [h.head c rfl])
  rw [trimChars, hfront, dropEndWhile_eq_rdropWhile, List.rdropWhile_eq_self_iff]
  intro hne hblank
  have hlast := h.last _ (List.getLast?_eq_some_getLast hne)
  rw [hlast] at hblank
  exact Bool.false_ne_true hblank

/-- Trimming leaves the trimmed characters alone, and no others. -/
theorem trimChars_eq_self_iff {chars : List Char} : trimChars chars = chars ↔ IsTrimmed chars :=
  ⟨fun h => h ▸ isTrimmed_trimChars chars, IsTrimmed.trimChars_eq⟩

instance : DecidablePred IsTrimmed := fun _ => decidable_of_iff _ trimChars_eq_self_iff

@[simp] theorem toList_trim (text : String) : (trim text).toList = trimChars text.toList :=
  String.toList_ofList

/-- Trimming leaves a trimmed text alone. -/
theorem trim_eq_self {text : String} (h : IsTrimmed text.toList) : trim text = text := by
  rw [trim, h.trimChars_eq, String.ofList_toList]

/-- Characters that start without a blank stay trimmed in front, whatever follows. -/
theorem IsTrimmed.append {front back : List Char} (hne : front ≠ []) (hfront : IsTrimmed front)
    (hback : ∀ c ∈ back.getLast?, isBlank c = false) : IsTrimmed (front ++ back) := by
  constructor
  · rw [List.head?_append_of_ne_nil _ hne]
    exact hfront.head
  · intro c hc
    rw [List.getLast?_append] at hc
    cases hlast : back.getLast? with
    | none =>
        rw [hlast, Option.none_or] at hc
        exact hfront.last c hc
    | some last =>
        rw [hlast, Option.some_or, Option.mem_some_iff] at hc
        exact hback c (by rw [hlast, hc]; rfl)

/-- Trimming leaves nothing exactly where there is nothing but blanks. -/
theorem trimChars_eq_nil_iff {chars : List Char} :
    trimChars chars = [] ↔ ∀ c ∈ chars, isBlank c = true := by
  rw [trimChars, dropEndWhile_eq_rdropWhile, List.rdropWhile_eq_nil_iff]
  refine ⟨fun h => ?_, fun h c hc => h c ((List.dropWhile_suffix _).subset hc)⟩
  -- what is left after the cut in front would start with a character that is no blank
  rw [← List.dropWhile_eq_nil_iff]
  by_contra hne
  have hnot := List.head_dropWhile_not isBlank hne
  rw [h _ (List.head_mem hne)] at hnot
  exact absurd hnot (by decide)

/-- A text is trimmed away exactly where it is blank. -/
theorem trim_eq_empty_iff {text : String} : trim text = "" ↔ isBlankText text = true := by
  rw [← String.toList_eq_nil_iff, toList_trim, trimChars_eq_nil_iff, isBlankText,
    List.all_eq_true]

/-! ## Affixes -/

/-- Stripping succeeds exactly on what starts with the front. -/
theorem stripFront?_eq_some_iff {front chars rest : List Char} :
    stripFront? front chars = some rest ↔ chars = front ++ rest := by
  induction front generalizing chars with
  | nil => simp [stripFront?]
  | cons p front ih =>
      cases chars with
      | nil => simp [stripFront?]
      | cons c chars =>
          by_cases h : p = c
          · simp [stripFront?, h, ih]
          · simp [stripFront?, h, Ne.symm h]

/-- A text starts with another exactly when its characters do. -/
theorem startsWith_iff {text front : String} :
    startsWith text front = true ↔ front.toList <+: text.toList := by
  rw [startsWith, Option.isSome_iff_exists]
  constructor
  · rintro ⟨rest, hrest⟩
    exact ⟨rest, (stripFront?_eq_some_iff.mp hrest).symm⟩
  · rintro ⟨rest, hrest⟩
    exact ⟨rest, stripFront?_eq_some_iff.mpr hrest.symm⟩

/-- Stripping at the end succeeds exactly on what ends with the back. -/
theorem stripBack?_eq_some_iff {back chars rest : List Char} :
    stripBack? back chars = some rest ↔ chars = rest ++ back := by
  rw [stripBack?, Option.map_eq_some_iff]
  simp only [stripFront?_eq_some_iff, List.reverse_eq_iff, List.reverse_append,
    List.reverse_reverse]
  constructor
  · rintro ⟨_, hchars, rfl⟩
    rw [hchars, List.reverse_reverse]
  · intro hchars
    exact ⟨rest.reverse, by rw [hchars, List.reverse_reverse], rfl⟩

/-- A text ends with another exactly when its characters do. -/
theorem endsWith_iff {text back : String} :
    endsWith text back = true ↔ back.toList <:+ text.toList := by
  rw [endsWith, Option.isSome_iff_exists]
  simp only [stripBack?_eq_some_iff]
  constructor
  · rintro ⟨rest, hrest⟩
    exact ⟨rest, hrest.symm⟩
  · rintro ⟨rest, hrest⟩
    exact ⟨rest, hrest.symm⟩

/-- A list is cut in one way at the first place of an element. -/
theorem eq_of_append_cons {a : α} {front front' rest rest' : List α} (hfront : a ∉ front)
    (hfront' : a ∉ front') (h : front ++ a :: rest = front' ++ a :: rest') :
    front = front' ∧ rest = rest' := by
  induction front generalizing front' with
  | nil =>
      cases front' with
      | nil => exact ⟨rfl, (List.cons.inj h).2⟩
      | cons b front' =>
          obtain ⟨rfl, -⟩ := List.cons.inj h
          exact absurd List.mem_cons_self hfront'
  | cons b front ih =>
      cases front' with
      | nil =>
          obtain ⟨rfl, -⟩ := List.cons.inj h
          exact absurd List.mem_cons_self hfront
      | cons b' front' =>
          obtain ⟨rfl, hrest⟩ := List.cons.inj h
          obtain ⟨rfl, rfl⟩ := ih (List.not_mem_of_not_mem_cons hfront)
            (List.not_mem_of_not_mem_cons hfront') hrest
          exact ⟨rfl, rfl⟩

/-! ## Segments -/

/-- The last segment is read off the end. -/
theorem lastSegmentFrom_suffix (segment chars : List Char) :
    lastSegmentFrom segment chars <:+ chars.reverse ++ segment := by
  fun_induction lastSegmentFrom segment chars with
  | case1 segment => exact List.suffix_refl _
  | case2 segment rest =>
      exact List.suffix_append _ _
  | case3 segment c rest _ ih =>
      rw [List.reverse_cons, List.append_assoc, List.singleton_append]
      exact ih

/-- The last segment of a path is what the path ends with. -/
theorem lastSegment_suffix (path : String) : (lastSegment path).toList <:+ path.toList := by
  have h := lastSegmentFrom_suffix [] path.toList.reverse
  rw [List.reverse_reverse, List.append_nil] at h
  rw [lastSegment, String.toList_ofList]
  exact h

/-- Two ends of one list have the same last element, unless one of them is empty. -/
theorem getLast?_eq_of_suffix {a b chars : List Char} (ha : a <:+ chars) (hb : b <:+ chars)
    (hane : a ≠ []) (hbne : b ≠ []) : a.getLast? = b.getLast? := by
  obtain ⟨beforeA, rfl⟩ := ha
  obtain ⟨beforeB, hboth⟩ := hb
  have hlast := congrArg List.getLast? hboth
  rw [List.getLast?_append_of_ne_nil _ hbne, List.getLast?_append_of_ne_nil _ hane] at hlast
  exact hlast.symm

end AnnotatedApi.Text
