import AnnotatedApi.Source.ModulePath

/-! # Module paths from two places

A file below a directory of models is read twice: from the root of the sources and from that
directory, whose namespace continues the one of the root. The two module paths of the file are the
same exactly when the directory is the root itself, or the namespace of the root is not empty and
the file is not one that makes up a whole crate, `lib.rs` or `main.rs`, directly in the
directory. -/

namespace AnnotatedApi.FilePath

/-! ## Components below a directory -/

/-- What follows some components is the rest of others that start with them. -/
theorem stripComponents?_eq_some_iff {front components rest : List String} :
    stripComponents? front components = some rest ↔ components = front ++ rest := by
  induction front generalizing components with
  | nil => simp [stripComponents?]
  | cons a front ih =>
      cases components with
      | nil => simp [stripComponents?]
      | cons b components =>
          by_cases h : a = b
          · simp [stripComponents?, h, ih]
          · simp [stripComponents?, h, Ne.symm h]

/-- What is below a directory that is below another is below the other. -/
theorem componentsBelow?_trans {root directory file : String} {inner below : List String}
    (hdirectory : componentsBelow? root directory = some inner)
    (hfile : componentsBelow? directory file = some below) :
    componentsBelow? root file = some (inner ++ below) := by
  rw [componentsBelow?, stripComponents?_eq_some_iff] at hdirectory hfile ⊢
  rw [hfile, hdirectory, List.append_assoc]

/-- No component of a path is empty. -/
theorem ne_empty_of_mem_components {path component : String} (h : component ∈ components path) :
    component ≠ "" := by
  have hpiece {name : String} (hname : name ∈ (Text.splitChar '/' path).filter (· != "")) :
      name ≠ "" := by simpa using (List.mem_filter.mp hname).2
  simp only [components] at h
  split at h
  · rcases List.mem_cons.mp h with rfl | hrest
    · decide
    · exact hpiece (List.mem_filter.mp hrest).1
  · split at h
    · next rest hpieces =>
      rcases List.mem_cons.mp h with rfl | hrest
      · decide
      · rw [hpieces] at hpiece
        exact hpiece (List.mem_cons_of_mem _ (List.mem_filter.mp hrest).1)
    · exact hpiece (List.mem_filter.mp h).1

/-- No component below a directory is empty. -/
theorem ne_empty_of_mem_componentsBelow? {directory path component : String} {below : List String}
    (h : componentsBelow? directory path = some below) (hmem : component ∈ below) :
    component ≠ "" := by
  rw [componentsBelow?, stripComponents?_eq_some_iff] at h
  exact ne_empty_of_mem_components (h ▸ List.mem_append_right _ hmem)

end AnnotatedApi.FilePath

namespace AnnotatedApi.Source

/-! ## Joined segments -/

/-- A path may be joined before the segments that follow it. -/
theorem joinPath_joinPath_cons {front : List String} (hfront : front ≠ []) (rest : List String) :
    Text.joinPath (Text.joinPath front :: rest) = Text.joinPath (front ++ rest) := by
  by_cases hrest : rest = []
  · rw [hrest, List.append_nil]
    exact String.intercalate_singleton
  · rw [Text.joinPath, Text.joinPath, Text.joinPath, String.intercalate_cons_of_ne_nil hrest,
      String.intercalate_append_of_ne_nil hfront hrest]

/-- The length of a path with one segment more. -/
theorem length_joinPath_concat {front : List String} (hfront : front ≠ []) (last : String) :
    (Text.joinPath (front ++ [last])).length = (Text.joinPath front).length + 2 + last.length := by
  rw [Text.joinPath, Text.joinPath,
    String.intercalate_append_of_ne_nil hfront (List.cons_ne_nil _ _),
    String.intercalate_singleton, String.length_append, String.length_append]
  rfl

/-- The namespace of a directory is that of the root and the directories below it, joined. -/
theorem namespaceFor_eq {root directory : String} {inner : List String}
    (h : FilePath.componentsBelow? root directory = some inner) (namespaceName : String) :
    namespaceFor root directory namespaceName =
      Text.joinPath (namespaceName :: inner.map moduleSegment) := by
  rw [namespaceFor, h, Option.getD_some]
  clear h
  induction inner generalizing namespaceName with
  | nil => exact String.intercalate_singleton.symm
  | cons component inner ih =>
      rw [List.foldl_cons, ih, List.map_cons, Text.joinPath, Text.joinPath,
        String.intercalate_cons_append, String.intercalate_cons_cons]

/-! ## Segments of files -/

/-- The segments of module paths that components give, without empty ones. -/
def pathSegmentsOf (components : List String) : List String :=
  (components.map moduleSegment).filter (· != "")

@[simp] theorem pathSegmentsOf_append (front back : List String) :
    pathSegmentsOf (front ++ back) = pathSegmentsOf front ++ pathSegmentsOf back := by
  rw [pathSegmentsOf, List.map_append, List.filter_append]
  rfl

/-- Components that are not empty all give segments. -/
theorem pathSegmentsOf_eq_map {components : List String} (h : ∀ c ∈ components, c ≠ "") :
    pathSegmentsOf components = components.map moduleSegment := by
  refine List.filter_eq_self.mpr ?_
  rw [List.forall_mem_map]
  intro component hmem
  rw [bne_iff_ne]
  intro hempty
  have hchars := congrArg String.toList hempty
  rw [moduleSegment, String.toList_ofList, String.toList_empty, List.map_eq_nil_iff,
    String.toList_eq_nil_iff] at hchars
  exact h component hmem hchars

section

variable {root file : String} {below : List String}

/-- The module path of a file below a root whose namespace is not empty. -/
theorem modulePathFor_eq (h : FilePath.componentsBelow? root file = some below)
    {namespaceName : String} (hne : namespaceName ≠ "") :
    modulePathFor root file namespaceName =
      Text.joinPath (namespaceName :: pathSegmentsOf (moduleSegments below)) := by
  rw [modulePathFor, h, Option.getD_some, pathSegmentsOf,
    ← List.filter_cons_of_pos (p := (· != "")) (bne_iff_ne.mpr hne)]

/-- The module path of a file below a root whose namespace is empty. -/
theorem modulePathFor_empty (h : FilePath.componentsBelow? root file = some below) :
    modulePathFor root file "" = Text.joinPath (pathSegmentsOf (moduleSegments below)) := by
  rw [modulePathFor, h, Option.getD_some, pathSegmentsOf]
  rfl

end

/-- Whether components are those of a file that makes up a crate, where it is at the root. -/
def IsCrateFile (components : List String) : Prop :=
  ∃ name, components = [name] ∧ (fileStem name = "lib" ∨ fileStem name = "main")

/-- The segments of a file below directories come after those of the directories, unless the file
would make up a crate. -/
theorem moduleSegments_append {inner below : List String} (hbelow : below ≠ [])
    (h : ¬ IsCrateFile below) :
    moduleSegments (inner ++ below) = inner ++ moduleSegments below := by
  obtain ⟨front, name, rfl⟩ : ∃ front name, below = front ++ [name] :=
    ⟨_, _, (List.dropLast_concat_getLast hbelow).symm⟩
  have hsame : isDirectoryModule (inner ++ front) (fileStem name) =
      isDirectoryModule front (fileStem name) := by
    cases front with
    | nil =>
        have hlib : (fileStem name == "lib") = false :=
          beq_eq_false_iff_ne.mpr fun heq => h ⟨name, rfl, .inl heq⟩
        have hmain : (fileStem name == "main") = false :=
          beq_eq_false_iff_ne.mpr fun heq => h ⟨name, rfl, .inr heq⟩
        simp only [isDirectoryModule, hlib, hmain, Bool.or_self, Bool.and_false]
    | cons => simp [isDirectoryModule]
  rw [← List.append_assoc, moduleSegments, moduleSegments, List.getLast?_concat,
    List.getLast?_concat]
  simp only [List.dropLast_concat, hsame]
  split
  · rfl
  · rw [List.append_assoc]

/-- A file that would make up a crate has no segment of its own at the root, and one elsewhere. -/
theorem IsCrateFile.moduleSegments {below : List String} (h : IsCrateFile below) :
    Source.moduleSegments below = [] ∧
      ∃ stem, (stem = "lib" ∨ stem = "main") ∧ ∀ inner, inner ≠ [] →
        Source.moduleSegments (inner ++ below) = inner ++ [stem] := by
  obtain ⟨name, rfl, hstem⟩ := h
  refine ⟨?_, fileStem name, hstem, ?_⟩
  · rcases hstem with hstem | hstem <;> simp [Source.moduleSegments, isDirectoryModule, hstem]
  · intro inner hinner
    rw [Source.moduleSegments, List.getLast?_concat]
    simp only [List.dropLast_concat, isDirectoryModule, List.isEmpty_eq_false_iff.mpr hinner]
    rcases hstem with hstem | hstem <;> simp [hstem]

/-! ## Two readings of one file -/

section TwoReadings

variable {root directory file : String} {inner below : List String}

/-- The module path of a file below a directory that is not the root: the namespace of the root
comes first, even if it is empty. -/
theorem modulePathFor_namespaceFor
    (hdirectory : FilePath.componentsBelow? root directory = some inner)
    (hfile : FilePath.componentsBelow? directory file = some below) (hinner : inner ≠ [])
    (namespaceName : String) :
    modulePathFor directory file (namespaceFor root directory namespaceName) =
      Text.joinPath (namespaceName :: pathSegmentsOf (inner ++ moduleSegments below)) := by
  have hsegments : inner.map moduleSegment = pathSegmentsOf inner :=
    (pathSegmentsOf_eq_map fun _ => FilePath.ne_empty_of_mem_componentsBelow? hdirectory).symm
  have hne : Text.joinPath (namespaceName :: inner.map moduleSegment) ≠ "" := by
    intro hempty
    have hlength := congrArg String.length hempty
    rw [Text.joinPath, String.intercalate_cons_of_ne_nil (by simpa using hinner),
      String.length_append, String.length_append] at hlength
    simp at hlength
  rw [namespaceFor_eq hdirectory, modulePathFor_eq hfile hne,
    joinPath_joinPath_cons (List.cons_ne_nil _ _), hsegments, List.cons_append,
    pathSegmentsOf_append]

/-- A path that an empty segment comes before is longer by a pair of colons. -/
theorem length_joinPath_empty_cons {segments : List String} (h : segments ≠ []) :
    (Text.joinPath ("" :: segments)).length = (Text.joinPath segments).length + 2 := by
  rw [Text.joinPath, String.intercalate_cons_of_ne_nil h, String.length_append, Text.joinPath]
  exact Nat.add_comm _ _

/-- A file that would make up a crate never has the same module path from the root and from a
directory below it. -/
theorem modulePathFor_ne_of_isCrateFile
    (hdirectory : FilePath.componentsBelow? root directory = some inner)
    (hfile : FilePath.componentsBelow? directory file = some below) (hinner : inner ≠ [])
    (hcrate : IsCrateFile below) (namespaceName : String) :
    modulePathFor directory file (namespaceFor root directory namespaceName) ≠
      modulePathFor root file namespaceName := by
  have hroot := FilePath.componentsBelow?_trans hdirectory hfile
  have hsegments : pathSegmentsOf inner ≠ [] := by
    rw [pathSegmentsOf_eq_map fun _ => FilePath.ne_empty_of_mem_componentsBelow? hdirectory]
    simpa using hinner
  -- below the root the file has a segment of its own, below the directory it has none
  obtain ⟨hnil, stem, hstem, hsegment⟩ := hcrate.moduleSegments
  obtain ⟨hlast, hlength⟩ : pathSegmentsOf [stem] = [stem] ∧ 2 < stem.length := by
    rcases hstem with rfl | rfl <;> decide
  intro heq
  rw [modulePathFor_namespaceFor hdirectory hfile hinner, hnil, List.append_nil] at heq
  by_cases hnamespace : namespaceName = ""
  · subst hnamespace
    rw [modulePathFor_empty hroot, hsegment inner hinner, pathSegmentsOf_append, hlast] at heq
    have hlengths := congrArg String.length heq
    rw [length_joinPath_empty_cons hsegments, length_joinPath_concat hsegments] at hlengths
    omega
  · rw [modulePathFor_eq hroot hnamespace, hsegment inner hinner, pathSegmentsOf_append, hlast,
      ← List.cons_append] at heq
    have hlengths := congrArg String.length heq
    rw [length_joinPath_concat (List.cons_ne_nil _ _)] at hlengths
    omega

/-- The module path of a file below a directory, under the namespace of the directory, is the one
that the file has below the root, under the namespace of the root, exactly when the directory is
the root, or the namespace of the root is not empty and the file would not make up a crate if the
directory were a root. -/
theorem modulePathFor_namespaceFor_eq_iff
    (hdirectory : FilePath.componentsBelow? root directory = some inner)
    (hfile : FilePath.componentsBelow? directory file = some below) (hbelow : below ≠ [])
    (namespaceName : String) :
    modulePathFor directory file (namespaceFor root directory namespaceName) =
        modulePathFor root file namespaceName ↔
      inner = [] ∨ namespaceName ≠ "" ∧ ¬ IsCrateFile below := by
  have hroot := FilePath.componentsBelow?_trans hdirectory hfile
  by_cases hinner : inner = []
  · subst hinner
    have hnamespace : namespaceFor root directory namespaceName = namespaceName := by
      rw [namespaceFor_eq hdirectory]
      exact String.intercalate_singleton
    rw [hnamespace, modulePathFor, modulePathFor, hroot, hfile]
    simp
  simp only [hinner, false_or]
  by_cases hcrate : IsCrateFile below
  · exact iff_of_false
      (modulePathFor_ne_of_isCrateFile hdirectory hfile hinner hcrate namespaceName)
      fun h => h.2 hcrate
  rw [modulePathFor_namespaceFor hdirectory hfile hinner]
  by_cases hnamespace : namespaceName = ""
  · subst hnamespace
    rw [modulePathFor_empty hroot, moduleSegments_append hbelow hcrate]
    refine iff_of_false ?_ fun h => h.1 rfl
    intro heq
    -- the namespace of the directory starts with colons then, and the path is longer by them
    have hsegments : pathSegmentsOf (inner ++ moduleSegments below) ≠ [] := by
      rw [pathSegmentsOf_append,
        pathSegmentsOf_eq_map fun _ => FilePath.ne_empty_of_mem_componentsBelow? hdirectory]
      simp [hinner]
    have hlengths := congrArg String.length heq
    rw [length_joinPath_empty_cons hsegments] at hlengths
    omega
  · rw [modulePathFor_eq hroot hnamespace, moduleSegments_append hbelow hcrate]
    exact iff_of_true rfl ⟨hnamespace, hcrate⟩

/-- The file of a model has one module path, whichever directory it is read from. -/
theorem modulePathFor_namespaceFor_taskFile :
    FilePath.componentsBelow? "app/src" "app/src/http/models" = some ["http", "models"] ∧
      FilePath.componentsBelow? "app/src/http/models" "app/src/http/models/to-do/task.rs" =
        some ["to-do", "task.rs"] ∧
      (modulePathFor "app/src/http/models" "app/src/http/models/to-do/task.rs"
          (namespaceFor "app/src" "app/src/http/models" "crate") =
        modulePathFor "app/src" "app/src/http/models/to-do/task.rs" "crate") := by
  have hdirectory : FilePath.componentsBelow? "app/src" "app/src/http/models" =
      some ["http", "models"] := by decide
  have hfile : FilePath.componentsBelow? "app/src/http/models"
      "app/src/http/models/to-do/task.rs" =
      some ["to-do", "task.rs"] := by decide
  refine ⟨hdirectory, hfile, ?_⟩
  refine (modulePathFor_namespaceFor_eq_iff hdirectory hfile (List.cons_ne_nil _ _) "crate").mpr
    (.inr ⟨by decide, ?_⟩)
  rintro ⟨name, hname, -⟩
  simp at hname

/-- Under an empty namespace the module path from a directory of models starts with a pair of
colons, and a file `lib.rs` there is taken for the module of the directory. -/
theorem modulePathFor_namespaceFor_ne :
    modulePathFor "src/models" "src/models/task.rs" (namespaceFor "src" "src/models" "") =
        "::models::task" ∧
      modulePathFor "src" "src/models/task.rs" "" = "models::task" ∧
      modulePathFor "src/models" "src/models/lib.rs" (namespaceFor "src" "src/models" "crate") =
        "crate::models" ∧
      modulePathFor "src" "src/models/lib.rs" "crate" = "crate::models::lib" := by
  decide

end TwoReadings

end AnnotatedApi.Source
