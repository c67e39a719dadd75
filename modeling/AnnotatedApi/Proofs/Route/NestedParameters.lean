import AnnotatedApi.Proofs.Route.Joining
import AnnotatedApi.Proofs.Route.Placeholders

/-! # Parameters of nested routes

A path of a router declares parameters in its segments, in four notations. Normalizing brings them
all to braces, joining prefixes and paths takes off slashes between them, and the placeholders are
read off the joined address without a look at its segments. Parameters are neither lost nor merged
nor invented on the way: the address of a nested route has the parameters of the prefixes, from
outside in, and then those of the path. What carries this is that the characters are put together
from placeholders and from text without opening braces, at every stage. -/

namespace AnnotatedApi.Route

/-! ## What paths declare -/

/-- A name that a segment can declare. -/
structure IsParameter (name : String) : Prop where
  ne_empty : name.toList ≠ []
  /-- There are no blanks around it. -/
  trimmed : Text.IsTrimmed name.toList
  /-- No character ends a segment or has a meaning in placeholders. -/
  plain : ∀ c ∈ name.toList, c ≠ '/' ∧ c ≠ '\x7b' ∧ c ≠ '\x7d' ∧ c ≠ '?'
  /-- No star stands in front. -/
  unstarred : name.toList.head? ≠ some '*'

theorem isParameter_iff {name : String} :
    IsParameter name ↔ name.toList ≠ [] ∧ Text.IsTrimmed name.toList ∧
      name.toList.all (fun c => c ≠ '/' ∧ c ≠ '\x7b' ∧ c ≠ '\x7d' ∧ c ≠ '?') ∧
      name.toList.head? ≠ some '*' := by
  simp only [List.all_eq_true, decide_eq_true_eq]
  exact ⟨fun ⟨hne, htrim, hplain, hstar⟩ => ⟨hne, htrim, hplain, hstar⟩,
    fun ⟨hne, htrim, hplain, hstar⟩ => ⟨hne, htrim, hplain, hstar⟩⟩

instance : DecidablePred IsParameter := fun _ => decidable_of_iff _ isParameter_iff.symm

/-- What a segment declares: a parameter in one of four notations, or none. -/
inductive SegmentDeclares : List Char → List String → Prop
  | static {text : List Char} : '\x7b' ∉ text → text.head? ≠ some ':' → text.head? ≠ some '*' →
      SegmentDeclares text []
  | colon {name : String} : IsParameter name → SegmentDeclares (':' :: name.toList) [name]
  | star {name : String} : IsParameter name → SegmentDeclares ('*' :: name.toList) [name]
  | braces {name : String} : IsParameter name →
      SegmentDeclares ('\x7b' :: (name.toList ++ ['\x7d'])) [name]
  | starred {name : String} : IsParameter name →
      SegmentDeclares ('\x7b' :: '*' :: (name.toList ++ ['\x7d'])) [name]

/-- A path declares what its segments declare, in order. -/
def Declares (path : String) (names : List String) : Prop :=
  ∃ lists, List.Forall₂ SegmentDeclares (path.toList.splitOn '/') lists ∧ names = lists.flatten

/-! ## What addresses hold -/

/-- Characters that are put together from placeholders of the names, in order, and from text without
opening braces. -/
inductive Holds : List Char → List String → Prop
  | text {text : List Char} : '\x7b' ∉ text → Holds text []
  | placeholder {name : String} : IsParameter name →
      Holds ('\x7b' :: (name.toList ++ ['\x7d'])) [name]
  | append {front back : List Char} {names more : List String} :
      Holds front names → Holds back more → Holds (front ++ back) (names ++ more)

namespace Holds

variable {chars front back : List Char} {names more : List String}

/-- The placeholders are read off, whatever follows. -/
theorem placeholdersFrom_append (h : Holds chars names) (rest : List Char) :
    placeholdersFrom (chars ++ rest) = names.map String.toList ++ placeholdersFrom rest := by
  induction h generalizing rest with
  | text htext => exact Route.placeholdersFrom_append htext rest
  | @placeholder name hname =>
      have hread : placeholder? (name.toList ++ '\x7d' :: rest) = some (name.toList, rest) := by
        refine placeholder?_eq_some_iff.mpr ⟨hname.ne_empty, ?_, .inl rfl⟩
        intro c hc
        obtain ⟨-, -, hclose, hmark⟩ := hname.plain c hc
        simp [isNameChar, hclose, hmark]
      rw [List.cons_append, List.append_assoc, List.singleton_append,
        placeholdersFrom_cons_of_some hread]
      rfl
  | append _ _ ihfront ihback =>
      rw [List.append_assoc, ihfront, ihback, List.map_append, List.append_assoc]

theorem isParameter (h : Holds chars names) : ∀ name ∈ names, IsParameter name := by
  induction h with
  | text => exact List.forall_mem_nil _
  | placeholder hname => exact List.forall_mem_singleton.mpr hname
  | append _ _ ihfront ihback => exact List.forall_mem_append.mpr ⟨ihfront, ihback⟩

/-- The names of the placeholders are those that the address holds. -/
theorem placeholderNames_eq {uri : String} (h : Holds uri.toList names) :
    placeholderNames uri = names := by
  have hread := h.placeholdersFrom_append []
  rw [List.append_nil, placeholdersFrom, List.append_nil] at hread
  rw [placeholderNames, hread, List.map_map]
  conv_rhs => rw [← List.map_id names]
  refine List.map_congr_left fun name hname => ?_
  show String.ofList (Text.trimChars name.toList) = name
  rw [(h.isParameter name hname).trimmed.trimChars_eq, String.ofList_toList]

/-- Nothing holds nothing. -/
theorem names_eq_nil (h : Holds [] names) : names = [] := by
  have hread := h.placeholdersFrom_append []
  rw [List.nil_append, placeholdersFrom, List.append_nil] at hread
  exact List.map_eq_nil_iff.mp hread.symm

/-- No placeholder starts with a slash. -/
theorem dropWhile_slash (h : Holds chars names) : Holds (chars.dropWhile (· = '/')) names := by
  induction h with
  | text htext => exact .text fun hmem => htext ((List.dropWhile_suffix _).subset hmem)
  | placeholder hname =>
      rw [List.dropWhile_cons_of_neg (by decide)]
      exact .placeholder hname
  | @append front back names more hfront hback ihfront ihback =>
      rw [List.dropWhile_append]
      split
      · next hempty =>
        -- the first part is all slashes, so there are no names in it
        rw [List.isEmpty_iff.mp hempty] at ihfront
        rw [ihfront.names_eq_nil]
        exact ihback
      · exact ihfront.append hback

/-- No placeholder ends with a slash. -/
theorem dropEndWhile_slash (h : Holds chars names) :
    Holds (Text.dropEndWhile (· = '/') chars) names := by
  induction h with
  | text htext =>
      refine .text fun hmem => htext ?_
      rw [Text.dropEndWhile_eq_rdropWhile] at hmem
      exact (List.rdropWhile_prefix _ _).subset hmem
  | @placeholder name hname =>
      rw [← List.cons_append, Text.dropEndWhile_append_cons (by decide)]
      exact .placeholder hname
  | @append front back names more hfront hback ihfront ihback =>
      rw [Text.dropEndWhile_append]
      split
      · next hempty =>
        rw [hempty] at ihback
        rw [ihback.names_eq_nil, List.append_nil]
        exact ihfront
      · exact hfront.append ihback

/-- Slashes in front make no difference. -/
theorem rooted (h : Holds chars names) : Holds (rooted chars) names := by
  have hdrop := h.dropWhile_slash
  have hslash : Holds ['/'] [] := .text (by decide)
  unfold Route.rooted
  split
  · next hnil =>
    rw [hnil] at hdrop
    exact hdrop
  · next c rest hcons =>
    rw [hcons] at hdrop
    exact hslash.append hdrop

/-- A joined address holds what its two parts hold. -/
theorem combine {front path : String} (hfront : Holds front.toList names)
    (hpath : Holds path.toList more) : Holds (combine front path).toList (names ++ more) := by
  by_cases hempty : front = ""
  · subst hempty
    rw [hfront.names_eq_nil]
    exact hpath
  · rw [toList_combine hempty]
    exact hfront.dropEndWhile_slash.append hpath.rooted

end Holds

/-! ## Normalized paths -/

/-- A segment declares what it holds in braces. -/
theorem SegmentDeclares.holds {segment : List Char} {names : List String}
    (h : SegmentDeclares segment names) : Holds (normalizeSegment segment) names := by
  cases h with
  | static hopen hcolon hstar =>
      -- no mark of a placeholder stands in front, so nothing is put in braces
      have hsame : normalizeSegment segment = segment := by
        unfold normalizeSegment
        split
        · exact absurd rfl hcolon
        · exact absurd rfl hstar
        · exact absurd List.mem_cons_self hopen
        · rfl
      rw [hsame]
      exact .text hopen
  | colon hname => exact .placeholder hname
  | star hname => exact .placeholder hname
  | @braces name hname =>
      have hsame : normalizeSegment ('\x7b' :: (name.toList ++ ['\x7d'])) =
          '\x7b' :: (name.toList ++ ['\x7d']) := by
        obtain ⟨c, rest, hcons⟩ := List.exists_cons_of_ne_nil hname.ne_empty
        have hc : c ≠ '*' := by
          rintro rfl
          exact hname.unstarred (by rw [hcons]; rfl)
        rw [hcons]
        simp [normalizeSegment, hc]
      rw [hsame]
      exact .placeholder hname
  | starred hname => exact .placeholder hname

/-- Joined segments hold what they declare. -/
theorem holds_intercalate {segments : List (List Char)} {lists : List (List String)}
    (h : List.Forall₂ SegmentDeclares segments lists) :
    Holds (['/'].intercalate (segments.map normalizeSegment)) lists.flatten := by
  have hslash : Holds ['/'] [] := .text (by decide)
  induction h with
  | nil => exact .text List.not_mem_nil
  | @cons segment names segments lists hsegment hrest ih =>
      rw [List.map_cons, List.flatten_cons]
      cases hrest with
      | nil =>
          rw [List.map_nil, List.intercalate_singleton, List.flatten_nil, List.append_nil]
          exact hsegment.holds
      | cons hnext hrest =>
          rw [List.map_cons, List.intercalate_cons_cons, ← List.map_cons]
          have hfront := hsegment.holds.append hslash
          rw [List.append_nil] at hfront
          exact hfront.append ih

/-- A normalized path holds what the path declares. -/
theorem Declares.holds {path : String} {names : List String} (h : Declares path names) :
    Holds (normalize path).toList names := by
  obtain ⟨lists, hsegments, rfl⟩ := h
  rw [normalize, String.toList_ofList]
  exact holds_intercalate hsegments

/-! ## Chains of nested routers -/

/-- Prefixes that are joined from outside in hold what each of them declares. -/
theorem holds_foldl {nests : List (String × List String)}
    (h : ∀ nest ∈ nests, Declares nest.1 nest.2) {front : String} {names : List String}
    (hfront : Holds front.toList names) :
    Holds ((nests.map fun nest => normalize nest.1).foldl combine front).toList
      (names ++ nests.flatMap Prod.snd) := by
  induction nests generalizing front names with
  | nil =>
      rw [List.flatMap_nil, List.append_nil]
      exact hfront
  | cons nest nests ih =>
      rw [List.forall_mem_cons] at h
      rw [List.map_cons, List.foldl_cons, List.flatMap_cons, ← List.append_assoc]
      exact ih h.2 (hfront.combine h.1.holds)

variable {units : List (String × RouterUnit)}

/-- The prefixes on the way from a unit along positions. -/
def prefixesFrom (units : List (String × RouterUnit)) : String → List Nat → List String
  | _, [] => []
  | name, k :: path =>
      match ((getMember? name units).getD {}).children[k]? with
      | some child => child.1 :: prefixesFrom units child.2 path
      | none => []

/-- At the end of a chain the prefixes on the way are joined from outside in. -/
theorem Leads.front_eq {p q : Place} {path : List Nat} (h : Leads units p path q) :
    q.front = (prefixesFrom units p.name path).foldl combine p.front := by
  induction h with
  | here => rfl
  | nested hunit hchild _ ih =>
      rw [prefixesFrom, hunit, Option.getD_some, hchild]
      exact ih

/-- The parameters that a path declares are those of the normalized path. Under prefixes that
declare parameters, the address of the path has the parameters of the prefixes from outside in and
then its own; and that is the address of the route where a chain of routers nests it under the
prefixes. -/
theorem placeholderNames_nested {nests : List (String × List String)} {path : String}
    {names : List String} (hnests : ∀ nest ∈ nests, Declares nest.1 nest.2)
    (hpath : Declares path names) :
    placeholderNames (normalize path) = names ∧
      placeholderNames
          (combine ((nests.map fun nest => normalize nest.1).foldl combine "") (normalize path)) =
        nests.flatMap Prod.snd ++ names ∧
      ∀ (units : List (String × RouterUnit)) (root : String) (positions : List Nat) (p : Place),
        Leads units (.root root) positions p →
        prefixesFrom units root positions = nests.map (fun nest => normalize nest.1) →
        ∀ route : UnitRoute, route.path = normalize path →
          placeholderNames (route.under p.front).uri = nests.flatMap Prod.snd ++ names := by
  have hjoined := (holds_foldl hnests (.text (by decide) : Holds "".toList [])).combine hpath.holds
  rw [List.nil_append] at hjoined
  refine ⟨hpath.holds.placeholderNames_eq, hjoined.placeholderNames_eq, ?_⟩
  intro units root positions p hleads hprefixes route hroute
  have hfront : p.front = (prefixesFrom units root positions).foldl combine "" := hleads.front_eq
  rw [hprefixes] at hfront
  rw [UnitRoute.under, hroute, hfront]
  exact hjoined.placeholderNames_eq

/-- The prefixes under which one router nests another through a third, as they are written, with the
parameters that they declare. -/
def versionedNests : List (String × List String) :=
  [("/api/:version/", ["version"]), ("//", [])]

/-- The path of a route in the innermost of these routers. -/
def restRoute : UnitRoute :=
  { path := "/\x7bfolder\x7d/\x7brest\x7d", method := .get, action := none }

/-- The three routers. -/
def versionedUnits : List (String × RouterUnit) :=
  [("app", { children := [("/api/\x7bversion\x7d/", "files")] }),
    ("files", { children := [("//", "tree")] }),
    ("tree", { routes := [restRoute] })]

theorem placeholderNames_nested_restRoute :
    (∀ nest ∈ versionedNests, Declares nest.1 nest.2) ∧
      Declares "/\x7bfolder\x7d/\x7b*rest\x7d" ["folder", "rest"] ∧
      placeholderNames
          (combine ((versionedNests.map fun nest => normalize nest.1).foldl combine "")
            (normalize "/\x7bfolder\x7d/\x7b*rest\x7d")) =
        ["version", "folder", "rest"] ∧
      ∃ p, Leads versionedUnits (.root "app") [0, 0] p ∧
        placeholderNames (restRoute.under p.front).uri = ["version", "folder", "rest"] := by
  have hversion : IsParameter "version" := by decide
  have hfolder : IsParameter "folder" := by decide
  have hrest : IsParameter "rest" := by decide
  have hempty : SegmentDeclares [] [] := .static (by decide) (by decide) (by decide)
  have hapi : SegmentDeclares "api".toList [] := .static (by decide) (by decide) (by decide)
  have hnests : ∀ nest ∈ versionedNests, Declares nest.1 nest.2 := by
    rw [versionedNests, List.forall_mem_cons, List.forall_mem_singleton]
    constructor
    · have hsplit : "/api/:version/".toList.splitOn '/' =
          [[], "api".toList, ':' :: "version".toList, []] := by decide
      refine ⟨[[], [], ["version"], []], ?_, rfl⟩
      rw [hsplit]
      exact .cons hempty (.cons hapi (.cons (.colon hversion) (.cons hempty .nil)))
    · exact ⟨[[], [], []], .cons hempty (.cons hempty (.cons hempty .nil)), rfl⟩
  have hpath : Declares "/\x7bfolder\x7d/\x7b*rest\x7d" ["folder", "rest"] := by
    have hsplit : "/\x7bfolder\x7d/\x7b*rest\x7d".toList.splitOn '/' =
        [[], '\x7b' :: ("folder".toList ++ ['\x7d']),
          '\x7b' :: '*' :: ("rest".toList ++ ['\x7d'])] := by decide
    refine ⟨[[], ["folder"], ["rest"]], ?_, rfl⟩
    rw [hsplit]
    exact .cons hempty (.cons (.braces hfolder) (.cons (.starred hrest) .nil))
  obtain ⟨-, hjoined, hlisted⟩ := placeholderNames_nested hnests hpath
  have hleads : Leads versionedUnits (.root "app") [0, 0] _ :=
    .nested rfl rfl (.nested rfl rfl (.here rfl))
  exact ⟨hnests, hpath, hjoined, _, hleads,
    hlisted versionedUnits "app" [0, 0] _ hleads (by decide) restRoute (by decide)⟩

end AnnotatedApi.Route
