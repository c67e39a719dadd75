import AnnotatedApi.Proofs.Route.Chains
import AnnotatedApi.Proofs.Text.Blank

/-! # Joining addresses

A prefix and a path are joined with a single slash between them: the slashes at the end of the one
and at the front of the other are taken off, and nothing is put behind the prefix where the path is
all slashes. An empty prefix joins to the path as it is written, so it is no prefix of slashes only,
which joins to a path with a slash in front. That is the one thing that grouping depends on: behind
a prefix that is empty or more than slashes, prefixes may be joined from outside in, as the listing
of routers does it, or in any other way, and behind a prefix of slashes they may not. -/

namespace AnnotatedApi

/-- A route of a nested router, as the router has it that nests it under a prefix. -/
def HostRoute.nestedUnder (front : String) (route : HostRoute) : HostRoute :=
  { route with uri := Route.combine front route.uri }

namespace Route

/-! ## The characters of a joined address -/

/-- What is put behind a prefix: the path with a single slash in front, or nothing if it is all
slashes. -/
def rooted (path : List Char) : List Char :=
  match path.dropWhile (· = '/') with
  | [] => []
  | c :: rest => '/' :: c :: rest

/-- Characters are slashes only, or there is a first one that is none. -/
theorem slashes_or_first (chars : List Char) :
    (∀ c ∈ chars, c = '/') ∨
      ∃ slashes c rest, chars = slashes ++ c :: rest ∧ (∀ s ∈ slashes, s = '/') ∧ c ≠ '/' := by
  by_cases hall : ∀ c ∈ chars, c = '/'
  · exact .inl hall
  have hrest : chars.dropWhile (· = '/') ≠ [] := by
    rw [Ne, List.dropWhile_eq_nil_iff]
    simpa using hall
  obtain ⟨c, rest, hcons⟩ := List.exists_cons_of_ne_nil hrest
  refine .inr ⟨chars.takeWhile (· = '/'), c, rest, ?_, ?_, ?_⟩
  · rw [← hcons, List.takeWhile_append_dropWhile]
  · intro s hs
    simpa using List.mem_takeWhile_imp hs
  · have hfirst := List.head_dropWhile_not (· = '/') hrest
    simpa [hcons] using hfirst

theorem rooted_of_slashes {path : List Char} (h : ∀ c ∈ path, c = '/') : rooted path = [] := by
  have hdrop : path.dropWhile (· = '/') = [] := by
    rw [List.dropWhile_eq_nil_iff]
    simpa using h
  rw [rooted, hdrop]

theorem rooted_append_cons {slashes rest : List Char} {c : Char} (h : ∀ s ∈ slashes, s = '/')
    (hc : c ≠ '/') : rooted (slashes ++ c :: rest) = '/' :: c :: rest := by
  have hdrop : (slashes ++ c :: rest).dropWhile (· = '/') = c :: rest := by
    rw [List.dropWhile_append_of_pos (by simpa using h),
      List.dropWhile_cons_of_neg (by simpa using hc)]
  rw [rooted, hdrop]

/-- A single slash in front stays. -/
@[simp] theorem rooted_rooted (path : List Char) : rooted (rooted path) = rooted path := by
  rcases slashes_or_first path with hall | ⟨slashes, c, rest, rfl, hslashes, hc⟩
  · rw [rooted_of_slashes hall]
    rfl
  · rw [rooted_append_cons hslashes hc]
    have hslash : ∀ s ∈ ['/'], s = '/' := by simp
    exact rooted_append_cons hslash hc

@[simp] theorem combine_empty (path : String) : combine "" path = path := rfl

/-- Behind a prefix there is the path with a single slash in front. -/
theorem toList_combine {front : String} (h : front ≠ "") (path : String) :
    (combine front path).toList =
      Text.dropEndWhile (· = '/') front.toList ++ rooted path.toList := by
  have hfront : (front == "") = false := beq_eq_false_iff_ne.mpr h
  have hempty : ∀ chars : List Char, (String.ofList chars == "") = chars.isEmpty := by
    intro chars
    rw [Bool.eq_iff_iff, beq_iff_eq, List.isEmpty_iff, ← String.toList_inj, String.toList_ofList]
    rfl
  rw [combine, hfront]
  simp only [Bool.false_eq_true, if_false, Text.trimTrailingSlashes, Text.trimLeadingSlashes,
    rooted, hempty]
  cases path.toList.dropWhile (· = '/') with
  | nil => simp
  | cons c rest => simp

/-- What is put behind a prefix for a joined address: what is put there for its first part, without
the slashes at the end, and then what is put there for the second one. -/
theorem rooted_combine (front path : String) :
    rooted (combine front path).toList =
      Text.dropEndWhile (· = '/') (rooted front.toList) ++ rooted path.toList := by
  by_cases hempty : front = ""
  · subst hempty
    rfl
  rw [toList_combine hempty]
  rcases slashes_or_first front.toList with hall | ⟨slashes, c, rest, hfront, hslashes, hc⟩
  · -- nothing is left of the first part, and the path has its slash already
    have hnone : Text.dropEndWhile (· = '/') front.toList = [] := by
      rw [Text.dropEndWhile_eq_rdropWhile, List.rdropWhile_eq_nil_iff]
      simpa using hall
    rw [hnone, rooted_of_slashes hall, List.nil_append, rooted_rooted]
    rfl
  · have hstays : decide (c = '/') = false := decide_eq_false hc
    rw [hfront, rooted_append_cons hslashes hc, Text.dropEndWhile_append_cons hstays,
      List.append_assoc, List.cons_append, rooted_append_cons hslashes hc]
    exact congrArg (· ++ rooted path.toList)
      (Text.dropEndWhile_append_cons hstays ['/'] rest).symm

/-! ## Grouping -/

/-- A prefix that is empty or has more than slashes. -/
def IsAnchored (front : String) : Prop :=
  front = "" ∨ ∃ c ∈ front.toList, c ≠ '/'

/-- What is put behind an anchored prefix leaves something of the prefix. -/
theorem IsAnchored.combine_ne_empty {front : String} (h : IsAnchored front) (hne : front ≠ "")
    (path : String) : combine front path ≠ "" := by
  obtain ⟨c, hmem, hc⟩ := h.resolve_left hne
  intro hempty
  have hnil := toList_combine hne path
  rw [hempty, String.toList_empty, eq_comm, List.append_eq_nil_iff,
    Text.dropEndWhile_eq_rdropWhile, List.rdropWhile_eq_nil_iff] at hnil
  exact hc (by simpa using hnil.1 c hmem)

/-- Behind an anchored prefix two paths are joined from the left or from the right. -/
theorem IsAnchored.combine_assoc {front : String} (h : IsAnchored front) (middle path : String) :
    combine (combine front middle) path = combine front (combine middle path) := by
  by_cases hempty : front = ""
  · rw [hempty, combine_empty, combine_empty]
  rw [← String.toList_inj, toList_combine (h.combine_ne_empty hempty middle), toList_combine hempty,
    toList_combine hempty, rooted_combine, Text.dropEndWhile_dropEndWhile_append, List.append_assoc]

/-- A prefix of slashes only is lost before an empty path, so the next path gets no slash. -/
theorem combine_slashes_ne {front : String} (hne : front ≠ "") (h : ∀ c ∈ front.toList, c = '/') :
    combine (combine front "") "x" ≠ combine front (combine "" "x") := by
  have hnone : Text.dropEndWhile (· = '/') front.toList = [] := by
    rw [Text.dropEndWhile_eq_rdropWhile, List.rdropWhile_eq_nil_iff]
    simpa using h
  have hlost : combine front "" = "" := by
    rw [← String.toList_inj, toList_combine hne, hnone]
    rfl
  rw [hlost]
  intro heq
  change "x" = combine front "x" at heq
  have hchars := congrArg String.toList heq
  rw [toList_combine hne, hnone] at hchars
  exact absurd hchars (by decide)

/-- Whatever is joined to `full` is joined to `inner` first and then to `front`. -/
def SplitsInto (full front inner : String) : Prop :=
  ∀ path, combine full path = combine front (combine inner path)

namespace SplitsInto

variable {full front inner : String}

/-- A prefix has nothing within it. -/
theorem start (front : String) : SplitsInto front front "" := fun path => by
  rw [combine_empty]

/-- A prefix is put within. -/
theorem step (hfront : IsAnchored front) (h : SplitsInto full front inner) (next : String) :
    SplitsInto (combine full next) front (combine inner next) := fun path => by
  rw [h next, hfront.combine_assoc]

/-- Prefixes are put within, one after the other. -/
theorem foldl (hfront : IsAnchored front) (h : SplitsInto full front inner) (more : List String) :
    SplitsInto (more.foldl combine full) front (more.foldl combine inner) := by
  induction more generalizing full inner with
  | nil => exact h
  | cons next more ih => exact ih (h.step hfront next)

end SplitsInto

/-- Anchored prefixes are joined from outside in or from inside out. -/
theorem combine_foldl_eq_foldr {prefixes : List String} (h : ∀ p ∈ prefixes, IsAnchored p)
    (path : String) : combine (prefixes.foldl combine "") path = prefixes.foldr combine path := by
  induction prefixes with
  | nil => rfl
  | cons first prefixes ih =>
      rw [List.forall_mem_cons] at h
      rw [List.foldl_cons, combine_empty, List.foldr_cons, ← ih h.2]
      exact (SplitsInto.start first).foldl h.1 prefixes path

/-! ## Listing nested routers -/

variable {units : List (String × RouterUnit)}

/-- The routes of a unit are listed under a prefix as they are listed under the inner part of it,
with the outer part put in front. -/
theorem SplitsInto.expandUnit {full front inner : String} (hfront : IsAnchored front)
    (h : SplitsInto full front inner) (fuel : Nat) (outer : List String) (name : String) :
    expandUnit units fuel outer full name =
      (expandUnit units fuel outer inner name).map (·.nestedUnder front) := by
  induction fuel generalizing full inner outer name with
  | zero => rfl
  | succ fuel ih =>
      by_cases hend : name ∈ outer ∨ getMember? name units = none
      · rw [expandUnit_eq_nil hend, expandUnit_eq_nil hend]
        rfl
      obtain ⟨hnew, hsome⟩ := not_or.mp hend
      obtain ⟨unit, hget⟩ := Option.ne_none_iff_exists'.mp hsome
      rw [expandUnit_of_getMember? hnew hget, expandUnit_of_getMember? hnew hget, List.map_append,
        List.map_map, List.map_flatMap]
      congr 1
      · refine List.map_congr_left fun route _ => ?_
        show route.under full = (route.under inner).nestedUnder front
        rw [UnitRoute.under, h]
        rfl
      · exact List.flatMap_congr fun child _ => ih (h.step hfront child.1) (name :: outer) child.2

/-- What it means that nothing depends on how the prefixes behind a prefix are grouped. -/
structure GroupsFreely (front : String) : Prop where
  /-- Two paths are joined behind the prefix from the left or from the right. -/
  assoc : ∀ middle path,
    combine (combine front middle) path = combine front (combine middle path)
  /-- A route that is nested under the prefix and then under others has the address that it has
  under the others alone, joined to the prefix. -/
  address : ∀ (inner : List String) path,
    combine (inner.foldl combine front) path =
      combine front (combine (inner.foldl combine "") path)
  /-- The others may themselves be joined from inside out, if each of them is anchored. -/
  inward : ∀ (inner : List String) path, (∀ p ∈ inner, IsAnchored p) →
    combine (inner.foldl combine front) path = combine front (inner.foldr combine path)
  /-- A router that is nested under the prefix and then under others is listed with the routes that
  it has under the others alone, each put under the prefix. -/
  listing : ∀ units fuel outer name (inner : List String),
    expandUnit units fuel outer (inner.foldl combine front) name =
      (expandUnit units fuel outer (inner.foldl combine "") name).map (·.nestedUnder front)

/-- Grouping does not matter behind the prefixes that are empty or more than slashes, and behind no
others. -/
theorem groupsFreely_iff {front : String} : GroupsFreely front ↔ IsAnchored front := by
  constructor
  · intro h
    by_contra hfront
    obtain ⟨hne, hslashes⟩ := not_or.mp hfront
    refine combine_slashes_ne hne ?_ (h.assoc "" "x")
    simpa using hslashes
  · intro hfront
    have hsplit (inner : List String) :
        SplitsInto (inner.foldl combine front) front (inner.foldl combine "") :=
      (SplitsInto.start front).foldl hfront inner
    refine ⟨hfront.combine_assoc, fun inner => hsplit inner, ?_, ?_⟩
    · intro inner path hinner
      rw [hsplit inner path, combine_foldl_eq_foldr hinner]
    · intro units fuel outer name inner
      exact (hsplit inner).expandUnit hfront fuel outer name

/-- Behind a slash the two groupings differ. -/
example : combine (combine "/" "") "tasks" = "tasks" ∧
    combine "/" (combine "" "tasks") = "/tasks" := by
  decide

end Route

end AnnotatedApi
