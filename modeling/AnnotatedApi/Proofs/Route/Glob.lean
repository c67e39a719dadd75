import Mathlib.Data.List.Forall2
import AnnotatedApi.Route.Glob
import AnnotatedApi.Text.Blank
import AnnotatedApi.Proofs.Route.Regex

/-! # What patterns of addresses mean

A pattern covers an address when the address can be cut into pieces, one for each character of the
pattern and in their order: any piece for a star, one character for a question mark, and the
character itself for every other one. The pattern is translated into a regular expression, whose
text is read back into one piece of an expression for each character of the pattern, between the two
anchors. -/

namespace AnnotatedApi.Route

/-! ## Cuts -/

/-- The pieces of an address that a character of a pattern takes. -/
inductive Takes : Char → List Char → Prop
  | star (piece : List Char) : Takes '*' piece
  | mark (c : Char) : Takes '?' [c]
  | self {p : Char} (hstar : p ≠ '*') (hmark : p ≠ '?') : Takes p [p]

/-- The address is cut into consecutive pieces that the characters of the pattern take in order. -/
def CutBy (pattern uri : List Char) : Prop :=
  ∃ pieces : List (List Char), List.Forall₂ Takes pattern pieces ∧ pieces.flatten = uri

variable {p c : Char} {pattern uri : List Char}

/-- Nothing but the empty address is cut into no pieces. -/
theorem cutBy_nil_iff : CutBy [] uri ↔ uri = [] := by
  constructor
  · rintro ⟨pieces, hpieces, rfl⟩
    rw [List.forall₂_nil_left_iff.mp hpieces, List.flatten_nil]
  · rintro rfl
    exact ⟨[], .nil, rfl⟩

/-- The first character takes the first piece, and the other ones cut the rest. -/
theorem cutBy_cons_iff :
    CutBy (p :: pattern) uri ↔
      ∃ piece rest, piece ++ rest = uri ∧ Takes p piece ∧ CutBy pattern rest := by
  constructor
  · rintro ⟨pieces, hpieces, rfl⟩
    obtain ⟨piece, rest, hpiece, hrest, rfl⟩ := List.forall₂_cons_left_iff.mp hpieces
    exact ⟨piece, rest.flatten, List.flatten_cons.symm, hpiece, rest, hrest, rfl⟩
  · rintro ⟨piece, _, rfl, hpiece, pieces, hpieces, rfl⟩
    exact ⟨piece :: pieces, .cons hpiece hpieces, List.flatten_cons⟩

/-- A question mark takes one character, whatever it is. -/
theorem takes_mark_iff {piece : List Char} : Takes '?' piece ↔ ∃ c, piece = [c] := by
  constructor
  · intro h
    cases h with
    | mark c => exact ⟨c, rfl⟩
    | self _ hmark => exact absurd rfl hmark
  · rintro ⟨c, rfl⟩
    exact .mark c

/-- Every other character but the star takes itself. -/
theorem takes_self_iff (hstar : p ≠ '*') (hmark : p ≠ '?') {piece : List Char} :
    Takes p piece ↔ piece = [p] := by
  constructor
  · intro h
    cases h with
    | star => exact absurd rfl hstar
    | mark => exact absurd rfl hmark
    | self => rfl
  · rintro rfl
    exact .self hstar hmark

/-! ## Translation -/

/-- The piece of an expression that a character of a pattern is translated into. -/
def pieceOf : Char → Regex.Piece
  | '*' => .dots
  | '?' => .dot
  | c => .char c

/-- The characters of a pattern and the end of the address. -/
def regexOf (pattern : List Char) : List Regex.Piece :=
  pattern.map pieceOf ++ [.back]

/-- The first character has the first piece. -/
theorem regexOf_cons (p : Char) (pattern : List Char) :
    regexOf (p :: pattern) = pieceOf p :: regexOf pattern := rfl

/-- A character without a meaning in patterns is escaped. -/
theorem translateChar_of_ne (hstar : p ≠ '*') (hmark : p ≠ '?') :
    translateChar p = Regex.escape p := by
  rw [translateChar]
  · exact hstar
  · exact hmark

/-- It stands for itself. -/
theorem pieceOf_of_ne (hstar : p ≠ '*') (hmark : p ≠ '?') : pieceOf p = .char p := by
  rw [pieceOf]
  · exact hstar
  · exact hmark

/-- No translation starts with a star, which would repeat the dot in front of it. -/
theorem head?_translated_ne (pattern : List Char) :
    (pattern.flatMap translateChar ++ ['$']).head? ≠ some '*' := by
  cases pattern with
  | nil => decide
  | cons p pattern =>
      rw [List.flatMap_cons, List.append_assoc]
      by_cases hstar : p = '*'
      · subst hstar
        simp [translateChar]
      by_cases hmark : p = '?'
      · subst hmark
        simp [translateChar]
      rw [translateChar_of_ne hstar hmark, Regex.escape]
      split <;> simp [hstar]

/-- The translation of a pattern is read back character by character. -/
theorem read_translated (pattern : List Char) :
    Regex.read (pattern.flatMap translateChar ++ ['$']) = some (regexOf pattern) := by
  induction pattern with
  | nil => rfl
  | cons p pattern ih =>
      rw [List.flatMap_cons, List.append_assoc, regexOf_cons]
      by_cases hstar : p = '*'
      · subst hstar
        show Regex.read ('.' :: '*' :: (pattern.flatMap translateChar ++ ['$'])) = _
        rw [Regex.read_dots, ih]
        rfl
      by_cases hmark : p = '?'
      · subst hmark
        show Regex.read ('.' :: (pattern.flatMap translateChar ++ ['$'])) = _
        rw [Regex.read_dot (head?_translated_ne pattern), ih]
        rfl
      rw [translateChar_of_ne hstar hmark, Regex.read_escape, ih, pieceOf_of_ne hstar hmark,
        Option.map_some]

/-- Every pattern is a regular expression, anchored at both ends. -/
theorem globToRegex?_eq (glob : String) :
    globToRegex? glob = some (.front :: regexOf (glob.toList.dropWhile (· = '/'))) := by
  rw [globToRegex?, globText, Regex.read, read_translated, Option.map_some]

-- the dot of the version is escaped, and the question mark becomes a dot
example : String.ofList (globText "/api/v1.?/*") = "^api/v1\\../.*$" := by decide

/-! ## Patterns -/

/-- An address is matched to its end exactly if the pattern cuts it, given that dots stand for all
of its characters. -/
theorem matches_regexOf_iff {atFront : Bool} (hwild : ∀ c ∈ uri, Regex.isWild c = true) :
    Regex.Matches (regexOf pattern) atFront uri ↔ CutBy pattern uri := by
  induction pattern generalizing atFront uri with
  | nil => simp [regexOf, Regex.Matches, cutBy_nil_iff]
  | cons p pattern ih =>
      rw [regexOf_cons, cutBy_cons_iff]
      by_cases hstar : p = '*'
      · subst hstar
        -- a star takes any piece, as both sides cut it
        refine exists_congr fun piece => exists_congr fun rest => and_congr_right ?_
        rintro rfl
        obtain ⟨hpiece, hrest⟩ := List.forall_mem_append.mp hwild
        exact and_congr (iff_of_true hpiece (.star piece)) (ih hrest)
      by_cases hmark : p = '?'
      · subst hmark
        constructor
        · rintro ⟨c, rest, rfl, -, h⟩
          exact ⟨[c], rest, rfl, .mark c, (ih (List.forall_mem_cons.mp hwild).2).mp h⟩
        · rintro ⟨_, rest, rfl, hpiece, h⟩
          obtain ⟨c, rfl⟩ := takes_mark_iff.mp hpiece
          obtain ⟨hc, hrest⟩ := List.forall_mem_cons.mp hwild
          exact ⟨c, rest, rfl, hc, (ih hrest).mpr h⟩
      rw [pieceOf_of_ne hstar hmark]
      constructor
      · rintro ⟨rest, rfl, h⟩
        exact ⟨[p], rest, rfl, .self hstar hmark, (ih (List.forall_mem_cons.mp hwild).2).mp h⟩
      · rintro ⟨_, rest, rfl, hpiece, h⟩
        obtain rfl := (takes_self_iff hstar hmark).mp hpiece
        exact ⟨rest, rfl, (ih (List.forall_mem_cons.mp hwild).2).mpr h⟩

/-- A pattern is translated into a regular expression, and this matches an address without line
breaks exactly if the characters of the pattern cut the whole address, where slashes in front of
either do not count. -/
theorem globToRegex?_isMatch_iff {uri : String} (huri : '\n' ∉ uri.toList) (glob : String) :
    ∃ regex, globToRegex? glob = some regex ∧
      (Regex.isMatch regex (Text.trimLeadingSlashes uri) = true ↔
        CutBy (glob.toList.dropWhile (· = '/')) (uri.toList.dropWhile (· = '/'))) := by
  have hwild : ∀ c ∈ uri.toList.dropWhile (· = '/'), Regex.isWild c = true := by
    intro c hc
    refine bne_iff_ne.mpr ?_
    rintro rfl
    exact huri ((List.dropWhile_sublist _).subset hc)
  refine ⟨_, globToRegex?_eq glob, ?_⟩
  rw [Regex.isMatch_front_iff, Text.trimLeadingSlashes, String.toList_ofList,
    matches_regexOf_iff hwild]

/-- An address below a version. -/
def versionedUri : String := "//api/v1.0/tasks/7"

/-- A star takes slashes as well, and a dot takes nothing but itself. -/
theorem cutBy_versionedUri :
    '\n' ∉ versionedUri.toList ∧
      CutBy "api/v?.0/*".toList "api/v1.0/tasks/7".toList ∧
      ¬ CutBy "api/v1.x/*".toList "api/v1.0/tasks/7".toList := by
  have huri : '\n' ∉ versionedUri.toList := by decide
  obtain ⟨covering, hcovering, hcovers⟩ := globToRegex?_isMatch_iff huri "/api/v?.0/*"
  obtain ⟨missing, hmissing, hmisses⟩ := globToRegex?_isMatch_iff huri "/api/v1.x/*"
  obtain rfl := Option.some.inj ((globToRegex?_eq _).symm.trans hcovering)
  obtain rfl := Option.some.inj ((globToRegex?_eq _).symm.trans hmissing)
  exact ⟨huri, hcovers.mp (by decide), mt hmisses.mpr (by decide)⟩

end AnnotatedApi.Route
