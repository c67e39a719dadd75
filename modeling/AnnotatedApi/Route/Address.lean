import AnnotatedApi.Text.Blank

/-! # Addresses of routes

An address holds placeholders in braces, `{task}` or `{task?}`, for the parts that vary. Addresses
that nest in one another are joined with single slashes, and the two other notations for
placeholders, `:task` and `*task`, are brought to braces first. -/

namespace AnnotatedApi.Route

/-! ## Placeholders -/

/-- Whether a character can stand in the name of a placeholder. -/
def isNameChar (c : Char) : Bool :=
  c != '\x7d' && c != '?'

/-- Characters without the mark of an optional placeholder in front. -/
def dropMark : List Char → List Char
  | '?' :: rest => rest
  | chars => chars

/-- The name of the placeholder whose opening brace stands before the characters, and what follows
its closing brace. -/
def placeholder? (chars : List Char) : Option (List Char × List Char) :=
  let name := chars.takeWhile isNameChar
  match dropMark (chars.dropWhile isNameChar) with
  | '\x7d' :: after => if name.isEmpty then none else some (name, after)
  | _ => none

theorem length_dropMark_le (chars : List Char) : (dropMark chars).length ≤ chars.length := by
  unfold dropMark
  split <;> simp

/-- What follows a placeholder is shorter than what it was read from. -/
theorem length_lt_of_placeholder? {chars name rest : List Char}
    (h : placeholder? chars = some (name, rest)) : rest.length < chars.length := by
  have hdrop : (chars.dropWhile isNameChar).length ≤ chars.length :=
    (List.dropWhile_sublist isNameChar).length_le
  have hmark := length_dropMark_le (chars.dropWhile isNameChar)
  simp only [placeholder?] at h
  split at h
  · next after heq =>
    rw [heq, List.length_cons] at hmark
    split at h
    · simp at h
    · obtain ⟨-, rfl⟩ := by simpa using h
      omega
  · simp at h

/-- The names of the placeholders among characters, in order. -/
def placeholdersFrom : List Char → List (List Char)
  | [] => []
  | c :: rest =>
      if c = '\x7b' then
        match h : placeholder? rest with
        | some (name, after) =>
            have := length_lt_of_placeholder? h
            name :: placeholdersFrom after
        | none => placeholdersFrom rest
      else placeholdersFrom rest
  termination_by chars => chars.length
  decreasing_by all_goals simp; try omega

/-- The names of the placeholders of an address, in order. -/
def placeholderNames (uri : String) : List String :=
  (placeholdersFrom uri.toList).map fun name => String.ofList (Text.trimChars name)

/-- The address with a single slash in front. -/
def pathOf (uri : String) : String :=
  "/" ++ Text.trimLeadingSlashes uri

/-! ## Other notations -/

/-- A segment with its placeholder in braces and without a star. -/
def normalizeSegment (segment : List Char) : List Char :=
  match segment with
  | ':' :: name => '\x7b' :: name ++ ['\x7d']
  | '*' :: name => '\x7b' :: name ++ ['\x7d']
  | '\x7b' :: '*' :: rest => '\x7b' :: rest
  | _ => segment

/-- An address with all placeholders in braces. -/
def normalize (path : String) : String :=
  String.ofList (['/'].intercalate ((path.toList.splitOn '/').map normalizeSegment))

/-- Join an address to what comes before it, with a single slash between them. -/
def combine (front path : String) : String :=
  if front == "" then path
  else
    let front := Text.trimTrailingSlashes front
    let path := Text.trimLeadingSlashes path
    if path == "" then front else front ++ "/" ++ path

end AnnotatedApi.Route
