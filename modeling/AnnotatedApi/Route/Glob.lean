import AnnotatedApi.Route.Regex

/-! # Patterns of addresses

In a pattern a star stands for any characters and a question mark for one; neither stands for a line
break. Every other character stands for itself, and a pattern has to cover the whole address. -/

namespace AnnotatedApi.Route

/-- The expression of a character of a pattern. -/
def translateChar : Char → List Char
  | '*' => ['.', '*']
  | '?' => ['.']
  | c => Regex.escape c

/-- The expression of a pattern without its leading slashes, which is anchored at both ends. -/
def globText (glob : String) : List Char :=
  '^' :: ((glob.toList.dropWhile (· = '/')).flatMap translateChar ++ ['$'])

/-- A pattern as a regular expression. -/
def globToRegex? (glob : String) : Option (List Regex.Piece) :=
  Regex.read (globText glob)

end AnnotatedApi.Route
