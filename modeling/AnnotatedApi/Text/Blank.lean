/-! # Blanks, cutting and joining

White space in the sense of Unicode, trimming, and the few ways in which this library cuts a text
into pieces. All of it works on lists of characters. -/

namespace AnnotatedApi.Text

/-! ## White space -/

/-- Whether the character has the Unicode property White Space. -/
def isBlank (c : Char) : Bool :=
  let code := c.toNat
  (9 ≤ code && code ≤ 13) || code == 0x20 || code == 0x85 || code == 0xA0 || code == 0x1680 ||
    (0x2000 ≤ code && code ≤ 0x200A) || code == 0x2028 || code == 0x2029 || code == 0x202F ||
    code == 0x205F || code == 0x3000

/-- Drop every last character that satisfies `p`. -/
def dropEndWhile (p : Char → Bool) (chars : List Char) : List Char :=
  (chars.reverse.dropWhile p).reverse

/-- Drop the blanks at both ends. -/
def trimChars (chars : List Char) : List Char :=
  dropEndWhile isBlank (chars.dropWhile isBlank)

/-- Drop the blanks at both ends of a text. -/
def trim (text : String) : String :=
  String.ofList (trimChars text.toList)

/-- Whether a text holds nothing but blanks. -/
def isBlankText (text : String) : Bool :=
  text.toList.all isBlank

/-! ## Affixes -/

/-- What follows `front` in a list that starts with it. -/
def stripFront? : List Char → List Char → Option (List Char)
  | [], chars => some chars
  | _ :: _, [] => none
  | p :: front, c :: chars => if p = c then stripFront? front chars else none

/-- What stands before `back` in a list that ends with it. -/
def stripBack? (back chars : List Char) : Option (List Char) :=
  (stripFront? back.reverse chars.reverse).map List.reverse

/-- Whether a text starts with another. -/
def startsWith (text front : String) : Bool :=
  (stripFront? front.toList text.toList).isSome

/-- Whether a text ends with another. -/
def endsWith (text back : String) : Bool :=
  (stripBack? back.toList text.toList).isSome

/-- A text without its leading slashes. -/
def trimLeadingSlashes (text : String) : String :=
  String.ofList (text.toList.dropWhile (· = '/'))

/-- A text without its trailing slashes. -/
def trimTrailingSlashes (text : String) : String :=
  String.ofList (dropEndWhile (· = '/') text.toList)

/-- Whether a text occurs in another. -/
def occursIn (needle : List Char) : List Char → Bool
  | [] => needle.isEmpty
  | c :: rest => (stripFront? needle (c :: rest)).isSome || occursIn needle rest

/-! ## Pieces -/

/-- The pieces of a text between occurrences of a character. -/
def splitChar (separator : Char) (text : String) : List String :=
  (text.toList.splitOn separator).map String.ofList

/-- The lines of a text: its pieces between line feeds. -/
def lines (text : String) : List String :=
  splitChar '\n' text

/-- The pieces of a list of characters between occurrences of a pair of colons, read from the
left; `piece` holds the current piece in reverse. -/
def splitColonsFrom (piece : List Char) : List Char → List (List Char)
  | [] => [piece.reverse]
  | ':' :: ':' :: rest => piece.reverse :: splitColonsFrom [] rest
  | c :: rest => splitColonsFrom (c :: piece) rest

/-- The segments of a path whose separator is a pair of colons. -/
def pathSegments (path : String) : List String :=
  (splitColonsFrom [] path.toList).map String.ofList

/-- The text after the last pair of colons, searched from the right. -/
def lastSegmentFrom (segment : List Char) : List Char → List Char
  | [] => segment
  | ':' :: ':' :: _ => segment
  | c :: rest => lastSegmentFrom (c :: segment) rest

/-- The last segment of a path whose separator is a pair of colons. -/
def lastSegment (path : String) : String :=
  String.ofList (lastSegmentFrom [] path.toList.reverse)

/-- Join segments with pairs of colons. -/
def joinPath (segments : List String) : String :=
  "::".intercalate segments

end AnnotatedApi.Text
