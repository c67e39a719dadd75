/-! # Regular expressions

Of the language of regular expressions only the part is here into which patterns of addresses are
translated: a row of characters, of dots, which a star may repeat, and of the two anchors. A
character that has a meaning in the language stands for itself behind a backslash. -/

namespace AnnotatedApi.Route.Regex

/-! ## Expressions -/

/-- A piece of an expression. -/
inductive Piece where
  /-- The front of the text. -/
  | front
  /-- The end of the text. -/
  | back
  /-- One character that is no line break. -/
  | dot
  /-- Any number of characters that are no line breaks. -/
  | dots
  /-- The character itself. -/
  | char (c : Char)
deriving DecidableEq, Repr

/-- The characters that have a meaning in the language. -/
def metaChars : List Char :=
  ['\\', '.', '+', '*', '?', '(', ')', '|', '[', ']', '{', '}', '^', '$', '#', '&', '-', '~']

/-- A character as it is written to stand for itself. -/
def escape (c : Char) : List Char :=
  if metaChars.contains c then ['\\', c] else [c]

/-- The pieces of an expression, if it belongs to this part of the language. -/
def read : List Char → Option (List Piece)
  | [] => some []
  | '.' :: '*' :: rest => (read rest).map (.dots :: ·)
  | '.' :: rest => (read rest).map (.dot :: ·)
  | '^' :: rest => (read rest).map (.front :: ·)
  | '$' :: rest => (read rest).map (.back :: ·)
  | '\\' :: c :: rest => if metaChars.contains c then (read rest).map (.char c :: ·) else none
  | c :: rest => if metaChars.contains c then none else (read rest).map (.char c :: ·)

/-! ## Matching -/

/-- Whether a dot stands for the character. -/
def isWild (c : Char) : Bool :=
  c != '\n'

/-- For each ending of an expression, whether it matches at a place of a text. What is known is
whether the place is the front, which character is there, if any, and the row of the next place. -/
def rowBefore (atFront : Bool) (c? : Option Char) : List Piece → List Bool → List Bool
  | piece :: pieces, next :: nextRow =>
      let row := rowBefore atFront c? pieces nextRow
      let first :=
        match piece with
        | .front => atFront && row.headD false
        | .back => c?.isNone && row.headD false
        | .dot => c?.any isWild && nextRow.headD false
        | .dots => row.headD false || (c?.any isWild && next)
        | .char d => c?.any (d == ·) && nextRow.headD false
      first :: row
  | _, _ => [true]

/-- For each ending of an expression, whether it matches at the place in front of `rest`. -/
def matchRow (pieces : List Piece) : (atFront : Bool) → (rest : List Char) → List Bool
  | atFront, [] => rowBefore atFront none pieces (pieces.map fun _ => false)
  | atFront, c :: rest => rowBefore atFront (some c) pieces (matchRow pieces false rest)

/-- Whether an expression matches at the place in front of `rest`. -/
def matchesHere (pieces : List Piece) (atFront : Bool) (rest : List Char) : Bool :=
  (matchRow pieces atFront rest).headD false

/-- Whether an expression matches at the place in front of `rest` or at a later one. -/
def matchesFrom (pieces : List Piece) : (atFront : Bool) → (rest : List Char) → Bool
  | atFront, [] => matchesHere pieces atFront []
  | atFront, c :: rest => matchesHere pieces atFront (c :: rest) || matchesFrom pieces false rest

/-- Whether an expression matches anywhere in a text. -/
def isMatch (pieces : List Piece) (text : String) : Bool :=
  matchesFrom pieces true text.toList

end AnnotatedApi.Route.Regex
