import AnnotatedApi.Text.Inflection

/-! # Words of identifiers

An identifier such as `UserProfile`, `user_profile` or `user-profile` is a sequence of words. This
module cuts identifiers into words and derives from the words the names that documents show:
headlines, snake-case names, and the tag and resource of a handler owner. -/

namespace AnnotatedApi.Text

/-! ## Words -/

/-- Whether the character separates words. -/
def isWordSeparator (c : Char) : Bool :=
  c == '_' || c == '-' || c == ' '

/-- Put a finished word in front of later ones, unless it is empty. -/
def consWord (word : List Char) (words : List (List Char)) : List (List Char) :=
  if word.isEmpty then words else word :: words

/-- Cut characters into lower-case words. A word ends at a separator and where a capital follows a
small letter or a digit; `word` is the current one and `afterLower` tells whether the last
character was such a letter or digit. -/
def wordsFrom (word : List Char) (afterLower : Bool) : List Char → List (List Char)
  | [] => consWord word []
  | c :: rest =>
      if isWordSeparator c then consWord word (wordsFrom [] false rest)
      else if isUpper c && afterLower && !word.isEmpty then
        word :: wordsFrom (lowerChar c) (isLower c || isDigit c) rest
      else wordsFrom (word ++ lowerChar c) (isLower c || isDigit c) rest

/-- The lower-case words of an identifier. -/
def splitWords (name : String) : List String :=
  (wordsFrom [] false name.toList).map String.ofList

/-- A word with its first character in upper case. -/
def capitalize (word : String) : String :=
  match word.toList with
  | [] => ""
  | c :: rest => String.ofList (upperChar c ++ rest)

/-- The words of an identifier with blanks between them: `UserProfile` gives `user profile`. -/
def lowerWords (name : String) : String :=
  " ".intercalate (splitWords name)

/-- The capitalized words of an identifier: `user_profile` gives `User Profile`. -/
def headline (name : String) : String :=
  " ".intercalate ((splitWords name).map capitalize)

/-- The words of an identifier joined by underscores: `UserProfile` gives `user_profile`. -/
def snakeCase (name : String) : String :=
  "_".intercalate (splitWords name)

/-! ## Handler owners -/

/-- The endings by which types that only hold handlers are known, in the order they are tried. -/
def handlerSuffixes : List String :=
  ["Controller", "Handlers", "Handler"]

/-- Strip the first of `suffixes` that the name ends with and that does not make up the whole name,
and any underscores before it. -/
def stripSuffixes (name : String) : List String → String
  | [] => name
  | suffix :: suffixes =>
      match stripBack? suffix.toList name.toList with
      | some (c :: rest) => String.ofList (dropEndWhile (· = '_') (c :: rest))
      | _ => stripSuffixes name suffixes

/-- A name without a handler suffix, unless nothing would remain. -/
def stripHandlerSuffix (name : String) : String :=
  stripSuffixes name handlerSuffixes

/-- Change the last element of a list. -/
def mapLast (f : α → α) : List α → List α
  | [] => []
  | [a] => [f a]
  | a :: b :: rest => a :: mapLast f (b :: rest)

/-- The words that name what a handler owner handles. -/
def ownerWords (owner : String) : List String :=
  splitWords (stripHandlerSuffix (lastSegment owner))

/-- The singular resource words of a handler owner: `UserProfilesController` gives
`user profile`. -/
def resourceWords (owner : String) : String :=
  " ".intercalate (mapLast singularize (ownerWords owner))

/-- The default tag of a handler owner: `UserProfileController` gives `User Profiles`. -/
def resourceTag (owner : String) : String :=
  " ".intercalate (mapLast pluralize ((ownerWords owner).map capitalize))

/-! ## Comparison -/

/-- An identifier without separators and in lower case. -/
def foldIdentifier (name : String) : List Char :=
  (name.toList.filter (fun c => !isWordSeparator c)).flatMap lowerChar

/-- Whether two identifiers agree up to case and separators, as `user_profile` and `UserProfile`
do. -/
def sameIdentifier (a b : String) : Bool :=
  foldIdentifier a == foldIdentifier b

end AnnotatedApi.Text
