import AnnotatedApi.Text.Letters
import AnnotatedApi.Text.Blank

/-! # English inflection of resource names

Plural and singular forms by suffix rules, good enough for the nouns that name resources. A suffix
is recognised in any case; letters that stay are kept as they are written. -/

namespace AnnotatedApi.Text

/-- Whether the lower-case form of a text ends with `suffix`. -/
def endsInAnyCase (text suffix : String) : Bool :=
  endsWith (lower text) suffix

/-- Drop the last `n` characters. -/
def dropLastChars (n : Nat) (text : String) : String :=
  String.ofList (text.toList.take (text.toList.length - n))

/-- Whether the lower-case form has a vowel before its last character. -/
def hasVowelBeforeLast (text : String) : Bool :=
  match (lower text).toList.reverse with
  | _ :: c :: _ => ['a', 'e', 'i', 'o', 'u'].contains c
  | _ => false

/-- The plural of a word. A word in a single `s` counts as plural already. -/
def pluralize (word : String) : String :=
  if word.isEmpty then ""
  else if endsInAnyCase word "s" && !endsInAnyCase word "ss" then word
  else if endsInAnyCase word "y" && !hasVowelBeforeLast word then dropLastChars 1 word ++ "ies"
  else if ["ss", "x", "z", "ch", "sh"].any (endsInAnyCase word) then word ++ "es"
  else word ++ "s"

/-- The singular of a word: the inverse of the plural rules where they can be undone. -/
def singularize (word : String) : String :=
  if endsInAnyCase word "ies" && 3 < word.utf8ByteSize then dropLastChars 3 word ++ "y"
  else if ["sses", "xes", "zes", "ches", "shes"].any (endsInAnyCase word) then dropLastChars 2 word
  else if endsInAnyCase word "s" && !endsInAnyCase word "ss" && 1 < word.utf8ByteSize then
    dropLastChars 1 word
  else word

end AnnotatedApi.Text
