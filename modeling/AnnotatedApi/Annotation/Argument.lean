import AnnotatedApi.Json.Basic

/-! # Arguments of annotations

The arguments of an annotation such as `response(200, ref = Task)` are a list of named or positional
values. A value is a flag, a scalar, the path of a type, an array or a nested list of arguments.
This module holds the values, the ways to read one as a text, a number and so on, and the reasons
for which an annotation can fail. -/

namespace AnnotatedApi

/-- The value of one argument. A positional argument of a nested list has the empty name. -/
inductive ArgValue where
  /-- A name without a value. -/
  | flag
  | text (value : String)
  | number (value : Number)
  | bool (value : Bool)
  /-- The path of a type. -/
  | path (value : String)
  | array (items : List ArgValue)
  | list (args : List (String × ArgValue))
  deriving Repr, Inhabited

/-- An argument: a name, empty for a positional one, and a value. -/
abbrev Arg : Type := String × ArgValue

/-! ## Errors -/

/-- Why a list of arguments could not be read. -/
inductive ArgSyntaxError where
  | literalAfterEquals
  | unsupportedLiteral
  | notFinite
  /-- No value starts where one is expected; `atEnd` when the arguments end there. -/
  | noValue (atEnd : Bool)
  /-- Anything else that is not in the grammar. -/
  | malformed
  deriving DecidableEq, Repr

/-- Why an annotation could not be constructed. -/
inductive AnnotationError where
  | badSyntax (cause : ArgSyntaxError)
  | unknownArgument (name : String)
  | invalidValue (name : String) (expected : String)
  | missingArgument (name : String)
  | unknownRelationship (kind : String)
  | notInVocabulary (name : String)
  deriving DecidableEq, Repr

/-- A word in the quotes that messages put around names. -/
def inTicks (word : String) : String :=
  let tick := String.singleton (Char.ofNat 96)
  tick ++ word ++ tick

/-- The wording of an error in the arguments, where there is a fixed one. -/
def ArgSyntaxError.wording? : ArgSyntaxError → Option String
  | .literalAfterEquals => some ("expected a literal after " ++ inTicks "=")
  | .unsupportedLiteral => some "unsupported literal"
  | .notFinite => some "number is not finite"
  | .noValue false => some "expected a literal, a path or an array"
  | .noValue true => some "unexpected end of input, expected a literal, a path or an array"
  | .malformed => none

/-- The message of an error, where it has a fixed wording. -/
def AnnotationError.message? : AnnotationError → Option String
  | .badSyntax cause => cause.wording?.map ("malformed arguments: " ++ ·)
  | .unknownArgument name => some ("unknown argument " ++ inTicks name)
  | .invalidValue name expected => some ("argument " ++ inTicks name ++ " expects " ++ expected)
  | .missingArgument name => some ("missing required argument " ++ inTicks name)
  | .unknownRelationship kind => some ("unknown relationship kind " ++ inTicks kind)
  | .notInVocabulary name => some ("unknown annotation " ++ inTicks name)

/-! ## Values as JSON -/

namespace ArgValue

mutual

/-- The JSON value of an argument. -/
def toJson : ArgValue → Json
  | .flag => .bool true
  | .text value => .text value
  | .path value => .text value
  | .number value => .number value
  | .bool value => .bool value
  | .array items => .array (itemsToJson items)
  | .list args => .object (collectMembers (argsToMembers args))

/-- The JSON values of the items of an array. -/
def itemsToJson : List ArgValue → List Json
  | [] => []
  | item :: rest => item.toJson :: itemsToJson rest

/-- The members of the JSON object of a list of arguments. -/
def argsToMembers : List (String × ArgValue) → List (String × Json)
  | [] => []
  | (name, value) :: rest => (name, value.toJson) :: argsToMembers rest

end

/-- The text of a string or a path. -/
def text? : ArgValue → Option String
  | .text value => some value
  | .path value => some value
  | _ => none

/-- Whether the value is a bare name. -/
def isFlag : ArgValue → Bool
  | .flag => true
  | _ => false

end ArgValue

/-! ## Reading arguments -/

namespace Arg

/-- Whether the argument has no name. -/
def isPositional (arg : Arg) : Bool := arg.1 == ""

/-- The name of an argument in messages. -/
def displayName (arg : Arg) : String :=
  if arg.isPositional then "<positional>" else arg.1

/-- The error of a value that does not fit. -/
def invalid (arg : Arg) (expected : String) : Except AnnotationError α :=
  .error (.invalidValue arg.displayName expected)

/-- The error of an argument that the annotation does not know. -/
def unknown (arg : Arg) : Except AnnotationError α :=
  .error (.unknownArgument arg.displayName)

/-- A string or a path, so that a type can be named without quotes. -/
def asText (arg : Arg) : Except AnnotationError String :=
  match arg.2.text? with
  | some value => .ok value
  | none => arg.invalid "a string"

/-- A boolean; a bare name counts as true. -/
def asBool (arg : Arg) : Except AnnotationError Bool :=
  match arg.2 with
  | .flag => .ok true
  | .bool value => .ok value
  | _ => arg.invalid "a boolean"

/-- A natural number. -/
def asNat (arg : Arg) : Except AnnotationError Nat :=
  match arg.2 with
  | .number n =>
      match n.toNat? with
      | some value => .ok value
      | none => arg.invalid "a non-negative integer"
  | _ => arg.invalid "a non-negative integer"

/-- A number. -/
def asNumber (arg : Arg) : Except AnnotationError Number :=
  match arg.2 with
  | .number n => .ok n
  | _ => arg.invalid "a number"

/-- Any value as JSON. -/
def asJson (arg : Arg) : Json := arg.2.toJson

/-- An array or a list of positional values; a single scalar is a list of one. -/
def asJsonList (arg : Arg) : Except AnnotationError (List Json) :=
  match arg.2 with
  | .array items => .ok (items.map ArgValue.toJson)
  | .list args =>
      if args.all (fun (a : Arg) => a.isPositional) then
        .ok (args.map (fun (a : Arg) => a.2.toJson))
      else arg.invalid "an array"
  | .flag => arg.invalid "an array"
  | value => .ok [value.toJson]

/-- The text of an entry in a list of texts: a bare name, or a positional string or path. -/
def listedText? (arg : Arg) : Option String :=
  if arg.2.isFlag then some arg.1
  else if arg.isPositional then arg.2.text?
  else none

/-- One text, an array of texts or a list of names and texts. -/
def asTextList (arg : Arg) : Except AnnotationError (List String) :=
  let texts : Option (List String) :=
    match arg.2 with
    | .text value => some [value]
    | .path value => some [value]
    | .array items => items.mapM ArgValue.text?
    | .list args => args.mapM listedText?
    | _ => none
  match texts with
  | some values => .ok values
  | none => arg.invalid "a list of strings"

/-- A nested list of arguments. -/
def asList (arg : Arg) : Except AnnotationError (List Arg) :=
  match arg.2 with
  | .list args => .ok args
  | _ => arg.invalid "nested arguments"

/-- A nested list of arguments as the members of an object. -/
def asMembers (arg : Arg) : Except AnnotationError (List (String × Json)) :=
  match arg.2 with
  | .list args => .ok (collectMembers (ArgValue.argsToMembers args))
  | _ => arg.invalid ("nested " ++ inTicks "key = value" ++ " arguments")

end Arg

end AnnotatedApi
